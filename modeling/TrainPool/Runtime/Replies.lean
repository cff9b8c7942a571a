import TrainPool.Runtime.Batch

namespace TrainPool

open Execution

/-! What the answers of a daemon say about its sessions: START_ACK about the
one that is open, COMPLETE about the chunk that was applied. -/

/-- The session is the one that this START asks for. -/
structure IncomingSession.Opened (packet : Packet)
    (session : IncomingSession) : Prop where
  baseOffset : session.baseOffset = packet.offset
  length : session.buffer.length =
    Bytes.fromBigEndian (packet.payload.take 8)
  checksum : session.checksum = packet.payload.drop 8
  generation : session.generation = packet.generation
  lease : session.lease = packet.leaseToken
  blockSize : session.blockSize = packet.totalSize

theorem IncomingSession.opened_iff {packet : Packet}
    {session : IncomingSession} :
    session.Opened packet ↔
      session.baseOffset = packet.offset ∧
        session.buffer.length =
          Bytes.fromBigEndian (packet.payload.take 8) ∧
        session.checksum = packet.payload.drop 8 ∧
        session.generation = packet.generation ∧
        session.lease = packet.leaseToken ∧
        session.blockSize = packet.totalSize := by
  constructor
  · intro opened
    exact ⟨opened.baseOffset, opened.length, opened.checksum,
      opened.generation, opened.lease, opened.blockSize⟩
  · intro given
    obtain ⟨baseOffset, length, checksum, generation, lease, blockSize⟩ :=
      given
    exact ⟨baseOffset, length, checksum, generation, lease, blockSize⟩

instance (packet : Packet) (session : IncomingSession) :
    Decidable (session.Opened packet) :=
  decidable_of_iff _ IncomingSession.opened_iff.symm

/-- The kind of the answers that a handler gives at a stage, if any. -/
def Stage.answers : Stage → Kind
  | .startSession => .startAck
  | .finSession => .nack
  | .finCompleted | .finRelease => .complete
  | _ => .ack

theorem answers_startAck {stage : Stage} (kind : stage.answers = .startAck) :
    stage = .startSession := by
  cases stage <;> first | rfl | cases kind

theorem answers_complete {stage : Stage} (kind : stage.answers = .complete) :
    stage = .finCompleted ∨ stage = .finRelease := by
  cases stage <;> first | exact .inl rfl | exact .inr rfl | cases kind

theorem errorReply_kind {request reply : Packet} {message : String}
    (replied : reply ∈ errorReply request message) : reply.kind = .error := by
  unfold errorReply at replied
  simp only at replied
  split at replied
  · obtain rfl := List.mem_singleton.mp replied
    rfl
  · cases replied

def Stage.applied : Stage → Bool
  | .finInsert | .finEvict | .finRelease => true
  | _ => false

def RamBlock.Takes (now token : Nat) (session : IncomingSession)
    (block : RamBlock) : Prop :=
  (token = block.handle.leaseToken ∧ now < block.handle.leaseExpiresMs) ∧
    block.handle.generation = session.generation ∧
    block.handle.state = .writing ∧ block.written = session.baseOffset

instance (now token : Nat) (session : IncomingSession) (block : RamBlock) :
    Decidable (block.Takes now token session) :=
  inferInstanceAs (Decidable ((_ ∧ _) ∧ _))

namespace Handler

variable (config : Config) (source : SocketAddr) (now instant : Nat)

def applies (shared : Shared) (handler : Handler) :
    List (SessionKey × Nat) :=
  match handler.stage with
  | .finWrite session arc =>
      match runFinWrite now handler.packet session arc shared with
      | some (_, .next .finInsert) =>
          [(handler.packet.key source, session.baseOffset)]
      | _ => []
  | _ => []

/-- A START does not find a session that another START has opened, and a FIN
whose chunk is applied names its offset. -/
def Fits (shared : Shared) (handler : Handler) : Prop :=
  match handler.stage with
  | .startSession =>
      ∀ session, (shared.udp.expireIncoming config instant).incoming.lookup
        (handler.packet.key source) = some session →
          session.Opened handler.packet
  | .finWrite session arc =>
      ∀ block, shared.ram.lock? arc = some block →
        block.Takes now handler.packet.leaseToken session →
          handler.packet.offset = session.baseOffset
  | _ => True

instance (shared : Shared) :
    (handler : Handler) →
      Decidable (handler.Fits config source now instant shared)
  | ⟨packet, _, .startSession⟩ => inferInstanceAs (Decidable
      (∀ session ∈ (shared.udp.expireIncoming config instant).incoming.lookup
        (packet.key source), session.Opened packet))
  | ⟨packet, _, .finWrite session arc⟩ => inferInstanceAs (Decidable
      (∀ block ∈ shared.ram.lock? arc,
        block.Takes now packet.leaseToken session →
          packet.offset = session.baseOffset))
  | ⟨_, _, .enter⟩ | ⟨_, _, .readBlock⟩ | ⟨_, _, .readLock _⟩
  | ⟨_, _, .startBlock⟩ | ⟨_, _, .startLock _⟩ | ⟨_, _, .dataCompleted⟩
  | ⟨_, _, .dataSession⟩ | ⟨_, _, .dataFinishing⟩
  | ⟨_, _, .batchCompleted⟩ | ⟨_, _, .batchSession⟩
  | ⟨_, _, .batchFinishing⟩ | ⟨_, _, .finCompleted⟩ | ⟨_, _, .finSession⟩
  | ⟨_, _, .finFinishing⟩ | ⟨_, _, .finBlock _⟩ | ⟨_, _, .finInsert⟩
  | ⟨_, _, .finEvict⟩ | ⟨_, _, .finRelease⟩ | ⟨_, _, .finFail _⟩
  | ⟨_, _, .abortSession⟩ => isTrue trivial

variable {config} {source} {now} {instant} {blake3 : List UInt8 → Digest}
  {choice : Choice} {shared next : Shared} {outcome : Outcome}
  {handler : Handler}

theorem run_answer_kind {reply : Packet}
    (ran : handler.run config blake3 source now instant choice shared =
      some (next, .answer (some reply))) :
    reply.kind = handler.stage.answers := by
  cases run_answers ran with
  | known stage | knownAll stage =>
      rcases stage with ⟨stage, _⟩ | ⟨stage, _⟩
      · rw [stage]
        rfl
      · rw [stage]
        rfl
  | completed stage =>
      rcases stage with stage | stage
      · rw [stage]
        rfl
      · rw [stage]
        rfl
  | started stage | stored stage | storedAll stage | missing stage =>
      rw [stage]
      rfl

theorem startSession_completed {udp : UdpServerState} {reserved : Bool}
    {packet : Packet} :
    (udp.startSession config instant reserved source packet).1.completed =
      udp.completed := by
  unfold UdpServerState.startSession
  simp only
  split
  · rfl
  · split
    · rfl
    · split <;> rfl

theorem dispatch_applied {packet : Packet} {stage : Stage}
    (sent : dispatch config packet = .next stage) :
    stage.applied = false := by
  unfold dispatch at sent
  split at sent
  · obtain ⟨_, _, rfl⟩ := ofResult_next sent
    rfl
  · split at sent
    · obtain ⟨_, _, rfl⟩ := ofResult_next sent
      rfl
    · cases sent
  · cases sent
    rfl
  · cases sent
    rfl
  · cases sent
    rfl
  · cases sent

theorem run_completed {entry : SessionKey × Nat} {time : Nat}
    (ran : handler.run config blake3 source now instant choice shared =
      some (next, outcome))
    (stored : next.udp.completed.lookup entry = some time) :
    shared.udp.completed.lookup entry = some time ∨
      handler.stage = .finInsert ∧
        entry = (handler.packet.key source, handler.packet.offset) := by
  obtain ⟨packet, rest, stage⟩ := handler
  cases stage with
  | enter =>
      cases ran
      exact .inl (Table.lookup_retain.mp stored).1
  | readLock arc =>
      obtain ⟨block, _, ran⟩ := Option.bind_eq_some_iff.mp ran
      left
      split at ran
      · cases ran; exact stored
      · cases ran; exact stored
      · split at ran <;> cases ran <;> exact stored
  | startLock arc =>
      obtain ⟨block, _, ran⟩ := Option.bind_eq_some_iff.mp ran
      cases ran
      exact .inl stored
  | startSession =>
      simp only [run, runStartSession, Option.some.injEq,
        Prod.mk.injEq] at ran
      rw [← ran.1, startSession_completed] at stored
      exact .inl stored
  | dataSession =>
      left
      simp only [run, runDataSession] at ran
      split at ran <;> cases ran <;> exact stored
  | batchSession =>
      left
      simp only [run, runBatchSession] at ran
      split at ran <;> cases ran <;> exact stored
  | finSession =>
      left
      simp only [run, runFinSession] at ran
      split at ran
      · cases ran; exact stored
      · split at ran
        · cases ran; exact stored
        · split at ran
          · cases ran; exact stored
          · split at ran <;> cases ran <;> exact stored
  | finWrite session arc =>
      obtain ⟨block, _, ran⟩ := Option.bind_eq_some_iff.mp ran
      left
      split at ran <;> cases ran <;> exact stored
  | finInsert =>
      cases ran
      rw [Table.lookup_insert_eq] at stored
      split at stored
      · rename_i same
        exact .inr ⟨rfl, same⟩
      · exact .inl stored
  | finEvict =>
      left
      simp only [run, runFinEvict] at ran
      split at ran
      · obtain ⟨oldest, _, ran⟩ := Option.bind_eq_some_iff.mp ran
        split at ran <;> cases ran
        rw [Table.lookup_erase_eq] at stored
        split at stored
        · cases stored
        · exact stored
      · cases ran; exact stored
  | _ =>
      cases ran
      exact .inl stored

theorem run_applied {stage : Stage}
    (ran : handler.run config blake3 source now instant choice shared =
      some (next, .next stage)) (applied : stage.applied = true) :
    handler.stage.applied = true ∨
      ∃ session arc, handler.stage = .finWrite session arc := by
  obtain ⟨packet, rest, here⟩ := handler
  cases here with
  | finInsert | finEvict | finRelease => exact .inl rfl
  | finWrite session arc => exact .inr ⟨session, arc, rfl⟩
  | enter =>
      simp only [run, Option.some.injEq, Prod.mk.injEq] at ran
      rw [dispatch_applied ran.2] at applied
      cases applied
  | readBlock | startBlock =>
      simp only [run, Option.some.injEq, Prod.mk.injEq] at ran
      obtain ⟨_, _, rfl⟩ := ofResult_next ran.2
      cases applied
  | readLock arc =>
      obtain ⟨block, _, ran⟩ := Option.bind_eq_some_iff.mp ran
      split at ran
      · cases ran
      · cases ran
      · split at ran <;> cases ran
  | startLock arc =>
      obtain ⟨block, _, ran⟩ := Option.bind_eq_some_iff.mp ran
      simp only [Option.some.injEq, Prod.mk.injEq] at ran
      obtain ⟨_, _, rfl⟩ := ofResult_next ran.2
      cases applied
  | startSession =>
      simp only [run, runStartSession, Option.some.injEq,
        Prod.mk.injEq] at ran
      replace ran := ran.2
      split at ran <;> cases ran
  | dataSession =>
      simp only [run, runDataSession] at ran
      split at ran
      · cases ran
        cases applied
      · simp only [Option.some.injEq, Prod.mk.injEq] at ran
        replace ran := ran.2
        split at ran <;> cases ran
  | batchSession =>
      simp only [run, runBatchSession] at ran
      split at ran
      · cases ran
        cases applied
      · simp only [Option.some.injEq, Prod.mk.injEq] at ran
        replace ran := ran.2
        split at ran <;> cases ran
  | finSession =>
      simp only [run, runFinSession] at ran
      split at ran
      · cases ran
        cases applied
      · split at ran
        · cases ran
        · split at ran
          · cases ran
          · split at ran <;> cases ran
            cases applied
  | finFail message | abortSession => cases ran
  | finBlock session =>
      simp only [run, Option.some.injEq, Prod.mk.injEq] at ran
      replace ran := ran.2
      split at ran <;> cases ran <;> cases applied
  | dataCompleted | batchCompleted | finCompleted =>
      simp only [run, Option.some.injEq, Prod.mk.injEq] at ran
      replace ran := ran.2
      split at ran <;> cases ran
      cases applied
  | dataFinishing | batchFinishing | finFinishing =>
      simp only [run, Option.some.injEq, Prod.mk.injEq] at ran
      replace ran := ran.2
      split at ran <;> cases ran

theorem applies_finWrite {session : IncomingSession} {arc : Arc}
    {stage : Stage} (here : handler.stage = .finWrite session arc)
    (ran : handler.run config blake3 source now instant choice shared =
      some (next, .next stage)) (applied : stage.applied = true) :
    handler.applies source now shared =
        [(handler.packet.key source, session.baseOffset)] ∧
      ∃ block, shared.ram.lock? arc = some block ∧
        block.Takes now handler.packet.leaseToken session := by
  obtain ⟨packet, rest, written⟩ := handler
  cases here
  have kept : runFinWrite now packet session arc shared =
      some (next, .next stage) := ran
  obtain ⟨block, free, wrote⟩ := Option.bind_eq_some_iff.mp kept
  split at wrote
  · rename_i finished
    cases wrote
    obtain ⟨authorized, same, _⟩ := RamBlock.finishUdp_ok.mp finished
    exact ⟨by simp [applies, kept], block, free, authorized, same⟩
  · cases wrote
    cases applied
  · cases wrote

theorem run_startAck {reply : Packet}
    (ran : handler.run config blake3 source now instant choice shared =
      some (next, .answer (some reply)))
    (stage : handler.stage = .startSession)
    (fits : handler.Fits config source now instant shared) :
    ∃ session,
      next.udp.incoming.lookup (handler.packet.key source) = some session ∧
        session.Opened handler.packet := by
  obtain ⟨packet, rest, here⟩ := handler
  cases stage
  simp only [run, runStartSession, Option.some.injEq, Prod.mk.injEq] at ran
  obtain ⟨rfl, answered⟩ := ran
  simp only [Fits] at fits
  unfold UdpServerState.startSession at answered ⊢
  simp only at answered ⊢
  split
  · rename_i open_
    obtain ⟨session, found⟩ := AList.lookup_isSome.mpr open_ |>
      Option.isSome_iff_exists.mp
    exact ⟨session, found, fits session found⟩
  · rename_i closed
    rw [if_neg closed] at answered
    split
    · rename_i full
      rw [if_pos full] at answered
      cases answered
    · rename_i room
      rw [if_neg room] at answered
      split
      · rename_i refused
        rw [if_pos refused] at answered
        cases answered
      · refine ⟨_, by rw [Table.lookup_insert_eq, if_pos rfl], ?_⟩
        constructor <;> simp

theorem run_complete {history : List (SessionKey × Nat)} {reply : Packet}
    (ran : handler.run config blake3 source now instant choice shared =
      some (next, .answer (some reply)))
    (stage : handler.stage = .finCompleted)
    (completed : ∀ entry time,
      shared.udp.completed.lookup entry = some time → entry ∈ history) :
    (handler.packet.key source, handler.packet.offset) ∈ history := by
  obtain ⟨packet, rest, here⟩ := handler
  cases stage
  simp only [run, Option.some.injEq, Prod.mk.injEq] at ran
  replace ran := ran.2
  split at ran <;> cases ran
  rename_i known
  obtain ⟨time, found⟩ := Option.isSome_iff_exists.mp known
  exact completed _ time found

end Handler

namespace Daemon

variable (config : Config) (blake3 : List UInt8 → Digest) (self : Identity)

def answers (daemon : Daemon) :
    DaemonEvent → List (SocketAddr × Packet × Packet)
  | .handle index choice =>
      match daemon.tasks[index]? with
      | some ⟨source, handler :: _⟩ =>
          match handler.run config blake3 source daemon.now daemon.instant
              choice daemon.shared with
          | some (_, outcome) => (outcome.replies handler.packet).map
              (source, handler.packet, ·)
          | none => []
      | _ => []
  | _ => []

/-- The chunks that a step applies to a block, with their sessions. -/
def applies (daemon : Daemon) : DaemonEvent → List (SessionKey × Nat)
  | .handle index _ =>
      match daemon.tasks[index]? with
      | some ⟨source, handler :: _⟩ =>
          handler.applies source daemon.now daemon.shared
      | _ => []
  | _ => []

/-- A step of a daemon that remembers the chunks it has applied. -/
def recorded (state : Daemon × List (SessionKey × Nat))
    (event : DaemonEvent) : Option (Daemon × List (SessionKey × Nat)) :=
  (state.1.step config blake3 self event).map
    fun next => (next, state.2 ++ state.1.applies event)

/-- The handler that goes on fits what it finds. -/
def Fits (daemon : Daemon) : DaemonEvent → Prop
  | .handle index _ =>
      ∀ task ∈ daemon.tasks[index]?, ∀ handler ∈ task.handlers.head?,
        handler.Fits config task.source daemon.now daemon.instant daemon.shared
  | _ => True

instance (daemon : Daemon) :
    (event : DaemonEvent) → Decidable (daemon.Fits config event)
  | .handle index _ => inferInstanceAs (Decidable
      (∀ task ∈ daemon.tasks[index]?, ∀ handler ∈ task.handlers.head?,
        handler.Fits config task.source daemon.now daemon.instant
          daemon.shared))
  | .receive _ _ | .request _ | .responded _ | .clock _ _ => isTrue trivial

structure Justified (history : List (SessionKey × Nat)) (daemon : Daemon) :
    Prop where
  completed : ∀ entry time,
    daemon.shared.udp.completed.lookup entry = some time → entry ∈ history
  handlers : ∀ source handler, daemon.Handles source handler →
    handler.stage.applied = true →
      (handler.packet.key source, handler.packet.offset) ∈ history

variable {config} {blake3} {self} {daemon next : Daemon}
  {event : DaemonEvent} {history : List (SessionKey × Nat)}

theorem empty_justified : empty.Justified history where
  completed := by
    intro entry time stored
    simp [empty] at stored
  handlers := by
    intro source handler handles
    obtain ⟨task, member, _⟩ := handles
    simp [empty] at member

theorem Justified.mono {more : List (SessionKey × Nat)}
    (justified : daemon.Justified history) :
    daemon.Justified (history ++ more) where
  completed := fun entry time stored =>
    List.mem_append_left more (justified.completed entry time stored)
  handlers := fun source handler handles applied =>
    List.mem_append_left more
      (justified.handlers source handler handles applied)

theorem step_justified (justified : daemon.Justified history)
    (fits : daemon.Fits config event)
    (stepped : daemon.step config blake3 self event = some next) :
    next.Justified (history ++ daemon.applies event) := by
  rcases step_cases stepped with ⟨source, datagrams, rfl, rfl⟩ |
      ⟨index, choice, rfl, handled⟩ | ⟨tasks, _, _, _, completed⟩
  · refine ⟨justified.mono.completed, ?_⟩
    intro origin handler handles applied
    rcases receive_handles handles with handles | ⟨_, member⟩
    · exact justified.mono.handlers origin handler handles applied
    · rcases (udpDatagrams_spec member).2 with ⟨stage, _⟩ | ⟨stage, _⟩
      · rw [stage] at applied
        cases applied
      · rw [stage] at applied
        cases applied
  · obtain ⟨source, handler, rest, outcome, found, handles, ran, others, _⟩ :=
      handle_handles handled
    have own : daemon.applies (.handle index choice) =
        handler.applies source daemon.now daemon.shared := by
      simp [applies, found]
    have fit : handler.Fits config source daemon.now daemon.instant
        daemon.shared := fits _ found _ rfl
    rw [own]
    constructor
    · intro entry time stored
      apply List.mem_append_left
      rcases Handler.run_completed ran stored with before | ⟨stage, rfl⟩
      · exact justified.completed entry time before
      · exact justified.handlers source handler handles (by simp [stage,
          Stage.applied])
    · intro origin other otherHandles applied
      rcases others origin other otherHandles with old | ⟨rfl, stage, sent, rfl⟩
      · exact justified.mono.handlers origin other old applied
      · subst sent
        rcases Handler.run_applied ran applied with before | finWrite
        · exact justified.mono.handlers origin handler handles before
        · obtain ⟨session, arc, here⟩ := finWrite
          obtain ⟨chunk, block, free, takes⟩ :=
            Handler.applies_finWrite here ran applied
          simp only [Handler.Fits, here] at fit
          rw [chunk]
          simp [fit block free takes]
  · have kept : next.Justified history := by
      constructor
      · intro entry time stored
        rw [completed] at stored
        exact justified.completed entry time stored
      · intro source handler handles
        exact justified.handlers source handler (handles.of_tasks tasks)
    exact kept.mono

theorem run_justified {events : List DaemonEvent}
    (fits : Along (recorded config blake3 self)
      (fun state event => state.1.Fits config event) (empty, []) events)
    (ran : run (recorded config blake3 self) (empty, []) events =
      some (daemon, history)) :
    daemon.Justified history := by
  apply run_invariant_along (fun state => state.1.Justified state.2) _
    empty_justified fits ran
  intro state event after justified fits recorded
  obtain ⟨next, stepped, rfl⟩ := Option.map_eq_some_iff.mp recorded
  exact step_justified justified fits stepped

/-- In every run in which no START finds the session of another START under its
key and every FIN that applies a chunk names its offset, a START_ACK is sent for
a session that is open as START describes it, and a COMPLETE for a chunk that
has been applied at the offset of FIN. -/
theorem replies_bound {events : List DaemonEvent}
    (fits : Along (recorded config blake3 self)
      (fun state event => state.1.Fits config event) (empty, [])
      (events ++ [event]))
    (ran : run (recorded config blake3 self) (empty, []) events =
      some (daemon, history))
    (stepped : daemon.step config blake3 self event = some next)
    {source : SocketAddr} {packet reply : Packet}
    (answered : (source, packet, reply) ∈
      daemon.answers config blake3 event) :
    (reply.kind = .startAck → ∃ session,
      next.shared.udp.incoming.lookup (packet.key source) = some session ∧
        session.Opened packet) ∧
      (reply.kind = .complete →
        (packet.key source, packet.offset) ∈ history) := by
  obtain ⟨front, back⟩ := fits.append ran
  have justified := run_justified front ran
  have fits : daemon.Fits config event := back.1
  cases event with
  | handle index choice =>
      obtain ⟨origin, handler, rest, outcome, found, handles, handled, _⟩ :=
        handle_handles stepped
      have fit : handler.Fits config origin daemon.now daemon.instant
          daemon.shared := fits _ found _ rfl
      simp only [answers, found, handled, List.mem_map,
        Prod.mk.injEq] at answered
      obtain ⟨sent, replied, rfl, rfl, rfl⟩ := answered
      cases outcome with
      | answer reply =>
          obtain rfl := Option.mem_toList.mp replied
          rw [Handler.run_answer_kind handled]
          constructor
          · intro kind
            exact Handler.run_startAck handled (answers_startAck kind) fit
          · intro kind
            rcases answers_complete kind with stage | stage
            · exact Handler.run_complete handled stage justified.completed
            · exact justified.handlers origin handler handles
                (by simp [stage, Stage.applied])
      | fail message =>
          have kind := errorReply_kind replied
          constructor
          · intro same
            rw [kind] at same
            cases same
          · intro same
            rw [kind] at same
            cases same
      | next stage => cases replied
      | respond response => cases replied
      | panic => cases replied
  | _ => cases answered

/-! Two chunks of one block, whose transfer has one identifier.  The second
START finds the session of the first; the FIN names the wrong chunk. -/

def shorterStart : Packet :=
  twoChunkPacket .start 1 0
    (Bytes.toBigEndian 8 2 ++ (abcHash []).toList)

def startTwice : List DaemonEvent :=
  [.request (.allocateLocal twoChunkHandle true true),
    .receive 1 [.ok (twoChunkStart 0)]] ++ handleOnly 0 4 ++
  [.receive 1 [.ok shorterStart]] ++ handleOnly 1 3

def chunkWithFin (offset : Nat) : List DaemonEvent :=
  [.request (.allocateLocal twoChunkHandle true true),
    .receive 1 [.ok (twoChunkStart 0)]] ++ handleOnly 0 4 ++
  [.receive 1 [.ok (twoChunkPacket .data 0 0 [97, 98, 99])]] ++
    handleOnly 1 3 ++
  [.receive 1 [.ok (twoChunkPacket .fin 1 offset (abcHash []).toList)]] ++
    handleOnly 2 7

theorem replies_unbound :
    (∃ daemon history next packet reply,
      run (recorded {} abcHash ⟨2, 20⟩) (empty, []) startTwice =
          some (daemon, history) ∧
        daemon.step {} abcHash ⟨2, 20⟩ (.handle 1 {}) = some next ∧
        daemon.answers {} abcHash (.handle 1 {}) = [(1, packet, reply)] ∧
        reply.kind = .startAck ∧
        ¬∃ session ∈ next.shared.udp.incoming.lookup (packet.key 1),
          session.Opened packet) ∧
    ∃ daemon history packet reply,
      run (recorded {} abcHash ⟨2, 20⟩) (empty, []) (chunkWithFin 3) =
          some (daemon, history) ∧
        daemon.answers {} abcHash (.handle 2 {}) = [(1, packet, reply)] ∧
        reply.kind = .complete ∧
        (packet.key 1, packet.offset) ∉ history :=
  ⟨⟨_, _, _, _, _, rfl, rfl, rfl, rfl, by decide +kernel⟩,
    _, _, _, _, rfl, rfl, rfl, by decide +kernel⟩

theorem replies_bound_twoChunk :
    ∃ daemon history next packet reply,
      run (recorded {} abcHash ⟨2, 20⟩) (empty, []) (chunkWithFin 0) =
          some (daemon, history) ∧
        daemon.step {} abcHash ⟨2, 20⟩ (.handle 2 {}) = some next ∧
        daemon.answers {} abcHash (.handle 2 {}) = [(1, packet, reply)] ∧
        (packet.key 1, packet.offset) ∈ history :=
  ⟨_, _, _, _, _, rfl, rfl, rfl,
    (@replies_bound {} abcHash ⟨2, 20⟩ _ _ (.handle 2 {}) _ (chunkWithFin 0)
      (by decide +kernel) rfl rfl _ _ _ (List.mem_singleton.mpr rfl)).2 rfl⟩

end Daemon

end TrainPool
