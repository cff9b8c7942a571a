import TrainPool.Runtime.Reassembly
import TrainPool.Runtime.Sessions

namespace TrainPool

open Execution Slice

/-! What every incoming session of a daemon satisfies, whatever its packets
say. -/

structure IncomingSession.WellFormed (config : Config)
    (session : IncomingSession) : Prop where
  pieces : session.payloadSize = config.udpPayloadBytes
  count : session.packetCount =
    divCeil session.buffer.length session.payloadSize
  positive : 0 < session.buffer.length
  chunk : session.buffer.length ≤ config.chunkBytes
  slots : session.received.length = session.packetCount
  counted : session.receivedCount = session.received.count true
  inside : session.baseOffset + session.buffer.length ≤ session.blockSize

namespace IncomingSession

variable {config : Config} {session : IncomingSession} {packet : Packet}

theorem checked_ok :
    (do session.checkMetadata packet; session.checkRange packet) = .ok () ↔
      session.checkMetadata packet = .ok () ∧
        session.checkRange packet = .ok () := by
  rw [bind_ok]
  constructor
  · intro given
    obtain ⟨⟨⟩, metadata, range⟩ := given
    exact ⟨metadata, range⟩
  · intro given
    exact ⟨(), given⟩

theorem WellFormed.touch (formed : session.WellFormed config)
    (instant : Nat) :
    ({ session with lastActivity := instant } : IncomingSession).WellFormed
      config :=
  ⟨formed.pieces, formed.count, formed.positive, formed.chunk, formed.slots,
    formed.counted, formed.inside⟩

theorem WellFormed.slot (formed : session.WellFormed config)
    (range : session.checkRange packet = .ok ()) :
    packet.sequenceId < session.received.length := by
  rw [formed.slots]
  exact (checkRange_ok.mp range).1

theorem count_set_true {received : List Bool} {sequence : Nat}
    (slot : sequence < received.length)
    (fresh : received.getD sequence false = false) :
    (received.set sequence true).count true = received.count true + 1 := by
  have unset : received[sequence] = false := by
    simpa [List.getD_eq_getElem?_getD, List.getElem?_eq_getElem slot] using
      fresh
  rw [List.count_set slot, unset]
  simp

theorem WellFormed.store (formed : session.WellFormed config)
    (range : session.checkRange packet = .ok ())
    (fresh : session.isReceived packet.sequenceId = false) :
    (session.store packet).WellFormed config where
  pieces := formed.pieces
  count := by
    simp only [IncomingSession.store]
    rw [length_overwrite (checkRange_ok.mp range).2.2]
    exact formed.count
  positive := by
    simp only [IncomingSession.store]
    rw [length_overwrite (checkRange_ok.mp range).2.2]
    exact formed.positive
  chunk := by
    simp only [IncomingSession.store]
    rw [length_overwrite (checkRange_ok.mp range).2.2]
    exact formed.chunk
  slots := by
    simpa [IncomingSession.store] using formed.slots
  counted := by
    simp only [IncomingSession.store]
    rw [count_set_true (formed.slot range) fresh, formed.counted]
  inside := by
    simp only [IncomingSession.store]
    rw [length_overwrite (checkRange_ok.mp range).2.2]
    exact formed.inside

theorem WellFormed.receiveData (formed : session.WellFormed config)
    {instant window : Nat} :
    (session.receiveData instant window packet).1.WellFormed config := by
  unfold IncomingSession.receiveData
  split
  · exact formed
  · have touched := formed.touch instant
    simp only
    split
    · exact touched
    · rename_i range
      simp only
      split
      · exact touched
      · rename_i fresh
        exact touched.store range (by simpa using fresh)

theorem WellFormed.receiveAll {packets : List Packet}
    (formed : session.WellFormed config) :
    (session.receiveAll packets).1.WellFormed config := by
  induction packets generalizing session with
  | nil => exact formed
  | cons packet rest ih =>
      unfold IncomingSession.receiveAll
      split
      · exact formed
      · rename_i checked
        split
        · exact ih formed
        · rename_i fresh
          exact ih (formed.store (checked_ok.mp checked).2
            (by simpa using fresh))

end IncomingSession

def Packet.Opens (config : Config) (packet : Packet) : Prop :=
  checkStart config packet = .ok ()

theorem checkStart_ok {config : Config} {packet : Packet} :
    packet.Opens config ↔
      packet.payload.length = 40 ∧
        (0 < Bytes.fromBigEndian (packet.payload.take 8) ∧
          Bytes.fromBigEndian (packet.payload.take 8) ≤ config.chunkBytes) ∧
        packet.sequenceId =
          divCeil (Bytes.fromBigEndian (packet.payload.take 8))
            config.udpPayloadBytes ∧
        packet.offset + Bytes.fromBigEndian (packet.payload.take 8) ≤
          packet.totalSize := by
  unfold Packet.Opens checkStart
  rw [ensure_bind_ok]
  simp only [ensure_bind_ok, ensure_ok]

def SessionsFormed (config : Config) (udp : UdpServerState) : Prop :=
  ∀ key session, udp.incoming.lookup key = some session →
    session.WellFormed config

def Handler.Knows (config : Config) (handler : Handler) : Prop :=
  match handler.stage with
  | .startBlock | .startLock _ | .startSession =>
      handler.packet.Opens config
  | .finBlock session | .finWrite session _ => session.WellFormed config
  | _ => True

section Steps

variable {config : Config} {blake3 : List UInt8 → Digest}
  {source : SocketAddr} {now instant : Nat} {choice : Choice}
  {shared next : Shared} {outcome : Outcome} {handler : Handler}

theorem SessionsFormed.mono {before after : UdpServerState}
    (formed : SessionsFormed config before)
    (kept : ∀ key session, after.incoming.lookup key = some session →
      before.incoming.lookup key = some session) :
    SessionsFormed config after := by
  intro key session found
  exact formed key session (kept key session found)

theorem SessionsFormed.insert {udp : UdpServerState}
    (formed : SessionsFormed config udp) {key : SessionKey}
    {session : IncomingSession} (new : session.WellFormed config) :
    SessionsFormed config
      { udp with incoming := udp.incoming.insert key session } := by
  intro other found stored
  rw [Table.lookup_insert_eq] at stored
  split at stored
  · cases stored
    exact new
  · exact formed other found stored

theorem SessionsFormed.erase {udp : UdpServerState}
    (formed : SessionsFormed config udp) (key : SessionKey) :
    SessionsFormed config
      { udp with incoming := udp.incoming.erase key } := by
  apply formed.mono
  intro other session stored
  rw [Table.lookup_erase_eq] at stored
  split at stored
  · cases stored
  · exact stored

theorem startSession_formed {reserved : Bool} {packet : Packet}
    {udp : UdpServerState} (formed : SessionsFormed config udp)
    (opens : packet.Opens config) :
    SessionsFormed config
      (udp.startSession config instant reserved source packet).1 := by
  have expired : SessionsFormed config
      (udp.expireIncoming config instant) :=
    formed.mono fun _ _ stored => (Table.lookup_retain.mp stored).1
  obtain ⟨_, ⟨positive, chunk⟩, count, inside⟩ := checkStart_ok.mp opens
  unfold UdpServerState.startSession
  simp only
  split
  · exact expired
  · split
    · exact expired
    · split
      · exact expired
      · apply expired.insert
        constructor
        · rfl
        · simpa using count
        · simpa using positive
        · simpa using chunk
        · simp
        · simp [List.count_replicate]
        · simpa using inside

theorem ofResult_next {α : Type} {stage : α → Stage} {result : Result α}
    {found : Stage}
    (same : Outcome.ofResult stage result = .next found) :
    ∃ value, result = .ok value ∧ found = stage value := by
  cases result with
  | ok value =>
      cases same
      exact ⟨value, rfl, rfl⟩
  | error fault =>
      cases fault <;> cases same

theorem dispatch_knows {packet : Packet} {rest : List Packet} {stage : Stage}
    (sent : Handler.dispatch config packet = .next stage) :
    Handler.Knows config ⟨packet, rest, stage⟩ := by
  unfold Handler.dispatch at sent
  split at sent
  · obtain ⟨_, _, rfl⟩ := ofResult_next sent
    trivial
  · split at sent
    · obtain ⟨_, opens, rfl⟩ := ofResult_next sent
      exact opens
    · cases sent
  · cases sent
    trivial
  · cases sent
    trivial
  · cases sent
    trivial
  · cases sent

/-- What a step of a handler leaves: well-formed sessions, and a handler that
knows what its stage requires. -/
structure Handler.Forms (config : Config) (handler : Handler)
    (shared : Shared) (outcome : Outcome) : Prop where
  sessions : SessionsFormed config shared.udp
  knows : ∀ stage, outcome = .next stage →
    Handler.Knows config { handler with stage := stage }

namespace Handler

theorem Forms.ends (formed : SessionsFormed config next.udp)
    (ends : ∀ stage, outcome ≠ .next stage) :
    handler.Forms config next outcome :=
  ⟨formed, fun stage same => absurd same (ends stage)⟩

theorem Forms.goesOn {stage : Stage} (formed : SessionsFormed config next.udp)
    (knows : Handler.Knows config { handler with stage := stage }) :
    handler.Forms config next (.next stage) := by
  refine ⟨formed, ?_⟩
  intro stage same
  cases same
  exact knows

theorem Forms.ofResult {α : Type} {stage : α → Stage} {result : Result α}
    (formed : SessionsFormed config next.udp)
    (knows : ∀ value,
      Handler.Knows config { handler with stage := stage value }) :
    handler.Forms config next (.ofResult stage result) := by
  refine ⟨formed, ?_⟩
  intro stage same
  obtain ⟨value, _, rfl⟩ := ofResult_next same
  exact knows value

theorem dataSession_forms {packet : Packet} {rest : List Packet}
    (formed : SessionsFormed config shared.udp) :
    Forms config ⟨packet, rest, .dataSession⟩
      (runDataSession config source instant packet shared).1
      (runDataSession config source instant packet shared).2 := by
  unfold runDataSession
  split
  · exact .goesOn formed trivial
  · rename_i session found
    refine .ends (formed.insert (formed _ _ found).receiveData) ?_
    intro stage sent
    simp only at sent
    split at sent <;> cases sent

theorem batchSession_forms {packet : Packet} {rest : List Packet}
    (formed : SessionsFormed config shared.udp) :
    Forms config ⟨packet, rest, .batchSession⟩
      (runBatchSession config source instant packet rest shared).1
      (runBatchSession config source instant packet rest shared).2 := by
  unfold runBatchSession
  split
  · exact .goesOn formed trivial
  · rename_i session found
    have received : (session.receiveAll (packet :: rest)).1.WellFormed
        config := (formed _ _ found).receiveAll
    refine .ends (formed.insert ?_) ?_
    · split
      · exact received.touch _
      · exact received
    · intro stage sent
      simp only at sent
      split at sent <;> cases sent

theorem finSession_forms {packet : Packet} {rest : List Packet}
    (formed : SessionsFormed config shared.udp) :
    Forms config ⟨packet, rest, .finSession⟩
      (runFinSession config blake3 source packet shared).1
      (runFinSession config blake3 source packet shared).2 := by
  unfold runFinSession
  split
  · exact .goesOn formed trivial
  · rename_i session found
    split
    · exact .ends formed (by simp)
    · split
      · exact .ends formed (by simp)
      · split
        · exact .ends formed (by simp)
        · exact .goesOn (formed.erase _) (formed _ _ found)

theorem startSession_forms {packet : Packet} {rest : List Packet}
    (formed : SessionsFormed config shared.udp) (opens : packet.Opens config) :
    Forms config ⟨packet, rest, .startSession⟩
      (runStartSession config source instant choice packet shared).1
      (runStartSession config source instant choice packet shared).2 := by
  refine .ends (startSession_formed formed opens) ?_
  intro stage sent
  unfold runStartSession at sent
  simp only at sent
  split at sent <;> cases sent

theorem finEvict_forms (formed : SessionsFormed config shared.udp)
    (ran : runFinEvict config choice shared = some (next, outcome)) :
    handler.Forms config next outcome := by
  unfold runFinEvict at ran
  split at ran
  · obtain ⟨oldest, _, ran⟩ := Option.bind_eq_some_iff.mp ran
    split at ran <;> cases ran
    exact .goesOn formed trivial
  · cases ran
    exact .goesOn formed trivial

theorem run_formed (formed : SessionsFormed config shared.udp)
    (knows : handler.Knows config)
    (ran : handler.run config blake3 source now instant choice shared =
      some (next, outcome)) : handler.Forms config next outcome := by
  obtain ⟨packet, rest, stage⟩ := handler
  cases stage with
  | enter =>
      cases ran
      exact ⟨formed, fun stage sent => dispatch_knows sent⟩
  | readBlock =>
      cases ran
      exact .ofResult formed fun _ => trivial
  | readLock arc =>
      obtain ⟨block, _, ran⟩ := Option.bind_eq_some_iff.mp ran
      split at ran
      · cases ran
        exact .ends formed (by simp)
      · cases ran
        exact .ends formed (by simp)
      · split at ran <;> cases ran <;> exact .ends formed (by simp)
  | startBlock =>
      cases ran
      exact .ofResult formed fun _ => knows
  | startLock arc =>
      obtain ⟨block, _, ran⟩ := Option.bind_eq_some_iff.mp ran
      cases ran
      exact .ofResult formed fun _ => knows
  | startSession =>
      obtain ⟨rfl, rfl⟩ := Prod.ext_iff.mp (Option.some.inj ran)
      exact startSession_forms formed knows
  | dataSession =>
      obtain ⟨rfl, rfl⟩ := Prod.ext_iff.mp (Option.some.inj ran)
      exact dataSession_forms formed
  | batchSession =>
      obtain ⟨rfl, rfl⟩ := Prod.ext_iff.mp (Option.some.inj ran)
      exact batchSession_forms formed
  | finSession =>
      obtain ⟨rfl, rfl⟩ := Prod.ext_iff.mp (Option.some.inj ran)
      exact finSession_forms formed
  | finBlock session =>
      simp only [run, Option.some.injEq, Prod.mk.injEq] at ran
      obtain ⟨rfl, rfl⟩ := ran
      split
      · exact .goesOn formed knows
      · exact .goesOn formed trivial
      · exact .ends formed (by simp)
  | finWrite session arc =>
      obtain ⟨block, _, ran⟩ := Option.bind_eq_some_iff.mp ran
      split at ran <;> cases ran
      · exact .goesOn formed trivial
      · exact .goesOn formed trivial
      · exact .ends formed (by simp)
  | finEvict => exact finEvict_forms formed ran
  | finInsert =>
      cases ran
      exact .goesOn formed trivial
  | abortSession =>
      cases ran
      exact .ends (formed.erase _) (by simp)
  | finRelease | finFail message =>
      cases ran
      exact .ends formed (by simp)
  | dataCompleted | batchCompleted | finCompleted =>
      simp only [run, Option.some.injEq, Prod.mk.injEq] at ran
      obtain ⟨rfl, rfl⟩ := ran
      split
      · exact .ends formed (by simp)
      · exact .goesOn formed trivial
  | dataFinishing | batchFinishing | finFinishing =>
      simp only [run, Option.some.injEq, Prod.mk.injEq] at ran
      obtain ⟨rfl, rfl⟩ := ran
      split <;> exact .ends formed (by simp)

end Handler

end Steps

structure Daemon.Formed (config : Config) (daemon : Daemon) : Prop where
  sessions : SessionsFormed config daemon.shared.udp
  handlers : ∀ source handler, daemon.Handles source handler →
    handler.Knows config

namespace Daemon

variable {config : Config} {blake3 : List UInt8 → Digest} {self : Identity}

theorem empty_formed : empty.Formed config where
  sessions := by
    intro key session found
    simp [empty] at found
  handlers := by
    intro source handler handles
    obtain ⟨task, member, _⟩ := handles
    simp [empty] at member

theorem step_formed {daemon next : Daemon} {event : DaemonEvent}
    (formed : daemon.Formed config)
    (stepped : daemon.step config blake3 self event = some next) :
    next.Formed config := by
  rcases step_cases stepped with ⟨source, datagrams, _, rfl⟩ |
      ⟨index, choice, _, handled⟩ | ⟨tasks, _, incoming, _⟩
  · refine ⟨formed.sessions, ?_⟩
    intro origin handler handles
    rcases receive_handles handles with handles | ⟨_, member⟩
    · exact formed.handlers origin handler handles
    · rcases (udpDatagrams_spec member).2 with ⟨stage, _⟩ | ⟨stage, _⟩
      · simp [Handler.Knows, stage]
      · simp [Handler.Knows, stage]
  · obtain ⟨source, handler, _, outcome, _, handles, ran, others, _⟩ :=
      handle_handles handled
    obtain ⟨sessions, knows⟩ := Handler.run_formed formed.sessions
      (formed.handlers source handler handles) ran
    refine ⟨sessions, ?_⟩
    intro origin other otherHandles
    rcases others origin other otherHandles with old | ⟨_, stage, sent, rfl⟩
    · exact formed.handlers origin other old
    · exact knows stage sent
  · refine ⟨?_, ?_⟩
    · intro key session found
      rw [incoming] at found
      exact formed.sessions key session found
    · intro origin handler handles
      exact formed.handlers origin handler (handles.of_tasks tasks)

theorem run_formed {events : List DaemonEvent} {daemon final : Daemon}
    (formed : daemon.Formed config)
    (ran : run (step config blake3 self) daemon events = some final) :
    final.Formed config :=
  run_invariant (Daemon.Formed config)
    (fun _ _ _ formed stepped => step_formed formed stepped) formed ran

end Daemon

/-! What a handler does to the sessions, said once. -/

def Stage.taken : Stage → Bool
  | .finBlock _ | .finWrite _ _ | .finInsert | .finEvict | .finRelease
  | .finFail _ => true
  | _ => false

namespace IncomingSession

structure Grows (before after : IncomingSession) : Prop where
  object : after.object = before.object
  packetCount : after.packetCount = before.packetCount
  received : ∀ sequence, before.isReceived sequence = true →
    after.isReceived sequence = true

variable {session : IncomingSession} {packet : Packet}

theorem Grows.refl (session : IncomingSession) : session.Grows session :=
  ⟨rfl, rfl, fun _ received => received⟩

theorem Grows.trans {first second third : IncomingSession}
    (early : first.Grows second) (late : second.Grows third) :
    first.Grows third :=
  ⟨late.object.trans early.object, late.packetCount.trans early.packetCount,
    fun sequence received =>
      late.received sequence (early.received sequence received)⟩

theorem grows_touch (instant : Nat) :
    session.Grows { session with lastActivity := instant } :=
  ⟨rfl, rfl, fun _ received => received⟩

theorem grows_store : session.Grows (session.store packet) := by
  refine ⟨rfl, rfl, ?_⟩
  intro sequence received
  unfold isReceived at received ⊢
  simp only [store]
  by_cases same : packet.sequenceId = sequence
  · have inside : sequence < session.received.length := by
      by_contra outside
      rw [List.getD_eq_getElem?_getD,
        List.getElem?_eq_none (Nat.le_of_not_lt outside)] at received
      cases received
    subst same
    simp [List.getD_eq_getElem?_getD, inside]
  · rwa [List.getD_eq_getElem?_getD, List.getElem?_set_ne same,
      ← List.getD_eq_getElem?_getD]

theorem grows_receiveData (instant window : Nat) :
    session.Grows (session.receiveData instant window packet).1 := by
  unfold receiveData
  split
  · exact .refl session
  · have touched := @grows_touch session instant
    simp only
    split
    · exact touched
    · simp only
      split
      · exact touched
      · exact touched.trans grows_store

theorem grows_receiveAll (packets : List Packet) :
    session.Grows (session.receiveAll packets).1 := by
  induction packets generalizing session with
  | nil => exact .refl session
  | cons packet rest ih =>
      unfold receiveAll
      split
      · exact .refl session
      · split
        · exact ih
        · exact grows_store.trans ih

end IncomingSession

namespace Handler

/-- Every change that one lock acquisition makes to the sessions: START opens
one, DATA fills it, FIN takes it and releases it in the end, and ABORT removes
it. -/
inductive Changes (config : Config) (source : SocketAddr) (instant : Nat)
    (handler : Handler) (udp : UdpServerState) : UdpServerState → Prop
  | same (after : UdpServerState) (incoming : after.incoming = udp.incoming)
      (finishing : after.finishing = udp.finishing) :
      Changes config source instant handler udp after
  | opened (reserved : Bool) (stage : handler.stage = .startSession) :
      Changes config source instant handler udp
        (udp.startSession config instant reserved source handler.packet).1
  | stored (before after : IncomingSession)
      (stage : handler.stage = .dataSession ∨
        handler.stage = .batchSession)
      (found : udp.incoming.lookup (handler.packet.key source) =
        some before)
      (grows : before.Grows after) :
      Changes config source instant handler udp
        (udp.setSession (handler.packet.key source) after)
  | taken (session : IncomingSession) (stage : handler.stage = .finSession)
      (found : udp.incoming.lookup (handler.packet.key source) =
        some session)
      (full : session.receivedCount = session.packetCount) :
      Changes config source instant handler udp
        (udp.takeSession (handler.packet.key source))
  | released (stage : handler.stage = .finRelease ∨
        ∃ message, handler.stage = .finFail message) :
      Changes config source instant handler udp
        (udp.release (handler.packet.key source))
  | aborted (stage : handler.stage = .abortSession) :
      Changes config source instant handler udp
        { udp with
          incoming := udp.incoming.erase (handler.packet.key source) }

variable {config : Config} {blake3 : List UInt8 → Digest}
  {source : SocketAddr} {now instant : Nat} {choice : Choice}
  {shared next : Shared} {outcome : Outcome} {handler : Handler}

theorem run_changes
    (ran : handler.run config blake3 source now instant choice shared =
      some (next, outcome)) :
    handler.Changes config source instant shared.udp next.udp := by
  obtain ⟨packet, rest, stage⟩ := handler
  cases stage with
  | startSession =>
      simp only [run, runStartSession, Option.some.injEq,
        Prod.mk.injEq] at ran
      rw [← ran.1]
      exact .opened choice.reserved rfl
  | dataSession =>
      simp only [run, runDataSession] at ran
      split at ran
      · cases ran
        exact .same _ rfl rfl
      · rename_i session found
        simp only [Option.some.injEq, Prod.mk.injEq] at ran
        rw [← ran.1]
        exact .stored session _ (.inl rfl) found
          (IncomingSession.grows_receiveData _ _)
  | batchSession =>
      simp only [run, runBatchSession] at ran
      split at ran
      · cases ran
        exact .same _ rfl rfl
      · rename_i session found
        have grows := @IncomingSession.grows_receiveAll session
          (packet :: rest)
        simp only [Option.some.injEq, Prod.mk.injEq] at ran
        rw [← ran.1]
        refine .stored session _ (.inr rfl) found ?_
        split
        · exact grows.trans (IncomingSession.grows_touch _)
        · exact grows
  | finSession =>
      simp only [run, runFinSession] at ran
      split at ran
      · cases ran
        exact .same _ rfl rfl
      · rename_i session found
        split at ran
        · cases ran
          exact .same _ rfl rfl
        · rename_i full
          split at ran
          · cases ran
            exact .same _ rfl rfl
          · split at ran
            · cases ran
              exact .same _ rfl rfl
            · cases ran
              exact .taken session rfl found (not_not.mp full)
  | readLock arc =>
      obtain ⟨block, _, ran⟩ := Option.bind_eq_some_iff.mp ran
      split at ran
      · cases ran
        exact .same _ rfl rfl
      · cases ran
        exact .same _ rfl rfl
      · split at ran <;> cases ran <;> exact .same _ rfl rfl
  | startLock arc =>
      obtain ⟨block, _, ran⟩ := Option.bind_eq_some_iff.mp ran
      cases ran
      exact .same _ rfl rfl
  | finWrite session arc =>
      obtain ⟨block, _, ran⟩ := Option.bind_eq_some_iff.mp ran
      split at ran <;> cases ran <;> exact .same _ rfl rfl
  | finEvict =>
      simp only [run, runFinEvict] at ran
      split at ran
      · obtain ⟨oldest, _, ran⟩ := Option.bind_eq_some_iff.mp ran
        split at ran <;> cases ran
        exact .same _ rfl rfl
      · cases ran
        exact .same _ rfl rfl
  | finRelease =>
      cases ran
      exact .released (.inl rfl)
  | finFail message =>
      cases ran
      exact .released (.inr ⟨message, rfl⟩)
  | abortSession =>
      cases ran
      exact .aborted rfl
  | _ =>
      cases ran
      exact .same _ rfl rfl

theorem dispatch_taken {packet : Packet} {stage : Stage}
    (sent : dispatch config packet = .next stage) : stage.taken = false := by
  unfold dispatch at sent
  split at sent
  · obtain ⟨_, _, rfl⟩ := ofResult_next sent
    rfl
  · split at sent
    · obtain ⟨_, _, rfl⟩ := ofResult_next sent
      rfl
    · cases sent
  · cases sent
    rfl
  · cases sent
    rfl
  · cases sent
    rfl
  · cases sent

theorem run_taken {stage : Stage}
    (ran : handler.run config blake3 source now instant choice shared =
      some (next, .next stage)) (taken : stage.taken = true) :
    handler.stage.taken = true ∨
      handler.stage = .finSession ∧ ∃ session,
        shared.udp.incoming.lookup (handler.packet.key source) =
            some session ∧
          session.receivedCount = session.packetCount := by
  obtain ⟨packet, rest, here⟩ := handler
  cases here with
  | finBlock | finWrite | finInsert | finEvict | finRelease | finFail =>
      exact .inl rfl
  | enter =>
      simp only [run, Option.some.injEq, Prod.mk.injEq] at ran
      rw [dispatch_taken ran.2] at taken
      cases taken
  | readBlock | startBlock =>
      simp only [run, Option.some.injEq, Prod.mk.injEq] at ran
      obtain ⟨_, _, rfl⟩ := ofResult_next ran.2
      cases taken
  | readLock arc =>
      obtain ⟨block, _, ran⟩ := Option.bind_eq_some_iff.mp ran
      split at ran
      · cases ran
      · cases ran
      · split at ran <;> cases ran
  | startLock arc =>
      obtain ⟨block, _, ran⟩ := Option.bind_eq_some_iff.mp ran
      simp only [Option.some.injEq, Prod.mk.injEq] at ran
      obtain ⟨_, _, rfl⟩ := ofResult_next ran.2
      cases taken
  | startSession =>
      simp only [run, runStartSession, Option.some.injEq,
        Prod.mk.injEq] at ran
      replace ran := ran.2
      split at ran <;> cases ran
  | dataSession =>
      simp only [run, runDataSession] at ran
      split at ran
      · cases ran
        cases taken
      · simp only [Option.some.injEq, Prod.mk.injEq] at ran
        replace ran := ran.2
        split at ran <;> cases ran
  | batchSession =>
      simp only [run, runBatchSession] at ran
      split at ran
      · cases ran
        cases taken
      · simp only [Option.some.injEq, Prod.mk.injEq] at ran
        replace ran := ran.2
        split at ran <;> cases ran
  | finSession =>
      simp only [run, runFinSession] at ran
      split at ran
      · cases ran
        cases taken
      · rename_i session found
        split at ran
        · cases ran
        · rename_i full
          exact .inr ⟨rfl, session, found, not_not.mp full⟩
  | abortSession => cases ran
  | dataCompleted | batchCompleted | finCompleted =>
      simp only [run, Option.some.injEq, Prod.mk.injEq] at ran
      replace ran := ran.2
      split at ran <;> cases ran
      cases taken
  | dataFinishing | batchFinishing | finFinishing =>
      simp only [run, Option.some.injEq, Prod.mk.injEq] at ran
      replace ran := ran.2
      split at ran <;> cases ran

end Handler

end TrainPool
