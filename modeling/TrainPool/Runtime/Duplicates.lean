import TrainPool.Runtime.Completion
import TrainPool.Runtime.Write

namespace TrainPool

open Execution

/-! Delayed duplicates of a write whose completion is recorded, at a receiver
that handles one datagram at a time. -/

namespace Daemon

/-- No handler is at work. -/
def Idle (daemon : Daemon) : Prop :=
  ∀ task ∈ daemon.tasks, task.handlers = []

instance (daemon : Daemon) : Decidable daemon.Idle :=
  inferInstanceAs (Decidable (∀ task ∈ daemon.tasks, _))

def Alone (daemon : Daemon) : Prop :=
  ∃ index : Nat, ∀ (place : Nat) (task : Task),
    daemon.tasks[place]? = some task → task.handlers ≠ [] →
      place = index ∧ ∃ handler, task.handlers = [handler]

theorem Idle.alone {daemon : Daemon} (idle : daemon.Idle) :
    daemon.Alone := by
  refine ⟨0, ?_⟩
  intro place task found busy
  exact absurd (idle task (List.mem_of_getElem? found)) busy

theorem Idle.not_handles {daemon : Daemon} (idle : daemon.Idle)
    {source : SocketAddr} {handler : Handler} :
    ¬daemon.Handles source handler := by
  intro given
  obtain ⟨task, member, _, listed⟩ := given
  rw [idle task member] at listed
  cases listed

theorem udpDatagrams_single {datagrams : List Datagram}
    (single : datagrams.length = 1) :
    udpDatagrams datagrams = [] ∨
      ∃ packet, datagrams = [.ok packet] ∧
        udpDatagrams datagrams = [{ packet := packet }] := by
  obtain ⟨datagram, rfl⟩ := List.length_eq_one_iff.mp single
  cases datagram with
  | error text => exact .inl rfl
  | ok packet => exact .inr ⟨packet, rfl, by simp [udpDatagrams]⟩

theorem Alone.receive {daemon : Daemon} {source : SocketAddr}
    {datagrams : List Datagram} (idle : daemon.Idle)
    (single : datagrams.length = 1) :
    Alone { daemon with
      tasks := daemon.tasks ++ [⟨source, udpDatagrams datagrams⟩] } := by
  refine ⟨daemon.tasks.length, ?_⟩
  intro place task found busy
  rw [List.getElem?_append] at found
  split at found
  · exact absurd (idle task (List.mem_of_getElem? found)) busy
  · have here : place - daemon.tasks.length = 0 := by
      have bound := (List.getElem?_eq_some_iff.mp found).1
      simpa using bound
    rw [here] at found
    cases found
    refine ⟨by omega, ?_⟩
    rcases udpDatagrams_single single with none | ⟨packet, _, one⟩
    · exact absurd none busy
    · exact ⟨_, one⟩

variable {config : Config} {blake3 : List UInt8 → Digest}

theorem Alone.handle {daemon next : Daemon} {index : Nat} {choice : Choice}
    (alone : daemon.Alone)
    (handled : daemon.handle config blake3 index choice = some next) :
    next.Alone ∧ ∃ source handler outcome,
      daemon.Handles source handler ∧
        handler.run config blake3 source daemon.now daemon.instant choice
          daemon.shared = some (next.shared, outcome) ∧
        (∀ origin other, next.Handles origin other → origin = source ∧
          ∃ stage, outcome = .next stage ∧
            other = { handler with stage := stage }) ∧
        next.sent = daemon.sent ++
          (outcome.replies handler.packet).map (source, ·) := by
  obtain ⟨source, handler, rest, shared, outcome, found, ran, rfl⟩ :=
    handle_eq_some.mp handled
  obtain ⟨busy, only⟩ := alone
  obtain ⟨rfl, _, single⟩ := only index _ found (by simp)
  obtain ⟨rfl, rfl⟩ := List.cons.inj single
  have left : ∀ place task,
      (daemon.tasks.set index
        ⟨source, outcome.remaining handler []⟩)[place]? = some task →
      task.handlers ≠ [] → place = index ∧
        task = ⟨source, outcome.remaining handler []⟩ := by
    intro place task stored working
    rw [List.getElem?_set] at stored
    split at stored
    · rename_i same
      split at stored
      · cases stored
        exact ⟨same.symm, rfl⟩
      · cases stored
    · rename_i other
      exact absurd (only place task stored working).1.symm other
  have remaining : outcome.remaining handler [] = [] ∨
      ∃ stage, outcome = .next stage ∧
        outcome.remaining handler [] = [{ handler with stage := stage }] := by
    cases outcome with
    | next stage => exact .inr ⟨stage, rfl, rfl⟩
    | answer | respond | fail | panic => exact .inl rfl
  refine ⟨⟨index, ?_⟩, source, handler, outcome,
    ⟨_, List.mem_of_getElem? found, rfl, by simp⟩, ran, ?_, rfl⟩
  · intro place task stored working
    obtain ⟨rfl, rfl⟩ := left place task stored working
    refine ⟨rfl, ?_⟩
    rcases remaining with none | ⟨stage, _, one⟩
    · exact absurd none working
    · exact ⟨_, one⟩
  · intro origin other given
    obtain ⟨task, member, same, listed⟩ := given
    obtain ⟨place, stored⟩ := List.getElem?_of_mem member
    obtain ⟨_, rfl⟩ := left place task stored (List.ne_nil_of_mem listed)
    refine ⟨same.symm, ?_⟩
    rcases remaining with none | ⟨stage, goes, one⟩
    · rw [none] at listed
      cases listed
    · rw [one] at listed
      exact ⟨stage, goes, List.mem_singleton.mp listed⟩

end Daemon

namespace Write

variable (write : Write)

def key : SessionKey :=
  ⟨write.address, write.request.transferId, write.request.handle.id⟩

/-- The receiver has recorded the completion of the transfer. -/
def Done (state : WriteState) : Prop :=
  state.daemon.Completed write.key write.request.offset

instance (state : WriteState) : Decidable (write.Done state) :=
  inferInstanceAs (Decidable (_ = true))

/-- Datagrams arrive one by one, each when the one before it is dealt with, and
those of the transfer are datagrams that its sender has sent. -/
def OneByOne (state : WriteState) : WriteEvent → Prop
  | .daemon (.receive source datagrams) =>
      datagrams.length = 1 ∧ state.daemon.Idle ∧
        (source = write.address → ∀ packet ∈ validPackets datagrams,
          packet.transferId = write.request.transferId →
            packet ∈ state.emitted)
  | _ => True

instance (state : WriteState) :
    (event : WriteEvent) → Decidable (write.OneByOne state event)
  | .daemon (.receive _ _) => inferInstanceAs (Decidable
      (_ ∧ _ ∧ (_ → ∀ packet ∈ _, _ → _)))
  | .daemon (.handle _ _) | .daemon (.request _) | .daemon (.responded _)
  | .daemon (.clock _ _) | .sender _ => isTrue trivial

def StartArrives : WriteEvent → Prop
  | .daemon (.receive source datagrams) => source = write.address ∧
      ∃ packet ∈ validPackets datagrams,
        packet.transferId = write.request.transferId ∧ packet.kind = .start
  | _ => False

instance : (event : WriteEvent) → Decidable (write.StartArrives event)
  | .daemon (.receive _ _) => inferInstanceAs (Decidable
      (_ ∧ ∃ packet ∈ _, _ ∧ _))
  | .daemon (.handle _ _) | .daemon (.request _) | .daemon (.responded _)
  | .daemon (.clock _ _) | .sender _ => isFalse id

/-- Once the completion is recorded, no START arrives. -/
def Punctual (state : WriteState) (event : WriteEvent) : Prop :=
  write.OneByOne state event ∧ (write.Done state → ¬write.StartArrives event)

instance (state : WriteState) (event : WriteEvent) :
    Decidable (write.Punctual state event) :=
  inferInstanceAs (Decidable (_ ∧ (_ → _)))

/-- An answer to the sender that reports an error. -/
def Refuses (reply : SocketAddr × Packet) : Prop :=
  reply.1 = write.address ∧
    reply.2.transferId = write.request.transferId ∧ reply.2.kind = .error

instance (reply : SocketAddr × Packet) : Decidable (write.Refuses reply) :=
  inferInstanceAs (Decidable (_ ∧ _ ∧ _))

/-- `send_payload` has reported the failure that an error announced. -/
def Blames (state : WriteState) : Prop :=
  match state.phase with
  | .returned (.error (.remote _)) => True
  | _ => False

instance (state : WriteState) : Decidable (Blames state) := by
  unfold Blames
  split <;> infer_instance

def Level (sequence : Nat) : Prop :=
  sequence * write.receiver.udpPayloadBytes =
    sequence * write.sender.udpPayloadBytes

def AllLevel : Prop :=
  ∀ sequence, sequence < write.request.packetCount write.sender →
    write.Level sequence

/-- A session of the transfer has only received what the sender cut as the
receiver does. -/
structure Fitted (session : IncomingSession) : Prop where
  size : session.payloadSize = write.receiver.udpPayloadBytes
  level : ∀ sequence : Nat, session.received[sequence]? = some true →
    write.Level sequence

end Write

def Stage.single : Stage → Bool
  | .batchCompleted | .batchSession | .batchFinishing => false
  | _ => true

/-- FIN has taken the session and not yet recorded its completion. -/
def Stage.taking : Stage → Bool
  | .finBlock _ | .finWrite _ _ | .finInsert => true
  | _ => false

def Stage.settled : Stage → Bool
  | .enter | .dataCompleted | .finCompleted | .finEvict | .finRelease
  | .abortSession => true
  | _ => false

namespace Write

section Handlers

variable {write : Write} {now instant : Nat} {choice : Choice}
  {shared next : Shared} {outcome : Outcome} {handler : Handler}

theorem Sends.key {packet : Packet} (sends : write.Sends packet) :
    packet.key write.address = write.key := by
  cases sends <;> rfl

theorem Fitted.touch {session : IncomingSession}
    (fitted : write.Fitted session) (instant : Nat) :
    write.Fitted { session with lastActivity := instant } :=
  ⟨fitted.size, fitted.level⟩

theorem Fitted.store {session : IncomingSession} {sequence : Nat}
    (fitted : write.Fitted session)
    (base : session.baseOffset = write.request.offset)
    (passed : session.checkRange
      (write.request.dataPacket write.sender sequence) = .ok ()) :
    write.Fitted (session.store
      (write.request.dataPacket write.sender sequence)) := by
  obtain ⟨_, offset, _⟩ := IncomingSession.checkRange_ok.mp passed
  have level : write.Level sequence := by
    simp only [SendPayload.dataPacket, base, fitted.size] at offset
    exact (Nat.add_left_cancel offset).symm
  refine ⟨fitted.size, ?_⟩
  intro other received
  simp only [IncomingSession.store, SendPayload.dataPacket] at received
  by_cases same : sequence = other
  · exact same ▸ level
  · rw [List.getElem?_set_ne same] at received
    exact fitted.level other received

theorem Fitted.receiveData {session : IncomingSession}
    {sequence window : Nat} (fitted : write.Fitted session)
    (base : session.baseOffset = write.request.offset) :
    write.Fitted (session.receiveData instant window
      (write.request.dataPacket write.sender sequence)).1 := by
  unfold IncomingSession.receiveData
  split
  · exact fitted
  · have touched := fitted.touch instant
    simp only
    split
    · exact touched
    · rename_i passed
      simp only
      split
      · exact touched
      · exact touched.store base passed

theorem Fitted.complete {session : IncomingSession}
    (fitted : write.Fitted session) (genuine : write.Genuine session)
    (full : session.receivedCount = session.packetCount) :
    write.AllLevel := by
  have assembles := genuine.receives.assembles
  have all : ∀ received ∈ session.received, true = received := by
    rw [← List.count_eq_length, ← assembles.counted, full, assembles.slots]
  intro sequence inside
  have slot : sequence < session.received.length := by
    rw [assembles.slots, assembles.count]
    exact inside
  apply fitted.level sequence
  rw [List.getElem?_eq_getElem slot, all _ (List.getElem_mem slot)]

variable (write) in
structure Proceeds (handler : Handler) (shared next : Shared)
    (outcome : Outcome) : Prop where
  fitted : ∀ session,
    next.udp.incoming.lookup write.key = some session → write.Fitted session
  stages : ∀ stage, outcome = .next stage → stage.single = true ∧
    (stage.taking = true →
      next.udp.incoming.lookup write.key = none ∧ write.AllLevel)
  recorded :
    (next.udp.completed.lookup
      (write.key, write.request.offset)).isSome →
    (shared.udp.completed.lookup
      (write.key, write.request.offset)).isSome ∨
      outcome = .next .finEvict ∧
        next.udp.incoming.lookup write.key = none ∧ write.AllLevel

theorem Proceeds.idle
    (fitted : ∀ session,
      shared.udp.incoming.lookup write.key = some session →
        write.Fitted session)
    (incoming : ∀ session,
      next.udp.incoming.lookup write.key = some session →
        shared.udp.incoming.lookup write.key = some session)
    (completed : ∀ entry time, next.udp.completed.lookup entry = some time →
      shared.udp.completed.lookup entry = some time)
    (stages : ∀ stage, outcome = .next stage →
      stage.single = true ∧ stage.taking = false) :
    write.Proceeds handler shared next outcome where
  fitted := fun session stored => fitted session (incoming session stored)
  stages := fun stage same => ⟨(stages stage same).1, by
    simp [(stages stage same).2]⟩
  recorded := by
    intro found
    obtain ⟨time, found⟩ := Option.isSome_iff_exists.mp found
    exact .inl (by simp [completed _ time found])

theorem startSession_fitted {reserved : Bool} {packet : Packet}
    {udp : UdpServerState}
    (fitted : ∀ session, udp.incoming.lookup write.key = some session →
      write.Fitted session)
    {session : IncomingSession}
    (stored : (udp.startSession write.receiver instant reserved write.address
      packet).1.incoming.lookup write.key = some session) :
    write.Fitted session := by
  have expired : ∀ session,
      (udp.expireIncoming write.receiver instant).incoming.lookup write.key =
        some session → write.Fitted session :=
    fun session stored => fitted session (Table.lookup_retain.mp stored).1
  unfold UdpServerState.startSession at stored
  simp only at stored
  split at stored
  · exact expired session stored
  · split at stored
    · exact expired session stored
    · split at stored
      · exact expired session stored
      · rw [Table.lookup_insert_eq] at stored
        split at stored
        · cases stored
          refine ⟨rfl, ?_⟩
          intro sequence received
          simp [List.getElem?_replicate] at received
        · exact expired session stored

theorem dispatch_next {packet : Packet} {stage : Stage}
    (same : Handler.dispatch write.receiver packet = .next stage) :
    stage.single = true ∧ stage.taking = false := by
  unfold Handler.dispatch at same
  split at same
  · obtain ⟨_, _, rfl⟩ := ofResult_next same
    exact ⟨rfl, rfl⟩
  · split at same
    · obtain ⟨_, _, rfl⟩ := ofResult_next same
      exact ⟨rfl, rfl⟩
    · cases same
  · cases same
    exact ⟨rfl, rfl⟩
  · cases same
    exact ⟨rfl, rfl⟩
  · cases same
    exact ⟨rfl, rfl⟩
  · cases same

section Stages

variable (fitted : ∀ session,
  shared.udp.incoming.lookup write.key = some session → write.Fitted session)

include fitted

theorem Proceeds.still
    (stages : ∀ stage, outcome = .next stage →
      stage.single = true ∧ stage.taking = false) :
    write.Proceeds handler shared shared outcome :=
  .idle fitted (fun _ stored => stored) (fun _ _ found => found) stages

theorem Proceeds.goesOn {stage : Stage} (single : stage.single = true)
    (settled : stage.taking = false) :
    write.Proceeds handler shared shared (.next stage) := by
  refine .still fitted ?_
  intro other goes
  cases goes
  exact ⟨single, settled⟩

theorem Proceeds.ofResult {α : Type} {stage : α → Stage} {result : Result α}
    (single : ∀ value, (stage value).single = true)
    (settled : ∀ value, (stage value).taking = false) :
    write.Proceeds handler shared shared (.ofResult stage result) := by
  refine .still fitted ?_
  intro other goes
  obtain ⟨value, _, rfl⟩ := ofResult_next goes
  exact ⟨single value, settled value⟩

theorem readLock_proceeds {packet : Packet} {arc : Arc}
    (ran : Handler.runReadLock write.receiver write.address now packet arc
      shared = some (next, outcome)) :
    write.Proceeds handler shared next outcome := by
  obtain ⟨block, _, ran⟩ := Option.bind_eq_some_iff.mp ran
  split at ran
  · cases ran
    exact .still fitted nofun
  · cases ran
    exact .still fitted nofun
  · split at ran <;> cases ran
    · exact .idle fitted (fun _ stored => stored) (fun _ _ found => found)
        nofun
    · exact .still fitted nofun

theorem startSession_proceeds {packet : Packet} :
    write.Proceeds handler shared
      (Handler.runStartSession write.receiver write.address instant choice
        packet shared).1
      (Handler.runStartSession write.receiver write.address instant choice
        packet shared).2 := by
  unfold Handler.runStartSession
  refine ⟨fun _ stored => startSession_fitted fitted stored, ?_, ?_⟩
  · intro stage goes
    simp only at goes
    split at goes <;> cases goes
  · intro found
    rw [startSession_completed] at found
    exact .inl found

theorem dataSession_proceeds {sequence : Nat}
    (sessions : write.SessionsGenuine shared.udp.incoming)
    (ran : Handler.runDataSession write.receiver write.address instant
      (write.request.dataPacket write.sender sequence) shared =
        (next, outcome)) :
    write.Proceeds handler shared next outcome := by
  have same : (write.request.dataPacket write.sender sequence).key
      write.address = write.key := rfl
  unfold Handler.runDataSession at ran
  rw [same] at ran
  split at ran
  · cases ran
    exact .goesOn fitted rfl rfl
  · rename_i session stored
    obtain ⟨rfl, rfl⟩ := Prod.ext_iff.mp ran
    have genuine := sessions _ session ⟨rfl, rfl⟩ stored
    refine ⟨?_, ?_, .inl⟩
    · intro later found
      simp only [UdpServerState.setSession, Table.lookup_insert_eq,
        if_true, Option.some.injEq] at found
      exact found ▸ (fitted session stored).receiveData
        genuine.receives.base
    · intro stage goes
      simp only at goes
      split at goes <;> cases goes

theorem finSession_proceeds {packet : Packet}
    (same : packet.key write.address = write.key)
    (sessions : write.SessionsGenuine shared.udp.incoming)
    (ran : Handler.runFinSession write.receiver write.blake3 write.address
      packet shared = (next, outcome)) :
    write.Proceeds handler shared next outcome := by
  unfold Handler.runFinSession at ran
  rw [same] at ran
  split at ran
  · cases ran
    exact .goesOn fitted rfl rfl
  · rename_i session stored
    split at ran
    · cases ran
      exact .still fitted nofun
    · rename_i full
      split at ran
      · cases ran
        exact .still fitted nofun
      · split at ran <;> cases ran
        · exact .still fitted nofun
        · have gone : (shared.udp.takeSession write.key).incoming.lookup
              write.key = none := by
            simp [UdpServerState.takeSession]
          have level := (fitted session stored).complete
            (sessions _ session ⟨rfl, rfl⟩ stored) (not_not.mp full)
          refine ⟨?_, ?_, .inl⟩
          · intro later found
            rw [gone] at found
            cases found
          · intro stage goes
            cases goes
            exact ⟨rfl, fun _ => ⟨gone, level⟩⟩

theorem finWrite_proceeds {packet : Packet} {session : IncomingSession}
    {arc : Arc}
    (taken : shared.udp.incoming.lookup write.key = none ∧ write.AllLevel)
    (ran : Handler.runFinWrite now packet session arc shared =
      some (next, outcome)) :
    write.Proceeds handler shared next outcome := by
  obtain ⟨block, _, ran⟩ := Option.bind_eq_some_iff.mp ran
  split at ran <;> cases ran
  · refine ⟨fitted, ?_, .inl⟩
    intro stage goes
    cases goes
    exact ⟨rfl, fun _ => taken⟩
  · exact .goesOn fitted rfl rfl
  · exact .still fitted nofun

theorem finEvict_proceeds
    (ran : Handler.runFinEvict write.receiver choice shared =
      some (next, outcome)) :
    write.Proceeds handler shared next outcome := by
  unfold Handler.runFinEvict at ran
  split at ran
  · obtain ⟨oldest, _, ran⟩ := Option.bind_eq_some_iff.mp ran
    split at ran <;> cases ran
    refine .idle fitted (fun _ stored => stored) ?_ ?_
    · intro entry time found
      rw [Table.lookup_erase_eq] at found
      split at found
      · cases found
      · exact found
    · intro stage goes
      cases goes
      exact ⟨rfl, rfl⟩
  · cases ran
    exact .goesOn fitted rfl rfl

end Stages

theorem run_proceeds
    (carries : write.Carries shared.ram handler)
    (sends : write.Sends handler.packet)
    (single : handler.stage.single = true)
    (sessions : write.SessionsGenuine shared.udp.incoming)
    (fitted : ∀ session,
      shared.udp.incoming.lookup write.key = some session →
        write.Fitted session)
    (taking : handler.stage.taking = true →
      shared.udp.incoming.lookup write.key = none ∧ write.AllLevel)
    (ran : handler.run write.receiver write.blake3 write.address now instant
      choice shared = some (next, outcome)) :
    write.Proceeds handler shared next outcome := by
  have same := sends.key
  obtain ⟨packet, rest, stage⟩ := handler
  change packet.key write.address = write.key at same
  cases stage with
  | enter =>
      cases ran
      exact .idle fitted (fun _ stored => stored)
        (fun _ _ found => (Table.lookup_retain.mp found).1)
        fun stage goes => dispatch_next goes
  | readBlock | startBlock =>
      cases ran
      exact .ofResult fitted (fun _ => rfl) fun _ => rfl
  | readLock arc => exact readLock_proceeds fitted ran
  | startLock arc =>
      obtain ⟨block, _, ran⟩ := Option.bind_eq_some_iff.mp ran
      cases ran
      exact .ofResult fitted (fun _ => rfl) fun _ => rfl
  | startSession =>
      obtain ⟨rfl, rfl⟩ := Prod.ext_iff.mp (Option.some.inj ran)
      exact startSession_proceeds fitted
  | dataCompleted =>
      cases ran
      split
      · exact .still fitted nofun
      · exact .goesOn fitted rfl rfl
  | dataSession =>
      obtain ⟨sequence, rfl⟩ := carries
      exact dataSession_proceeds fitted sessions (Option.some.inj ran)
  | dataFinishing | finFinishing =>
      cases ran
      split
      · exact .still fitted nofun
      · exact .still fitted nofun
  | batchCompleted | batchSession | batchFinishing => cases single
  | finCompleted =>
      cases ran
      split
      · exact .still fitted nofun
      · exact .goesOn fitted rfl rfl
  | finSession =>
      exact finSession_proceeds fitted same sessions (Option.some.inj ran)
  | finBlock session =>
      cases ran
      refine ⟨fitted, ?_, .inl⟩
      intro stage goes
      split at goes <;> cases goes
      · exact ⟨rfl, fun _ => taking rfl⟩
      · exact ⟨rfl, nofun⟩
  | finWrite session arc => exact finWrite_proceeds fitted (taking rfl) ran
  | finInsert =>
      cases ran
      refine ⟨fitted, ?_, fun _ => .inr ⟨rfl, taking rfl⟩⟩
      intro stage goes
      cases goes
      exact ⟨rfl, nofun⟩
  | finEvict => exact finEvict_proceeds fitted ran
  | finRelease | finFail message =>
      cases ran
      exact .idle fitted (fun _ stored => stored) (fun _ _ found => found)
        nofun
  | abortSession =>
      cases ran
      refine .idle fitted ?_ (fun _ _ found => found) nofun
      intro session stored
      simp only [Table.lookup_erase_eq] at stored
      split at stored
      · cases stored
      · exact stored

/-- A handler of the transfer once the completion is recorded: it answers with
acknowledgements and completions only. -/
theorem run_settled
    (carries : write.Carries shared.ram handler)
    (sends : write.Sends handler.packet)
    (bounded : handler.packet.kind = .data →
      handler.packet.sequenceId < write.request.packetCount write.sender)
    (settled : handler.stage.settled = true)
    (started : handler.packet.kind ≠ .start)
    (done : (shared.udp.completed.lookup
      (write.key, write.request.offset)).isSome)
    (gone : shared.udp.incoming.lookup write.key = none)
    (level : write.AllLevel)
    (ran : handler.run write.receiver write.blake3 write.address now instant
      choice shared = some (next, outcome)) :
    next.udp.incoming.lookup write.key = none ∧
      (∀ stage, outcome = .next stage → stage.settled = true) ∧
      ∀ reply ∈ outcome.replies handler.packet, reply.kind ≠ .error := by
  have same := sends.key
  obtain ⟨packet, rest, stage⟩ := handler
  change packet.key write.address = write.key at same
  cases stage with
  | enter =>
      cases ran
      refine ⟨gone, ?_⟩
      cases sends with
      | start => exact absurd rfl started
      | data sequence | fin | abort =>
          refine ⟨?_, (by intros; contradiction)⟩
          intro stage goes
          cases goes
          rfl
  | dataCompleted =>
      obtain ⟨sequence, rfl⟩ := carries
      have offset : (write.request.dataPacket write.sender
          sequence).offset = write.request.offset +
            (write.request.dataPacket write.sender sequence).sequenceId *
              write.receiver.udpPayloadBytes := by
        simp only [SendPayload.dataPacket]
        rw [level sequence (bounded rfl)]
      simp only [Handler.run, isCompleted_of_offset same offset,
        done, if_true] at ran
      cases ran
      exact ⟨gone, (by intros; contradiction), by simp [Outcome.replies]⟩
  | finCompleted =>
      obtain rfl : packet = _ := carries
      simp only [Handler.run] at ran
      rw [same, show (write.request.finPacket write.sender
        write.blake3).offset = write.request.offset from rfl,
        if_pos done] at ran
      cases ran
      exact ⟨gone, (by intros; contradiction), by simp [Outcome.replies]⟩
  | finEvict =>
      simp only [Handler.run, Handler.runFinEvict] at ran
      split at ran
      · obtain ⟨oldest, _, ran⟩ := Option.bind_eq_some_iff.mp ran
        split at ran <;> cases ran
        refine ⟨gone, ?_, by simp [Outcome.replies]⟩
        intro stage goes
        cases goes
        rfl
      · cases ran
        refine ⟨gone, ?_, by simp [Outcome.replies]⟩
        intro stage goes
        cases goes
        rfl
  | finRelease =>
      cases ran
      exact ⟨gone, (by intros; contradiction), by simp [Outcome.replies]⟩
  | abortSession =>
      cases ran
      refine ⟨?_, (by intros; contradiction), by simp [Outcome.replies]⟩
      simp [Table.lookup_erase_eq, gone]
  | _ => cases settled

end Handlers

section Runs

variable {write : Write} {state next : WriteState} {event : WriteEvent}

variable (write) in
structure Orderly (state : WriteState) : Prop where
  invariant : write.Invariant state
  bounded : SendPayload.Bounded write.sender write.request state.phase
  sequences : ∀ packet ∈ state.emitted, packet.kind = .data →
    packet.sequenceId < write.request.packetCount write.sender
  alone : state.daemon.Alone
  sessions : ∀ session,
    state.daemon.shared.udp.incoming.lookup write.key = some session →
      write.Fitted session
  handlers : ∀ handler, state.daemon.Handles write.address handler →
    handler.packet.transferId = write.request.transferId →
      handler.packet ∈ state.emitted ∧ handler.stage.single = true ∧
        (handler.stage.taking = true →
          state.daemon.shared.udp.incoming.lookup write.key = none ∧
            write.AllLevel)
  done : write.Done state →
    state.daemon.shared.udp.incoming.lookup write.key = none ∧
      write.AllLevel ∧
      ∀ handler, state.daemon.Handles write.address handler →
        handler.packet.transferId = write.request.transferId →
          handler.stage.settled = true ∧
            handler.packet.kind ≠ .start

theorem Orderly.send (orderly : write.Orderly state) {sent : SendEvent}
    {phase : Phase} {packets : List Packet}
    (stepped : write.request.step write.sender write.blake3
      write.destination state.phase sent = some (phase, packets)) :
    write.Orderly { state with
      phase := phase, emitted := state.emitted ++ packets } := by
  obtain ⟨⟨emitted, coherent, sound, genuine, carries⟩, bounded, sequences,
    alone, sessions, handlers, done⟩ := orderly
  refine ⟨⟨?_, coherent, sound, genuine, carries⟩,
    SendPayload.step_bounded bounded stepped, ?_, alone, sessions, ?_, done⟩
  · intro packet member
    rcases List.mem_append.mp member with member | member
    · exact emitted packet member
    · exact SendPayload.step_sends stepped packet member
  · intro packet member data
    rcases List.mem_append.mp member with member | member
    · exact sequences packet member data
    · exact SendPayload.step_sequences bounded stepped member data
  · intro handler handles transfer
    obtain ⟨member, rest⟩ := handlers handler handles transfer
    exact ⟨List.mem_append_left _ member, rest⟩

theorem Orderly.sends (orderly : write.Orderly state) {handler : Handler}
    (handles : state.daemon.Handles write.address handler)
    (transfer : handler.packet.transferId = write.request.transferId) :
    write.Sends handler.packet :=
  orderly.invariant.emitted _ (orderly.handlers handler handles transfer).1

theorem Orderly.receive (orderly : write.Orderly state)
    {source : SocketAddr} {datagrams : List Datagram}
    (punctual : write.Punctual state (.daemon (.receive source datagrams)))
    (invariant : write.Invariant { state with daemon := { state.daemon with
      tasks := state.daemon.tasks ++ [⟨source, udpDatagrams datagrams⟩] } }) :
    write.Orderly { state with daemon := { state.daemon with
      tasks := state.daemon.tasks ++ [⟨source, udpDatagrams datagrams⟩] } }
    := by
  obtain ⟨⟨single, idle, own⟩, starts⟩ := punctual
  -- Nobody was at work, so that every handler is the new one.
  have new : ∀ handler, Daemon.Handles { state.daemon with
      tasks := state.daemon.tasks ++ [⟨source, udpDatagrams datagrams⟩] }
        write.address handler →
      source = write.address ∧ datagrams = [.ok handler.packet] ∧
        handler.stage = .enter := by
    intro handler handles
    rcases Daemon.receive_handles handles with old | ⟨rfl, member⟩
    · exact absurd old idle.not_handles
    · rcases Daemon.udpDatagrams_single single with
        none | ⟨packet, arrived, one⟩
      · rw [none] at member
        cases member
      · rw [one] at member
        obtain rfl := List.mem_singleton.mp member
        exact ⟨rfl, arrived, rfl⟩
  refine ⟨invariant, orderly.bounded, orderly.sequences,
    Daemon.Alone.receive idle single, orderly.sessions, ?_, ?_⟩
  · intro handler handles transfer
    obtain ⟨rfl, rfl, enters⟩ := new handler handles
    refine ⟨own rfl handler.packet (by simp) transfer, ?_⟩
    simp [enters, Stage.single, Stage.taking]
  · intro done
    obtain ⟨gone, level, _⟩ := orderly.done done
    refine ⟨gone, level, ?_⟩
    intro handler handles transfer
    obtain ⟨rfl, rfl, enters⟩ := new handler handles
    refine ⟨by simp [enters, Stage.settled], ?_⟩
    intro start
    exact starts done ⟨rfl, handler.packet, by simp, transfer, start⟩

theorem Orderly.other (orderly : write.Orderly state) {daemon : Daemon}
    (invariant : write.Invariant { state with daemon := daemon })
    (tasks : daemon.tasks = state.daemon.tasks)
    (incoming : daemon.shared.udp.incoming =
      state.daemon.shared.udp.incoming)
    (completed : daemon.shared.udp.completed =
      state.daemon.shared.udp.completed) :
    write.Orderly { state with daemon := daemon } := by
  refine ⟨invariant, orderly.bounded, orderly.sequences, ?_, ?_, ?_, ?_⟩
  · obtain ⟨index, only⟩ := orderly.alone
    exact ⟨index, tasks ▸ only⟩
  · exact incoming ▸ orderly.sessions
  · intro handler handles
    exact incoming ▸ orderly.handlers handler (handles.of_tasks tasks)
  · intro done
    obtain ⟨gone, level, settled⟩ := orderly.done (by
      simpa [Done, Daemon.Completed, completed] using done)
    refine ⟨incoming ▸ gone, level, ?_⟩
    intro handler handles
    exact settled handler (handles.of_tasks tasks)

theorem Orderly.own (orderly : write.Orderly state) {daemon : Daemon}
    {handler : Handler} {outcome : Outcome} {choice : Choice}
    (invariant : write.Invariant { state with daemon := daemon })
    (alone : daemon.Alone)
    (running : state.daemon.Handles write.address handler)
    (transfer : handler.packet.transferId = write.request.transferId)
    (ran : handler.run write.receiver write.blake3 write.address
      state.daemon.now state.daemon.instant choice state.daemon.shared =
        some (daemon.shared, outcome))
    (others : ∀ origin other, daemon.Handles origin other →
      origin = write.address ∧ ∃ stage, outcome = .next stage ∧
        other = { handler with stage := stage }) :
    write.Orderly { state with daemon := daemon } := by
  obtain ⟨member, single, taking⟩ :=
    orderly.handlers handler running transfer
  have carries := orderly.invariant.handlers handler running transfer
  have sends := orderly.sends running transfer
  have proceeds := run_proceeds carries sends single
    orderly.invariant.sessions orderly.sessions taking ran
  refine ⟨invariant, orderly.bounded, orderly.sequences, alone,
    proceeds.fitted, ?_, ?_⟩
  · intro other handles _
    obtain ⟨_, stage, goes, rfl⟩ := others _ other handles
    exact ⟨member, proceeds.stages stage goes⟩
  · intro done
    rcases proceeds.recorded done with before | ⟨evicts, gone, level⟩
    · obtain ⟨gone, level, settled⟩ := orderly.done before
      obtain ⟨stage, started⟩ := settled handler running transfer
      obtain ⟨gone, stages, _⟩ := run_settled carries sends
        (orderly.sequences _ member) stage started before gone level ran
      refine ⟨gone, level, ?_⟩
      intro other handles _
      obtain ⟨_, stage, goes, rfl⟩ := others _ other handles
      exact ⟨stages stage goes, started⟩
    · refine ⟨gone, level, ?_⟩
      intro other handles transfer
      have fin := invariant.handlers other handles transfer
      obtain ⟨_, stage, goes, rfl⟩ := others _ other handles
      cases evicts.symm.trans goes
      exact ⟨rfl, (congrArg Packet.kind fin).trans_ne nofun⟩

theorem Orderly.foreign (orderly : write.Orderly state) {daemon : Daemon}
    {source : SocketAddr} {handler : Handler} {outcome : Outcome}
    {choice : Choice}
    (invariant : write.Invariant { state with daemon := daemon })
    (alone : daemon.Alone)
    (foreign : ¬(source = write.address ∧
      handler.packet.transferId = write.request.transferId))
    (ran : handler.run write.receiver write.blake3 source state.daemon.now
      state.daemon.instant choice state.daemon.shared =
        some (daemon.shared, outcome))
    (others : ∀ origin other, daemon.Handles origin other →
      origin = source ∧ ∃ stage, outcome = .next stage ∧
        other = { handler with stage := stage }) :
    write.Orderly { state with daemon := daemon } := by
  have quiet := quiet_of_other ran foreign
    (show write.Owns write.key from ⟨rfl, rfl⟩)
  have none : ∀ other, daemon.Handles write.address other →
      other.packet.transferId ≠ write.request.transferId := by
    intro other handles transfer
    obtain ⟨same, _, _, rfl⟩ := others _ other handles
    exact foreign ⟨same.symm, transfer⟩
  refine ⟨invariant, orderly.bounded, orderly.sequences, alone, ?_, ?_, ?_⟩
  · intro session stored
    exact orderly.sessions session (quiet.incoming session stored)
  · intro other handles transfer
    exact absurd transfer (none other handles)
  · intro done
    obtain ⟨time, found⟩ := Option.isSome_iff_exists.mp done
    have before : write.Done state := by
      simp [Done, Daemon.Completed, quiet.completed _ time found]
    obtain ⟨gone, level, _⟩ := orderly.done before
    refine ⟨?_, level, ?_⟩
    · rw [Option.eq_none_iff_forall_not_mem]
      intro session stored
      have early := quiet.incoming session stored
      simp [gone] at early
    · intro other handles transfer
      exact absurd transfer (none other handles)

theorem step_orderly (valid : 0 < write.sender.udpPayloadBytes)
    (orderly : write.Orderly state) (punctual : write.Punctual state event)
    (stepped : write.step state event = some next) :
    write.Orderly next := by
  have invariant := step_invariant valid orderly.invariant stepped
  rcases step_cases stepped with ⟨sent, phase, packets, _, _, sentStep, rfl⟩ |
      ⟨taken, daemon, rfl, _, taking, rfl⟩
  · exact orderly.send sentStep
  · rcases Daemon.step_cases taking with ⟨source, datagrams, rfl, rfl⟩ |
        ⟨index, choice, rfl, handled⟩ | ⟨tasks, _, incoming, _, completed⟩
    · exact orderly.receive punctual invariant
    · obtain ⟨alone, source, handler, outcome, running, ran, others, _⟩ :=
        orderly.alone.handle handled
      by_cases own : source = write.address ∧
          handler.packet.transferId = write.request.transferId
      · obtain ⟨rfl, transfer⟩ := own
        exact orderly.own invariant alone running transfer ran others
      · exact orderly.foreign invariant alone own ran others
    · exact orderly.other invariant tasks incoming completed

theorem step_unrefused (orderly : write.Orderly state)
    (done : write.Done state)
    (stepped : write.step state event = some next) :
    ∃ replies, next.daemon.sent = state.daemon.sent ++ replies ∧
      ∀ reply ∈ replies, ¬write.Refuses reply := by
  rcases step_cases stepped with ⟨sent, phase, packets, _, _, sentStep, rfl⟩ |
      ⟨taken, daemon, rfl, _, taking, rfl⟩
  · exact ⟨[], by simp⟩
  · rcases Daemon.step_cases taking with ⟨source, datagrams, rfl, rfl⟩ |
        ⟨index, choice, rfl, handled⟩ | ⟨_, sent, _⟩
    · exact ⟨[], by simp⟩
    · obtain ⟨_, source, handler, outcome, running, ran, _, sent⟩ :=
        orderly.alone.handle handled
      refine ⟨_, sent, ?_⟩
      intro reply member given
      obtain ⟨origin, transfer, error⟩ := given
      obtain ⟨packet, answered, rfl⟩ := List.mem_map.mp member
      obtain rfl : source = write.address := origin
      have ids := Handler.run_replies
        (orderly.invariant.coherent _ handler running) ran answered
      have own := ids.1.symm.trans transfer
      obtain ⟨gone, level, settled⟩ := orderly.done done
      obtain ⟨stage, started⟩ := settled handler running own
      have emitted := (orderly.handlers handler running own).1
      exact (run_settled (orderly.invariant.handlers handler running own)
        (orderly.sends running own) (orderly.sequences _ emitted) stage
        started done gone level ran).2.2 packet answered error
    · exact ⟨[], by simp [sent]⟩

theorem step_blames (innocent : ∀ reply ∈ state.daemon.sent,
      ¬write.Refuses reply)
    (content : ¬Blames state) (stepped : write.step state event = some next) :
    ¬Blames next := by
  rcases step_cases stepped with
      ⟨sent, phase, packets, _, returns, sentStep, rfl⟩ |
      ⟨taken, daemon, _, _, _, rfl⟩
  · intro blames
    unfold Blames at blames
    split at blames
    · rename_i payload failed
      cases failed
      obtain ⟨datagrams, packet, rfl, member, transfer, error⟩ :=
        SendPayload.step_refused sentStep
      rcases returns rfl packet (mem_validPackets.mpr member) with
        answered | different
      · exact innocent _ answered ⟨rfl, transfer, error⟩
      · exact different transfer
    · exact blames
  · exact content

/-- From the moment the completion of a write is recorded, and as long as it
stays recorded, no datagram of the transfer is answered with an error and the
sender does not fail for one, in every run in which no START of the transfer
arrives at that time. -/
theorem duplicates_never_fail (valid : write.sender.Valid)
    (setup : List DaemonEvent) (front back : List WriteEvent)
    {daemon : Daemon} {middle final : WriteState}
    (started : run (Daemon.step write.receiver write.blake3 write.self)
      Daemon.empty setup = some daemon)
    (fresh : write.Fresh daemon) (idle : daemon.Idle)
    (along : Along write.step write.Punctual ⟨.ready, [], daemon⟩
      (front ++ back))
    (reached : run write.step ⟨.ready, [], daemon⟩ front = some middle)
    (recorded : Along write.step (fun state _ => write.Done state) middle
      back)
    (continued : run write.step middle back = some final) :
    ∃ replies, final.daemon.sent = middle.daemon.sent ++ replies ∧
      (∀ reply ∈ replies, ¬write.Refuses reply) ∧
      ((∀ reply ∈ middle.daemon.sent, ¬write.Refuses reply) →
        ¬Blames middle → ¬Blames final) := by
  have positive : 0 < write.sender.udpPayloadBytes := by
    have := valid.payload.1
    omega
  have initial : write.Orderly ⟨.ready, [], daemon⟩ := by
    refine ⟨fresh.started started, trivial, by simp, idle.alone, ?_, ?_, ?_⟩
    · intro session stored
      rw [fresh.incoming write.key ⟨rfl, rfl⟩] at stored
      cases stored
    · intro handler handles
      exact absurd handles idle.not_handles
    · intro done
      have absent := fresh.completed write.key write.request.offset ⟨rfl, rfl⟩
      simp [Done, Daemon.Completed, absent] at done
  obtain ⟨alongFront, alongBack⟩ := along.append reached
  have orderly : write.Orderly middle :=
    run_invariant_along write.Orderly
      (fun _ _ _ orderly punctual stepped =>
        step_orderly positive orderly punctual stepped)
      initial alongFront reached
  clear reached alongFront along initial
  induction back generalizing middle with
  | nil =>
      cases continued
      exact ⟨[], by simp, by simp, fun _ content => content⟩
  | cons event rest ih =>
      obtain ⟨next, stepped, continued⟩ := run_cons.mp continued
      obtain ⟨early, sent, unrefused⟩ :=
        step_unrefused orderly recorded.1 stepped
      obtain ⟨late, grown, quiet, content⟩ := ih (recorded.2 next stepped)
        continued (alongBack.2 next stepped)
        (step_orderly positive orderly alongBack.1 stepped)
      refine ⟨early ++ late, by rw [grown, sent, List.append_assoc], ?_, ?_⟩
      · intro reply member
        rcases List.mem_append.mp member with member | member
        · exact unrefused reply member
        · exact quiet reply member
      · intro innocent before
        refine content ?_ (step_blames innocent before stepped)
        intro reply member
        rw [sent] at member
        rcases List.mem_append.mp member with member | member
        · exact innocent reply member
        · exact unrefused reply member

/-! The write of `abc`, and a repeated datagram that comes late. -/

def abcFront : List WriteEvent :=
  let start := abcWrite.startPacket {} abcHash
  let data := abcWrite.dataPacket {} 0
  [.sender .proceed, .sender .proceed, .daemon (.receive 1 [.ok start])] ++
    List.replicate 4 (.daemon (.handle 0 {})) ++
    [.sender (.receive 50
      [.ok (start.response .startAck (Bytes.toBigEndian 2 256))]),
      .sender .proceed, .sender .proceed,
      .daemon (.receive 1 [.ok data])] ++
    List.replicate 3 (.daemon (.handle 1 {})) ++
    [.sender (.receive 50
      [.ok (data.response .ack (bitmapPayload 0 [true] 256))]),
      .sender .proceed, .sender .proceed, .sender .proceed, .sender .proceed,
      .daemon (.receive 1 [.ok (abcWrite.finPacket {} abcHash)])] ++
    List.replicate 6 (.daemon (.handle 2 {}))

def abcRepeat (packet : Packet) (steps : Nat) : List WriteEvent :=
  [.daemon (.handle 2 {}), .daemon (.handle 2 {}),
    .daemon (.receive 1 [.ok packet])] ++
    List.replicate steps (.daemon (.handle 3 {}))

theorem duplicates_never_fail_abc :
    ∃ middle final,
      run abc.step ⟨.ready, [], abcDaemon⟩ abcFront = some middle ∧
        run abc.step middle (abcRepeat (abcWrite.dataPacket {} 0) 2) =
          some final ∧
        final.daemon.sent.map (·.2.kind) =
          middle.daemon.sent.map (·.2.kind) ++ [.complete, .ack] ∧
        ¬Blames final ∧ ∀ reply ∈ final.daemon.sent, ¬abc.Refuses reply := by
  have started : run (Daemon.step {} abcHash ⟨2, 20⟩) Daemon.empty
      [.request (.allocateLocal abcHandle true true)] =
        some abcDaemon := rfl
  have fresh : abc.Fresh abcDaemon :=
    ⟨fun _ _ => rfl, fun _ _ _ => rfl,
      by simp [Daemon.Handles, abcDaemon, Daemon.empty],
      by simp [abcDaemon, Daemon.empty]⟩
  have along : Along abc.step abc.Punctual ⟨.ready, [], abcDaemon⟩
      (abcFront ++ abcRepeat (abcWrite.dataPacket {} 0) 2) := by
    decide +kernel
  have runs : ∃ middle ∈ run abc.step ⟨.ready, [], abcDaemon⟩ abcFront,
      ∃ final ∈ run abc.step middle
          (abcRepeat (abcWrite.dataPacket {} 0) 2),
        (∀ reply ∈ middle.daemon.sent, ¬abc.Refuses reply) ∧
        ¬Blames middle ∧
        Along abc.step (fun state _ => abc.Done state) middle
          (abcRepeat (abcWrite.dataPacket {} 0) 2) ∧
        final.daemon.sent.map (·.2.kind) =
          middle.daemon.sent.map (·.2.kind) ++ [.complete, .ack] := by
    decide +kernel
  obtain ⟨middle, reached, final, continued, innocent, content, recorded,
    kinds⟩ := runs
  rw [Option.mem_def] at reached continued
  obtain ⟨replies, grown, unrefused, later⟩ :=
    @duplicates_never_fail abc Config.default_valid _ abcFront _ abcDaemon
      middle final started fresh (by decide) along reached recorded continued
  refine ⟨middle, final, reached, continued, kinds, later innocent content, ?_⟩
  intro reply member
  rw [grown] at member
  rcases List.mem_append.mp member with member | member
  · exact innocent reply member
  · exact unrefused reply member

/-- A repeated START is answered with an error, which reaches the sender before
the answer to its FIN. -/
theorem late_start_fails :
    Along abc.step abc.OneByOne ⟨.ready, [], abcDaemon⟩
        (abcFront ++ abcRepeat (abcWrite.startPacket {} abcHash) 3) ∧
      ∃ middle ∈ run abc.step ⟨.ready, [], abcDaemon⟩ abcFront,
        abc.Done middle ∧
        Along abc.step (fun state _ => abc.Done state) middle
          (abcRepeat (abcWrite.startPacket {} abcHash) 3) ∧
        ∃ final ∈ run abc.step middle
            (abcRepeat (abcWrite.startPacket {} abcHash) 3),
          ∃ reply ∈ final.daemon.sent, abc.Refuses reply ∧
            ∃ failed ∈ abc.step final
              (.sender (.receive 50 [.ok reply.2])), Blames failed := by
  decide +kernel

end Runs

end Write

end TrainPool
