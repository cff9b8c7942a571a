import TrainPool.Runtime.Blocks
import TrainPool.Runtime.Reassembly
import TrainPool.Runtime.Sessions

namespace TrainPool

open Execution

/-! A UDP write: one daemon sends a chunk, another receives it, and the network
between them loses, repeats, delays and reorders datagrams. -/

/-- The setting of a write: the sender with its configuration and the address
of its socket, and the daemon it sends to. -/
structure Write where
  request : SendPayload
  sender : Config
  address : SocketAddr
  destination : SocketAddr
  receiver : Config
  self : Identity
  blake3 : List UInt8 → Digest

structure WriteState where
  phase : Phase
  emitted : List Packet
  daemon : Daemon
  deriving DecidableEq

inductive WriteEvent where
  | sender (event : SendEvent)
  | daemon (event : DaemonEvent)
  deriving DecidableEq

namespace Write

variable (write : Write)

def Foreign (packet : Packet) : Prop :=
  packet.transferId ≠ write.request.transferId ∨
    packet.kind ∉ [.start, .data, .fin, .abort]

instance (packet : Packet) : Decidable (write.Foreign packet) :=
  inferInstanceAs (Decidable (_ ∨ _))

/-- What the network can bring to the sender: from the daemon, something that
the daemon has sent to this address, or something of another transfer. -/
def Returns (state : WriteState) : SendEvent → Prop
  | .receive source datagrams => source = write.destination →
      ∀ packet ∈ validPackets datagrams,
        (write.address, packet) ∈ state.daemon.sent ∨
          packet.transferId ≠ write.request.transferId
  | _ => True

instance (state : WriteState) :
    (event : SendEvent) → Decidable (write.Returns state event)
  | .receive _ datagrams => inferInstanceAs
      (Decidable (_ → ∀ packet ∈ validPackets datagrams, _ ∨ _))
  | .proceed | .timeout | .refused => isTrue trivial

/-- What the network can bring to the daemon: from the address of the sender,
something that the sender has sent or something of no such write; from other
addresses, anything. -/
def Arrives (state : WriteState) : DaemonEvent → Prop
  | .receive source datagrams => source = write.address →
      ∀ packet ∈ validPackets datagrams,
        packet ∈ state.emitted ∨ write.Foreign packet
  | _ => True

instance (state : WriteState) :
    (event : DaemonEvent) → Decidable (write.Arrives state event)
  | .receive _ datagrams => inferInstanceAs
      (Decidable (_ → ∀ packet ∈ validPackets datagrams, _ ∨ _))
  | .handle _ _ | .request _ | .responded _ | .clock _ _ => isTrue trivial

def step (state : WriteState) : WriteEvent → Option WriteState
  | .sender event =>
      if write.Returns state event then do
        let (phase, packets) ← write.request.step write.sender write.blake3
          write.destination state.phase event
        some { state with phase, emitted := state.emitted ++ packets }
      else
        none
  | .daemon event =>
      if write.Arrives state event then do
        let daemon ← state.daemon.step write.receiver write.blake3 write.self
          event
        some { state with daemon }
      else
        none

def Owns (key : SessionKey) : Prop :=
  key.source = write.address ∧ key.transfer = write.request.transferId

/-- The address of the sender was not used by another write with this transfer
id: the daemon knows nothing of such a transfer. -/
structure Fresh (daemon : Daemon) : Prop where
  incoming : ∀ key, write.Owns key →
    daemon.shared.udp.incoming.lookup key = none
  completed : ∀ key offset, write.Owns key →
    daemon.shared.udp.completed.lookup (key, offset) = none
  handlers : ∀ handler, daemon.Handles write.address handler →
    handler.packet.transferId ≠ write.request.transferId
  answers : ∀ packet, (write.address, packet) ∈ daemon.sent →
    packet.transferId = write.request.transferId → packet.kind ≠ .complete

/-- A step that extends the block behind `arc` by exactly the payload. -/
structure Applies (arc : Arc) (before after : WriteState) : Prop where
  block : ∃ block : RamBlock,
    before.daemon.shared.ram.heap[arc]? = some ⟨block, none⟩ ∧
      block.handle.id = write.request.handle.id ∧
      block.handle.generation = write.request.handle.generation ∧
      block.handle.leaseToken = write.request.handle.leaseToken ∧
      block.written = write.request.offset ∧
      write.request.offset + write.request.payload.length ≤
        block.bytes.length ∧
      after.daemon.shared.ram.heap[arc]? =
        some ⟨block.extend write.request.offset write.request.payload
          write.request.transferId, none⟩
  nonempty : write.request.payload ≠ []

/-- A step of a handler of this transfer. -/
def OfTransfer (state : WriteState) : WriteEvent → Prop
  | .daemon (.handle index _) => ∃ handler rest,
      state.daemon.tasks[index]? = some ⟨write.address, handler :: rest⟩ ∧
        handler.packet.transferId = write.request.transferId
  | _ => False

/-! The invariant of a write. -/

structure Genuine (session : IncomingSession) : Prop where
  receives : session.Receives write.sender write.request
  nonempty : write.request.payload ≠ []

def SessionsGenuine (incoming : Table SessionKey IncomingSession) : Prop :=
  ∀ key session, write.Owns key → incoming.lookup key = some session →
    write.Genuine session

def Sends (packet : Packet) : Prop :=
  write.request.Sends write.sender write.blake3 packet

def IsStart (packet : Packet) : Prop :=
  packet = write.request.startPacket write.sender write.blake3 ∧
    checkStart write.receiver packet = .ok ()

def IsData (packet : Packet) : Prop :=
  ∃ sequence, packet = write.request.dataPacket write.sender sequence

def IsFin (packet : Packet) : Prop :=
  packet = write.request.finPacket write.sender write.blake3

def Carries (ram : LocalRam) (handler : Handler) : Prop :=
  match handler.stage with
  | .enter => write.Sends handler.packet ∨ write.Foreign handler.packet
  | .readBlock | .readLock _ | .abortSession => True
  | .startBlock | .startLock _ | .startSession =>
      write.IsStart handler.packet
  | .dataCompleted | .dataSession | .dataFinishing =>
      write.IsData handler.packet
  | .batchCompleted | .batchSession | .batchFinishing =>
      ∀ packet ∈ handler.packet :: handler.rest, write.IsData packet
  | .finCompleted | .finSession | .finFinishing | .finInsert | .finEvict
  | .finRelease | .finFail _ => write.IsFin handler.packet
  | .finBlock session => write.IsFin handler.packet ∧
      write.Genuine session ∧ session.buffer = write.request.payload
  | .finWrite session arc => write.IsFin handler.packet ∧
      write.Genuine session ∧ session.buffer = write.request.payload ∧
      ∃ cell : Cell, ram.heap[arc]? = some cell ∧
        cell.block.handle.id = write.request.handle.id

structure Invariant (state : WriteState) : Prop where
  emitted : ∀ packet ∈ state.emitted, write.Sends packet
  coherent : state.daemon.Coherent
  sound : state.daemon.shared.ram.Sound write.blake3
  sessions : write.SessionsGenuine state.daemon.shared.udp.incoming
  handlers : ∀ handler, state.daemon.Handles write.address handler →
    handler.packet.transferId = write.request.transferId →
      write.Carries state.daemon.shared.ram handler

def Late (stage : Stage) : Prop :=
  stage = .finInsert ∨ stage = .finEvict ∨ stage = .finRelease

def Remembers (udp : UdpServerState) : Prop :=
  ∃ key offset, write.Owns key ∧ (udp.completed.lookup (key, offset)).isSome

structure Advances (handler : Handler) (shared next : Shared)
    (outcome : Outcome) : Prop where
  sessions : write.SessionsGenuine next.udp.incoming
  carries : ∀ stage, outcome = .next stage →
    write.Carries shared.ram { handler with stage := stage }
  remembers : write.Remembers next.udp →
    write.Remembers shared.udp ∨ Late handler.stage
  late : ∀ stage, outcome = .next stage → Late stage →
    Late handler.stage ∨
      ∃ session arc, handler.stage = .finWrite session arc ∧
        stage = .finInsert
  completes : ∀ reply ∈ outcome.replies handler.packet,
    reply.kind = .complete →
      write.Remembers shared.udp ∨ Late handler.stage

section Handlers

variable {write} {now instant : Nat} {choice : Choice}
  {shared next : Shared} {outcome : Outcome} {handler : Handler}

theorem SessionsGenuine.mono {before after : Table SessionKey IncomingSession}
    (genuine : write.SessionsGenuine before)
    (kept : ∀ key session, write.Owns key →
      after.lookup key = some session → before.lookup key = some session) :
    write.SessionsGenuine after := by
  intro key session owns stored
  exact genuine key session owns (kept key session owns stored)

theorem SessionsGenuine.insert {incoming : Table SessionKey IncomingSession}
    (genuine : write.SessionsGenuine incoming) {key : SessionKey}
    {session : IncomingSession} (new : write.Genuine session) :
    write.SessionsGenuine (incoming.insert key session) := by
  intro other found owns stored
  rw [Table.lookup_insert_eq] at stored
  split at stored
  · cases stored
    exact new
  · exact genuine other found owns stored

theorem SessionsGenuine.erase {incoming : Table SessionKey IncomingSession}
    (genuine : write.SessionsGenuine incoming) (key : SessionKey) :
    write.SessionsGenuine (incoming.erase key) := by
  refine genuine.mono ?_
  intro other session _ stored
  rw [Table.lookup_erase_eq] at stored
  split at stored
  · cases stored
  · exact stored

theorem owns_key {packet : Packet}
    (transfer : packet.transferId = write.request.transferId) :
    write.Owns (packet.key write.address) :=
  ⟨rfl, transfer⟩

theorem kind_of_carried {packet : Packet}
    (carried : write.Sends packet ∨ write.Foreign packet)
    (transfer : packet.transferId = write.request.transferId) :
    (packet.kind = .start →
        packet = write.request.startPacket write.sender write.blake3) ∧
      (packet.kind = .data → write.IsData packet) ∧
      (packet.kind = .fin → write.IsFin packet) := by
  rcases carried with sends | different | kind
  · cases sends with
    | start => exact ⟨fun _ => rfl, nofun, nofun⟩
    | data sequence => exact ⟨nofun, fun _ => ⟨sequence, rfl⟩, nofun⟩
    | fin => exact ⟨nofun, nofun, fun _ => rfl⟩
    | abort => exact ⟨nofun, nofun, nofun⟩
  · exact absurd transfer different
  · refine ⟨?_, ?_, ?_⟩ <;> intro found <;> simp [found] at kind

theorem startSession_genuine {reserved : Bool} {packet : Packet}
    {udp : UdpServerState}
    (genuine : write.SessionsGenuine udp.incoming)
    (start : write.IsStart packet) :
    write.SessionsGenuine (udp.startSession write.receiver instant reserved
      write.address packet).1.incoming := by
  have expired : write.SessionsGenuine
      (udp.expireIncoming write.receiver instant).incoming :=
    genuine.mono fun _ _ _ stored => (Table.lookup_retain.mp stored).1
  obtain ⟨rfl, passed⟩ := start
  unfold checkStart at passed
  rw [ensure_bind_ok] at passed
  simp only [ensure_bind_ok, ensure_ok] at passed
  obtain ⟨_, ⟨positive, _⟩, _, _⟩ := passed
  have announced : (write.request.startPacket write.sender
      write.blake3).payload.take 8 =
        Bytes.toBigEndian 8 write.request.payload.length := by
    simp [SendPayload.startPacket]
  have length : Bytes.fromBigEndian ((write.request.startPacket write.sender
      write.blake3).payload.take 8) = write.request.payload.length := by
    rw [announced]
    exact Bytes.fromBigEndian_toBigEndian write.request.bounded
  rw [length] at positive
  unfold UdpServerState.startSession
  simp only
  split
  · exact expired
  · split
    · exact expired
    · split
      · exact expired
      · refine expired.insert ⟨⟨rfl, rfl, rfl, ?_, ?_, ?_, ?_⟩, ?_⟩
        · simp
        · simp [List.count_replicate]
        · simp [length]
        · intro sequence received
          simp [List.getElem?_replicate] at received
        · intro empty
          simp [empty] at positive

theorem Remembers.mono {before after : UdpServerState}
    (kept : ∀ key offset time, write.Owns key →
      after.completed.lookup (key, offset) = some time →
        before.completed.lookup (key, offset) = some time)
    (remembers : write.Remembers after) : write.Remembers before := by
  obtain ⟨key, offset, owns, found⟩ := remembers
  obtain ⟨time, found⟩ := Option.isSome_iff_exists.mp found
  exact ⟨key, offset, owns, by simp [kept key offset time owns found]⟩

theorem Advances.idle
    (sessions : write.SessionsGenuine shared.udp.incoming)
    (incoming : next.udp.incoming = shared.udp.incoming)
    (completed : next.udp.completed = shared.udp.completed)
    (carries : ∀ stage, outcome = .next stage →
      write.Carries shared.ram { handler with stage := stage } ∧
        (Late stage → Late handler.stage))
    (answers : ∀ reply ∈ outcome.replies handler.packet,
      reply.kind ≠ .complete) :
    write.Advances handler shared next outcome where
  sessions := incoming ▸ sessions
  carries := fun stage same => (carries stage same).1
  remembers := fun remembers => .inl (remembers.mono (by
    intro key offset time _ found
    rwa [completed] at found))
  late := fun stage same late => .inl ((carries stage same).2 late)
  completes := fun reply member complete =>
    absurd complete (answers reply member)

theorem errorReply_kind {packet reply : Packet} {message : String}
    (member : reply ∈ errorReply packet message) : reply.kind = .error := by
  unfold errorReply at member
  simp only at member
  split at member
  · obtain rfl := List.mem_singleton.mp member
    rfl
  · cases member

theorem ofResult_next {α : Type} {stage : α → Stage} {result : Result α}
    {following : Stage}
    (same : Outcome.ofResult stage result = .next following) :
    ∃ value, result = .ok value ∧ stage value = following := by
  unfold Outcome.ofResult at same
  split at same <;> cases same
  exact ⟨_, rfl, rfl⟩

theorem ofResult_replies {α : Type} {stage : α → Stage} {result : Result α}
    {packet reply : Packet}
    (member : reply ∈ (Outcome.ofResult stage result).replies packet) :
    reply.kind = .error := by
  unfold Outcome.ofResult at member
  split at member
  · cases member
  · exact errorReply_kind member
  · cases member

section Idle

variable (sessions : write.SessionsGenuine shared.udp.incoming)

include sessions

theorem Advances.fails {message : String} :
    write.Advances handler shared shared (.fail message) :=
  .idle sessions rfl rfl nofun fun reply member => by
    simp [errorReply_kind member]

theorem Advances.panics : write.Advances handler shared shared .panic :=
  .idle sessions rfl rfl nofun nofun

theorem Advances.answers {answer : Option Packet}
    (other : ∀ reply ∈ answer, reply.kind ≠ .complete) :
    write.Advances handler shared shared (.answer answer) :=
  .idle sessions rfl rfl nofun fun reply member =>
    other reply (Option.mem_toList.mp member)

theorem Advances.goesOn {stage : Stage}
    (carries : write.Carries shared.ram { handler with stage := stage })
    (early : ¬Late stage) :
    write.Advances handler shared shared (.next stage) := by
  refine .idle sessions rfl rfl ?_ nofun
  intro other same
  cases same
  exact ⟨carries, fun late => absurd late early⟩

theorem Advances.ofResult {α : Type} {stage : α → Stage} {result : Result α}
    (carries : ∀ value, result = .ok value →
      write.Carries shared.ram { handler with stage := stage value })
    (early : ∀ value, ¬Late (stage value)) :
    write.Advances handler shared shared (.ofResult stage result) := by
  cases result with
  | ok value => exact .goesOn sessions (carries value rfl) (early value)
  | error fault =>
      cases fault with
      | error message => exact .fails sessions
      | panic => exact .panics sessions

end Idle

theorem enter_advances {packet : Packet} {rest : List Packet}
    (carried : write.Sends packet ∨ write.Foreign packet)
    (transfer : packet.transferId = write.request.transferId)
    (sessions : write.SessionsGenuine shared.udp.incoming) :
    write.Advances { packet, rest, stage := .enter } shared
      { shared with udp := shared.udp.ageCompleted instant }
      (Handler.dispatch write.receiver packet) := by
  obtain ⟨start, data, fin⟩ := kind_of_carried carried transfer
  have outcomes : ∀ stage,
      Handler.dispatch write.receiver packet = .next stage →
        write.Carries shared.ram { packet, rest, stage } ∧ ¬Late stage := by
    intro stage same
    unfold Handler.dispatch at same
    split at same
    · obtain ⟨_, _, rfl⟩ := ofResult_next same
      exact ⟨trivial, by simp [Late]⟩
    · rename_i kind
      split at same
      · obtain ⟨_, passed, rfl⟩ := ofResult_next same
        exact ⟨⟨start kind, passed⟩, by simp [Late]⟩
      · cases same
    · rename_i kind
      cases same
      exact ⟨data kind, by simp [Late]⟩
    · rename_i kind
      cases same
      exact ⟨fin kind, by simp [Late]⟩
    · cases same
      exact ⟨trivial, by simp [Late]⟩
    · cases same
  refine ⟨sessions, fun stage same => (outcomes stage same).1, ?_, ?_, ?_⟩
  · intro remembers
    exact .inl (remembers.mono fun _ _ _ _ found =>
      (Table.lookup_retain.mp found).1)
  · intro stage same late
    exact absurd late (outcomes stage same).2
  · intro reply member complete
    exfalso
    unfold Handler.dispatch at member
    split at member
    · rw [ofResult_replies member] at complete
      cases complete
    · split at member
      · rw [ofResult_replies member] at complete
        cases complete
      · simp [Outcome.replies] at member
    all_goals simp [Outcome.replies] at member

theorem dataSession_advances {packet : Packet} {rest : List Packet}
    (data : write.IsData packet)
    (transfer : packet.transferId = write.request.transferId)
    (sessions : write.SessionsGenuine shared.udp.incoming) :
    write.Advances { packet, rest, stage := .dataSession } shared
      (Handler.runDataSession write.receiver write.address instant packet
        shared).1
      (Handler.runDataSession write.receiver write.address instant packet
        shared).2 := by
  unfold Handler.runDataSession
  split
  · exact .goesOn sessions data (by simp [Late])
  · rename_i session stored
    obtain ⟨receives, nonempty⟩ :=
      sessions _ session (owns_key transfer) stored
    obtain ⟨sequence, rfl⟩ := data
    refine ⟨sessions.insert
      ⟨IncomingSession.receiveData_receives receives, nonempty⟩, ?_,
      fun remembers => .inl remembers, ?_, ?_⟩
    · intro stage same
      simp only at same
      split at same <;> cases same
    · intro stage same
      simp only at same
      split at same <;> cases same
    · intro reply member complete
      exfalso
      simp only at member
      split at member
      · simp only [Outcome.replies, Option.mem_toList,
          Option.map_eq_some_iff] at member
        obtain ⟨_, _, rfl⟩ := member
        cases complete
      · rw [errorReply_kind member] at complete
        cases complete
      · cases member

theorem batchSession_advances {packet : Packet} {rest : List Packet}
    (data : ∀ other ∈ packet :: rest, write.IsData other)
    (transfer : packet.transferId = write.request.transferId)
    (sessions : write.SessionsGenuine shared.udp.incoming) :
    write.Advances { packet, rest, stage := .batchSession } shared
      (Handler.runBatchSession write.receiver write.address instant packet
        rest shared).1
      (Handler.runBatchSession write.receiver write.address instant packet
        rest shared).2 := by
  unfold Handler.runBatchSession
  split
  · exact .goesOn sessions data (by simp [Late])
  · rename_i session stored
    obtain ⟨receives, nonempty⟩ :=
      sessions _ session (owns_key transfer) stored
    have all := IncomingSession.receiveAll_receives receives data
    refine ⟨sessions.insert ⟨?_, nonempty⟩, ?_,
      fun remembers => .inl remembers, ?_, ?_⟩
    · split
      · exact all.touch instant
      · exact all
    · intro stage same
      simp only at same
      split at same <;> cases same
    · intro stage same
      simp only at same
      split at same <;> cases same
    · intro reply member complete
      exfalso
      simp only at member
      split at member
      · simp only [Outcome.replies, Option.mem_toList,
          Option.some.injEq] at member
        subst member
        cases complete
      · rw [errorReply_kind member] at complete
        cases complete
      · cases member

theorem finSession_advances {packet : Packet} {rest : List Packet}
    (fin : write.IsFin packet)
    (transfer : packet.transferId = write.request.transferId)
    (valid : 0 < write.sender.udpPayloadBytes)
    (sessions : write.SessionsGenuine shared.udp.incoming) :
    write.Advances { packet, rest, stage := .finSession } shared
      (Handler.runFinSession write.receiver write.blake3 write.address packet
        shared).1
      (Handler.runFinSession write.receiver write.blake3 write.address packet
        shared).2 := by
  unfold Handler.runFinSession
  split
  · exact .goesOn sessions fin (by simp [Late])
  · rename_i session stored
    have genuine := sessions _ session (owns_key transfer) stored
    split
    · exact .answers sessions (by simp)
    · rename_i full
      split
      · exact .fails sessions
      · split
        · exact .fails sessions
        · refine ⟨sessions.erase _, ?_, fun remembers => .inl remembers, ?_,
            nofun⟩
          · intro stage same
            cases same
            exact ⟨fin, genuine, genuine.receives.assembles.complete valid
              (not_not.mp full)⟩
          · intro stage same late
            cases same
            simp [Late] at late

theorem startSession_completed {reserved : Bool} {source : SocketAddr}
    {config : Config} {packet : Packet} {udp : UdpServerState} :
    (udp.startSession config instant reserved source packet).1.completed =
      udp.completed := by
  unfold UdpServerState.startSession
  simp only
  split
  · rfl
  · split
    · rfl
    · split <;> rfl

theorem startSession_advances {packet : Packet} {rest : List Packet}
    (start : write.IsStart packet)
    (sessions : write.SessionsGenuine shared.udp.incoming) :
    write.Advances { packet, rest, stage := .startSession } shared
      (Handler.runStartSession write.receiver write.address instant choice
        packet shared).1
      (Handler.runStartSession write.receiver write.address instant choice
        packet shared).2 := by
  unfold Handler.runStartSession
  refine ⟨startSession_genuine sessions start, ?_, ?_, ?_, ?_⟩
  · intro stage same
    simp only at same
    split at same <;> cases same
  · intro remembers
    refine .inl (remembers.mono ?_)
    intro key offset time _ found
    rwa [startSession_completed] at found
  · intro stage same
    simp only at same
    split at same <;> cases same
  · intro reply member complete
    exfalso
    simp only at member
    split at member
    · simp only [Outcome.replies, Option.mem_toList,
        Option.some.injEq] at member
      subst member
      cases complete
    · rw [errorReply_kind member] at complete
      cases complete
    · cases member

theorem readLock_advances {packet : Packet} {rest : List Packet} {arc : Arc}
    (sessions : write.SessionsGenuine shared.udp.incoming)
    (ran : Handler.runReadLock write.receiver write.address now packet arc
      shared = some (next, outcome)) :
    write.Advances { packet, rest, stage := .readLock arc } shared next
      outcome := by
  obtain ⟨block, _, ran⟩ := Option.bind_eq_some_iff.mp ran
  split at ran
  · cases ran
    exact .fails sessions
  · cases ran
    exact .panics sessions
  · split at ran <;> cases ran
    · exact .idle sessions rfl rfl nofun nofun
    · exact .fails sessions

theorem finBlock_advances {packet : Packet} {rest : List Packet}
    {session : IncomingSession} (fin : write.IsFin packet)
    (genuine : write.Genuine session)
    (full : session.buffer = write.request.payload)
    (keyed : ∀ id arc, shared.ram.blocks.lookup id = some arc →
      ∃ cell : Cell, shared.ram.heap[arc]? = some cell ∧
        cell.block.handle.id = id)
    (sessions : write.SessionsGenuine shared.udp.incoming) :
    write.Advances { packet, rest, stage := .finBlock session } shared shared
      (match shared.ram.get packet.blockId with
        | .ok arc => .next (.finWrite session arc)
        | .error (.error message) => .next (.finFail message)
        | .error .panic => .panic) := by
  split
  · rename_i arc found
    obtain ⟨cell, stored, id⟩ := keyed _ _ (LocalRam.get_ok.mp found)
    have named : cell.block.handle.id = write.request.handle.id := by
      rw [id, show packet = _ from fin]
      rfl
    exact .goesOn sessions ⟨fin, genuine, full, cell, stored, named⟩
      (by simp [Late])
  · exact .goesOn sessions fin (by simp [Late])
  · exact .panics sessions

theorem finWrite_advances {packet : Packet} {rest : List Packet}
    {session : IncomingSession} {arc : Arc} (fin : write.IsFin packet)
    (sessions : write.SessionsGenuine shared.udp.incoming)
    (ran : Handler.runFinWrite now packet session arc shared =
      some (next, outcome)) :
    write.Advances { packet, rest, stage := .finWrite session arc } shared
      next outcome := by
  obtain ⟨block, _, ran⟩ := Option.bind_eq_some_iff.mp ran
  split at ran <;> cases ran
  · refine ⟨sessions, ?_, fun remembers => .inl remembers, ?_, nofun⟩
    · intro stage same
      cases same
      exact fin
    · intro stage same _
      cases same
      exact .inr ⟨session, arc, rfl, rfl⟩
  · exact .goesOn sessions fin (by simp [Late])
  · exact .panics sessions

theorem finEvict_advances {packet : Packet} {rest : List Packet}
    (fin : write.IsFin packet)
    (sessions : write.SessionsGenuine shared.udp.incoming)
    (ran : Handler.runFinEvict write.receiver choice shared =
      some (next, outcome)) :
    write.Advances { packet, rest, stage := .finEvict } shared next
      outcome := by
  have late : Late .finEvict := .inr (.inl rfl)
  have given : write.SessionsGenuine next.udp.incoming ∧
      outcome = .next .finRelease := by
    unfold Handler.runFinEvict at ran
    split at ran
    · obtain ⟨oldest, _, ran⟩ := Option.bind_eq_some_iff.mp ran
      split at ran <;> cases ran
      exact ⟨sessions, rfl⟩
    · cases ran
      exact ⟨sessions, rfl⟩
  obtain ⟨kept, rfl⟩ := given
  refine ⟨kept, ?_, fun _ => .inr late, fun _ _ _ => .inl late,
    fun _ _ _ => .inr late⟩
  intro stage same
  cases same
  exact fin

theorem run_advances
    (carries : write.Carries shared.ram handler)
    (transfer : handler.packet.transferId = write.request.transferId)
    (valid : 0 < write.sender.udpPayloadBytes)
    (keyed : ∀ id arc, shared.ram.blocks.lookup id = some arc →
      ∃ cell : Cell, shared.ram.heap[arc]? = some cell ∧
        cell.block.handle.id = id)
    (sessions : write.SessionsGenuine shared.udp.incoming)
    (ran : handler.run write.receiver write.blake3 write.address now instant
      choice shared = some (next, outcome)) :
    write.Advances handler shared next outcome := by
  obtain ⟨packet, rest, stage⟩ := handler
  cases stage with
  | enter =>
      cases ran
      exact enter_advances carries transfer sessions
  | readBlock =>
      cases ran
      exact .ofResult sessions (fun _ _ => trivial) (by simp [Late])
  | readLock arc => exact readLock_advances sessions ran
  | startBlock =>
      cases ran
      exact .ofResult sessions (fun _ _ => carries) (by simp [Late])
  | startLock arc =>
      obtain ⟨block, _, ran⟩ := Option.bind_eq_some_iff.mp ran
      cases ran
      exact .ofResult sessions (fun _ _ => carries) (by simp [Late])
  | startSession =>
      obtain ⟨rfl, rfl⟩ := Prod.ext_iff.mp (Option.some.inj ran)
      exact startSession_advances carries sessions
  | dataCompleted =>
      cases ran
      split
      · exact .answers sessions (by simp)
      · exact .goesOn sessions carries (by simp [Late])
  | dataSession =>
      obtain ⟨rfl, rfl⟩ := Prod.ext_iff.mp (Option.some.inj ran)
      exact dataSession_advances carries transfer sessions
  | dataFinishing =>
      cases ran
      split
      · exact .answers sessions (by simp)
      · exact .fails sessions
  | batchCompleted =>
      cases ran
      split
      · exact .answers sessions (by simp)
      · exact .goesOn sessions carries (by simp [Late])
  | batchSession =>
      obtain ⟨rfl, rfl⟩ := Prod.ext_iff.mp (Option.some.inj ran)
      exact batchSession_advances carries transfer sessions
  | batchFinishing =>
      cases ran
      split
      · exact .answers sessions (by simp)
      · exact .fails sessions
  | finCompleted =>
      cases ran
      split
      · rename_i found
        exact ⟨sessions, nofun, fun remembers => .inl remembers, nofun,
          fun _ _ _ => .inl ⟨_, _, owns_key transfer, found⟩⟩
      · exact .goesOn sessions carries (by simp [Late])
  | finSession =>
      obtain ⟨rfl, rfl⟩ := Prod.ext_iff.mp (Option.some.inj ran)
      exact finSession_advances carries transfer valid sessions
  | finFinishing =>
      cases ran
      split
      · exact .answers sessions (by simp)
      · exact .fails sessions
  | finBlock session =>
      cases ran
      obtain ⟨fin, genuine, full⟩ := carries
      exact finBlock_advances fin genuine full keyed sessions
  | finWrite session arc => exact finWrite_advances carries.1 sessions ran
  | finInsert =>
      cases ran
      refine ⟨sessions, ?_, fun _ => .inr (.inl rfl),
        fun _ _ _ => .inl (.inl rfl), nofun⟩
      intro stage same
      cases same
      exact carries
  | finEvict => exact finEvict_advances carries sessions ran
  | finRelease =>
      cases ran
      exact ⟨sessions, nofun, fun remembers => .inl remembers, nofun,
        fun _ _ _ => .inr (.inr (.inr rfl))⟩
  | finFail message =>
      cases ran
      exact .idle sessions rfl rfl nofun fun reply member => by
        simp [errorReply_kind member]
  | abortSession =>
      cases ran
      exact ⟨sessions.erase _, nofun, fun remembers => .inl remembers, nofun,
        nofun⟩

theorem Carries.mono {ram later : LocalRam} (grows : ram.Grows later)
    (carries : write.Carries ram handler) : write.Carries later handler := by
  obtain ⟨packet, rest, stage⟩ := handler
  cases stage with
  | finWrite session arc =>
      obtain ⟨fin, genuine, full, cell, stored, id⟩ := carries
      obtain ⟨next, stored, grown⟩ := grows arc cell stored
      exact ⟨fin, genuine, full, next, stored, grown.identity.1.trans id⟩
  | _ => exact carries

end Handlers

section Steps

variable {write} {state next : WriteState} {event : WriteEvent}

theorem step_cases (stepped : write.step state event = some next) :
    (∃ sent phase packets, event = .sender sent ∧
        write.Returns state sent ∧
        write.request.step write.sender write.blake3 write.destination
          state.phase sent = some (phase, packets) ∧
        next = { state with
          phase := phase, emitted := state.emitted ++ packets }) ∨
      ∃ taken daemon, event = .daemon taken ∧ write.Arrives state taken ∧
        state.daemon.step write.receiver write.blake3 write.self taken =
          some daemon ∧
        next = { state with daemon := daemon } := by
  cases event with
  | sender sent =>
      simp only [step] at stepped
      split at stepped
      · rename_i returns
        obtain ⟨⟨phase, packets⟩, sentStep, done⟩ :=
          Option.bind_eq_some_iff.mp stepped
        cases done
        exact .inl ⟨sent, phase, packets, rfl, returns, sentStep, rfl⟩
      · cases stepped
  | daemon taken =>
      simp only [step] at stepped
      split at stepped
      · rename_i arrives
        obtain ⟨daemon, taken, done⟩ := Option.bind_eq_some_iff.mp stepped
        cases done
        exact .inr ⟨_, daemon, rfl, arrives, taken, rfl⟩
      · cases stepped

theorem arrives_starts {datagrams : List Datagram} {handler : Handler}
    (member : handler ∈ udpDatagrams datagrams) : ¬Late handler.stage := by
  rcases (udpDatagrams_spec member).2 with ⟨start, _⟩ | ⟨start, _⟩ <;>
    simp [Late, start]

theorem arrives_carries {datagrams : List Datagram} {ram : LocalRam}
    {handler : Handler}
    (emitted : ∀ packet ∈ state.emitted, write.Sends packet)
    (arrives : write.Arrives state (.receive write.address datagrams))
    (member : handler ∈ udpDatagrams datagrams)
    (transfer : handler.packet.transferId = write.request.transferId) :
    write.Carries ram handler := by
  have carried : ∀ packet, .ok packet ∈ datagrams →
      write.Sends packet ∨ write.Foreign packet := by
    intro packet arrived
    exact (arrives rfl packet (mem_validPackets.mpr arrived)).imp
      (emitted packet) id
  obtain ⟨arrived, start⟩ := udpDatagrams_spec member
  obtain ⟨packet, rest, stage⟩ := handler
  rcases start with ⟨rfl, _⟩ | ⟨rfl, batch⟩
  · exact carried packet arrived
  · intro other member
    obtain ⟨arrived, data, sameTransfer, _⟩ := batch other member
    exact (kind_of_carried (carried other arrived)
      (sameTransfer.trans transfer)).2.1 data

theorem quiet_of_other {source : SocketAddr} {handler : Handler}
    {now instant : Nat} {choice : Choice} {shared after : Shared}
    {outcome : Outcome}
    (ran : handler.run write.receiver write.blake3 source now instant choice
      shared = some (after, outcome))
    (other : ¬(source = write.address ∧
      handler.packet.transferId = write.request.transferId))
    {key : SessionKey} (owns : write.Owns key) :
    UdpServerState.Quiet key shared.udp after.udp := by
  refine Handler.run_quiet ran ?_
  rintro rfl
  exact other owns

theorem step_invariant (valid : 0 < write.sender.udpPayloadBytes)
    (invariant : write.Invariant state)
    (stepped : write.step state event = some next) :
    write.Invariant next := by
  obtain ⟨emitted, coherent, sound, sessions, handlers⟩ := invariant
  rcases step_cases stepped with ⟨sent, phase, packets, _, _, sentStep, rfl⟩ |
      ⟨taken, daemon, _, arrives, taken, rfl⟩
  · refine ⟨?_, coherent, sound, sessions, handlers⟩
    intro packet member
    rcases List.mem_append.mp member with member | member
    · exact emitted packet member
    · exact SendPayload.step_sends sentStep packet member
  · have change := Daemon.step_change taken
    have grows := change.grows sound
    have nextCoherent := Daemon.step_coherent coherent taken
    have kept : ∀ handler, state.daemon.Handles write.address handler →
        handler.packet.transferId = write.request.transferId →
          write.Carries daemon.shared.ram handler :=
      fun handler handles transfer =>
        (handlers handler handles transfer).mono grows
    rcases Daemon.step_cases taken with ⟨source, datagrams, rfl, rfl⟩ |
        ⟨index, choice, rfl, handled⟩ | ⟨tasks, _, incoming, _⟩
    · refine ⟨emitted, nextCoherent, change.sound sound, sessions, ?_⟩
      intro handler handles transfer
      rcases Daemon.receive_handles handles with handles | ⟨rfl, member⟩
      · exact kept handler handles transfer
      · exact arrives_carries emitted arrives member transfer
    · obtain ⟨source, handler, rest, outcome, _, running, ran, others, _⟩ :=
        Daemon.handle_handles handled
      by_cases own : source = write.address ∧
          handler.packet.transferId = write.request.transferId
      · obtain ⟨rfl, transfer⟩ := own
        have advances := run_advances
          (handlers handler running transfer) transfer valid sound.keyed
          sessions ran
        refine ⟨emitted, nextCoherent, change.sound sound, advances.sessions,
          ?_⟩
        intro other handles otherTransfer
        rcases others _ other handles with handles | ⟨_, stage, same, rfl⟩
        · exact kept other handles otherTransfer
        · exact (advances.carries stage same).mono grows
      · refine ⟨emitted, nextCoherent, change.sound sound,
          sessions.mono ?_, ?_⟩
        · intro key session owns stored
          exact (quiet_of_other ran own owns).incoming session stored
        · intro other handles otherTransfer
          rcases others _ other handles with handles | ⟨rfl, _, _, rfl⟩
          · exact kept other handles otherTransfer
          · exact absurd ⟨rfl, otherTransfer⟩ own
    · refine ⟨emitted, nextCoherent, change.sound sound,
        incoming ▸ sessions, ?_⟩
      intro handler handles transfer
      exact kept handler (handles.of_tasks tasks) transfer

theorem finWrite_applies {session : IncomingSession} {handler : Handler}
    {arc : Arc} {block written : RamBlock} {now : Nat}
    (stage : handler.stage = .finWrite session arc)
    (carries : write.Carries state.daemon.shared.ram handler)
    (free : state.daemon.shared.ram.lock? arc = some block)
    (finished : block.finishUdp now handler.packet.leaseToken
      session.generation session.baseOffset session.buffer
      handler.packet.transferId = .ok written)
    (ram : next.daemon.shared.ram =
      state.daemon.shared.ram.put arc ⟨written, none⟩) :
    write.Applies arc state next := by
  obtain ⟨packet, rest, here⟩ := handler
  cases stage
  obtain ⟨fin, genuine, full, cell, stored, id⟩ := carries
  have here := LocalRam.lock?_eq_some.mp free
  cases here.symm.trans stored
  obtain ⟨⟨token, _⟩, ⟨generation, _, offset⟩, fits, rfl⟩ :=
    RamBlock.finishUdp_ok.mp finished
  obtain rfl : packet = _ := fin
  rw [genuine.receives.base] at offset fits ram
  rw [genuine.receives.generation] at generation
  rw [full] at fits ram
  have bound := (List.getElem?_eq_some_iff.mp here).1
  refine ⟨⟨block, here, id, generation, token.symm, offset, fits, ?_⟩,
    genuine.nonempty⟩
  rw [ram]
  simp [LocalRam.put, bound, SendPayload.finPacket, Packet.forHandle]

def Evidence (write : Write) (state : WriteState) : Prop :=
  write.Remembers state.daemon.shared.udp ∨
    (∃ handler, state.daemon.Handles write.address handler ∧
      handler.packet.transferId = write.request.transferId ∧
      Late handler.stage) ∨
    (∃ packet, (write.address, packet) ∈ state.daemon.sent ∧
      packet.transferId = write.request.transferId ∧
      packet.kind = .complete) ∨
    state.phase = .returned (.ok ())

theorem step_evidence (valid : 0 < write.sender.udpPayloadBytes)
    (invariant : write.Invariant state)
    (stepped : write.step state event = some next)
    (evidence : write.Evidence next) :
    write.Evidence state ∨
      write.OfTransfer state event ∧ ∃ arc, write.Applies arc state next := by
  obtain ⟨emitted, coherent, sound, sessions, handlers⟩ := invariant
  rcases step_cases stepped with ⟨sent, phase, packets, rfl, returns,
      sentStep, rfl⟩ | ⟨taken, daemon, rfl, arrives, taken, rfl⟩
  · left
    rcases evidence with remembers | late | complete | done
    · exact .inl remembers
    · exact .inr (.inl late)
    · exact .inr (.inr (.inl complete))
    · change phase = _ at done
      subst done
      obtain ⟨datagrams, packet, rfl, member, transfer, complete⟩ :=
        SendPayload.step_returns sentStep
      rcases returns rfl packet (mem_validPackets.mpr member) with
        sent | foreign
      · exact .inr (.inr (.inl ⟨packet, sent, transfer, complete⟩))
      · exact absurd transfer foreign
  · rcases Daemon.step_cases taken with ⟨source, datagrams, rfl, rfl⟩ |
        ⟨index, choice, rfl, handled⟩ |
        ⟨tasks, sent, incoming, finishing, completed⟩
    · left
      rcases evidence with remembers | ⟨handler, handles, transfer, late⟩ |
          complete | done
      · exact .inl remembers
      · rcases Daemon.receive_handles handles with handles | ⟨rfl, member⟩
        · exact .inr (.inl ⟨handler, handles, transfer, late⟩)
        · exact absurd late
            (arrives_starts member)
      · exact .inr (.inr (.inl complete))
      · exact .inr (.inr (.inr done))
    · obtain ⟨source, handler, rest, outcome, found, running, ran, others,
        sent, _⟩ := Daemon.handle_handles handled
      by_cases own : source = write.address ∧
          handler.packet.transferId = write.request.transferId
      · obtain ⟨rfl, transfer⟩ := own
        have carries := handlers handler running transfer
        have advances := run_advances carries transfer valid sound.keyed
          sessions ran
        have lateNow : Late handler.stage → write.Evidence state :=
          fun late => .inr (.inl ⟨handler, running, transfer, late⟩)
        rcases evidence with remembers |
            ⟨other, handles, otherTransfer, late⟩ |
            ⟨packet, answered, sameTransfer, complete⟩ | done
        · exact .inl ((advances.remembers remembers).elim .inl lateNow)
        · rcases others _ other handles with handles | ⟨_, stage, same, rfl⟩
          · exact .inl (.inr (.inl ⟨other, handles, otherTransfer, late⟩))
          · rcases advances.late stage same late with late |
                ⟨session, arc, here, rfl⟩
            · exact .inl (lateNow late)
            · -- The handler left its write for `finInsert`, so it has
              -- written.
              subst same
              obtain ⟨block, written, free, finished, ram⟩ :=
                Handler.run_finWrite here ran
              exact .inr ⟨⟨handler, rest, found, transfer⟩, arc,
                finWrite_applies here carries free finished ram⟩
        · change (write.address, packet) ∈ daemon.sent at answered
          rw [sent] at answered
          rcases List.mem_append.mp answered with answered | answered
          · exact .inl (.inr (.inr (.inl
              ⟨packet, answered, sameTransfer, complete⟩)))
          · obtain ⟨reply, member, same⟩ := List.mem_map.mp answered
            cases same
            exact .inl ((advances.completes packet member complete).elim
              .inl lateNow)
        · exact .inl (.inr (.inr (.inr done)))
      · left
        rcases evidence with remembers |
            ⟨other, handles, otherTransfer, late⟩ |
            ⟨packet, answered, sameTransfer, complete⟩ | done
        · refine .inl (remembers.mono ?_)
          intro key offset time owns stored
          exact (quiet_of_other ran own owns).completed offset time stored
        · rcases others _ other handles with handles | ⟨rfl, _, _, rfl⟩
          · exact .inr (.inl ⟨other, handles, otherTransfer, late⟩)
          · exact absurd ⟨rfl, otherTransfer⟩ own
        · change (write.address, packet) ∈ daemon.sent at answered
          rw [sent] at answered
          rcases List.mem_append.mp answered with answered | answered
          · exact .inr (.inr (.inl
              ⟨packet, answered, sameTransfer, complete⟩))
          · obtain ⟨reply, member, same⟩ := List.mem_map.mp answered
            cases same
            have ids := Handler.run_replies
              (coherent _ handler running) ran member
            exact absurd ⟨rfl, ids.1.symm.trans sameTransfer⟩ own
        · exact .inr (.inr (.inr done))
    · left
      rcases evidence with remembers | ⟨handler, handles, transfer, late⟩ |
          ⟨packet, answered, complete⟩ | done
      · refine .inl (remembers.mono ?_)
        intro key offset time _ stored
        rwa [completed] at stored
      · exact .inr (.inl
          ⟨handler, handles.of_tasks tasks, transfer, late⟩)
      · exact .inr (.inr (.inl ⟨packet, sent ▸ answered, complete⟩))
      · exact .inr (.inr (.inr done))

theorem transfer_applies (invariant : write.Invariant state)
    (own : write.OfTransfer state event)
    (stepped : write.step state event = some next) {arc : Arc}
    (changed : next.daemon.shared.ram.heap[arc]? ≠
      state.daemon.shared.ram.heap[arc]?) :
    write.Applies arc state next := by
  rcases step_cases stepped with ⟨sent, _, _, rfl, _⟩ |
      ⟨taken, daemon, rfl, _, daemonStep, rfl⟩
  · exact own.elim
  · cases taken with
    | handle index choice =>
        obtain ⟨source, handler, rest, outcome, found, running, ran, _⟩ :=
          Daemon.handle_handles daemonStep
        obtain ⟨mine, others, here, transfer⟩ := own
        cases found.symm.trans here
        have carries := invariant.handlers handler running transfer
        rcases Handler.run_ram ran with same |
            ⟨session, written, block, after, stage, free, finished, ram, _⟩
        · exact absurd (by rw [show _ = _ from same]) changed
        · have touched : arc = written := by
            by_contra other
            apply changed
            change daemon.shared.ram.heap[arc]? = _
            rw [ram]
            simp [LocalRam.put, Ne.symm other]
          subst touched
          exact finWrite_applies stage carries free finished ram
    | receive source datagrams => exact own.elim
    | request event => exact own.elim
    | responded response => exact own.elim
    | clock now instant => exact own.elim

/-! Whole runs. -/

variable {start final : WriteState} {events : List WriteEvent}

theorem run_sound (valid : 0 < write.sender.udpPayloadBytes)
    (invariant : write.Invariant start)
    (ran : run write.step start events = some final) :
    write.Invariant final :=
  run_invariant write.Invariant
    (fun _ _ _ invariant stepped => step_invariant valid invariant stepped)
    invariant ran

theorem step_grows (invariant : write.Invariant state)
    (stepped : write.step state event = some next) :
    state.daemon.shared.ram.Grows next.daemon.shared.ram := by
  rcases step_cases stepped with ⟨_, _, _, _, _, _, rfl⟩ |
      ⟨_, daemon, _, _, daemonStep, rfl⟩
  · exact LocalRam.Grows.refl _
  · exact (Daemon.step_change daemonStep).grows invariant.sound

theorem run_grows (valid : 0 < write.sender.udpPayloadBytes)
    (invariant : write.Invariant start)
    (ran : run write.step start events = some final) :
    start.daemon.shared.ram.Grows final.daemon.shared.ram :=
  run_relates write.Invariant
    (fun earlier later =>
      earlier.daemon.shared.ram.Grows later.daemon.shared.ram)
    (fun _ => LocalRam.Grows.refl _) (fun _ _ _ => LocalRam.Grows.trans)
    (fun _ _ _ invariant stepped => step_invariant valid invariant stepped)
    (fun _ _ _ invariant stepped => step_grows invariant stepped)
    invariant ran

/-- The step at the end of `front` takes the run from `before` to `after`. -/
structure Happens (write : Write) (start final : WriteState)
    (events front : List WriteEvent) (event : WriteEvent)
    (before after : WriteState) : Prop where
  split : ∃ back, events = front ++ event :: back ∧
    run write.step after back = some final
  reached : run write.step start front = some before
  stepped : write.step before event = some after

theorem run_evidence (valid : 0 < write.sender.udpPayloadBytes)
    (invariant : write.Invariant start) (fresh : ¬write.Evidence start)
    (ran : run write.step start events = some final)
    (evidence : write.Evidence final) :
    ∃ front event before after arc,
      write.Happens start final events front event before after ∧
        write.OfTransfer before event ∧ write.Applies arc before after := by
  induction events using List.reverseRecOn generalizing final with
  | nil =>
      cases ran
      exact absurd evidence fresh
  | append_singleton rest event ih =>
      obtain ⟨middle, reached, stepped⟩ := run_snoc.mp ran
      rcases step_evidence valid (run_sound valid invariant reached) stepped
        evidence with evidence | ⟨own, arc, applies⟩
      · obtain ⟨front, earlier, before, after, arc,
          ⟨⟨back, split, continued⟩, reachedFront, steppedFront⟩, own,
          applies⟩ := ih reached evidence
        refine ⟨front, earlier, before, after, arc,
          ⟨⟨back ++ [event], by simp [split], ?_⟩, reachedFront,
            steppedFront⟩, own, applies⟩
        exact run_snoc.mpr ⟨middle, continued, stepped⟩
      · exact ⟨rest, event, middle, final, arc,
          ⟨⟨[], rfl, rfl⟩, reached, stepped⟩, own, applies⟩

theorem not_applies_after {arc : Arc} {before after later last : WriteState}
    (applies : write.Applies arc before after)
    (grows : after.daemon.shared.ram.Grows later.daemon.shared.ram) :
    ¬write.Applies arc later last := by
  intro given
  obtain ⟨⟨other, stored, _, _, _, written, _⟩, _⟩ := given
  obtain ⟨⟨block, _, _, _, _, _, _, extended⟩, nonempty⟩ := applies
  obtain ⟨grown, found, growth⟩ := grows arc _ extended
  cases found.symm.trans stored
  have longer := growth.written
  simp only [RamBlock.extend] at longer
  have positive := List.length_pos_iff.mpr nonempty
  omega

theorem not_applies_later (valid : 0 < write.sender.udpPayloadBytes)
    (invariant : write.Invariant start) {arc : Arc}
    {front more : List WriteEvent} {event : WriteEvent}
    {before after later last : WriteState}
    (reached : run write.step start front = some before)
    (stepped : write.step before event = some after)
    (applies : write.Applies arc before after)
    (continued : run write.step start (front ++ event :: more) =
      some later) : ¬write.Applies arc later last := by
  obtain ⟨middle, front, rest⟩ := run_append.mp continued
  cases reached.symm.trans front
  obtain ⟨next, again, rest⟩ := run_cons.mp rest
  cases stepped.symm.trans again
  have middleInvariant := run_sound valid invariant reached
  exact not_applies_after applies
    (run_grows valid (step_invariant valid middleInvariant stepped) rest)

theorem applies_unique (valid : 0 < write.sender.udpPayloadBytes)
    (invariant : write.Invariant start) {arc : Arc}
    {front front' : List WriteEvent} {event event' : WriteEvent}
    {before after before' after' : WriteState}
    (happens : write.Happens start final events front event before after)
    (applies : write.Applies arc before after)
    (happens' : write.Happens start final events front' event' before' after')
    (applies' : write.Applies arc before' after') :
    front' = front := by
  obtain ⟨⟨back, split, _⟩, reached, stepped⟩ := happens
  obtain ⟨⟨back', split', _⟩, reached', stepped'⟩ := happens'
  rcases List.append_eq_append_iff.mp (split.symm.trans split') with
    ⟨more, rfl, rest⟩ | ⟨more, rfl, rest⟩
  · cases more with
    | nil => simp
    | cons first more =>
        cases rest
        exact absurd applies' (not_applies_later valid invariant reached
          stepped applies reached')
  · cases more with
    | nil => simp
    | cons first more =>
        cases rest
        exact absurd applies (not_applies_later valid invariant reached'
          stepped' applies' reached)

theorem Fresh.invariant {daemon : Daemon} (fresh : write.Fresh daemon)
    (coherent : daemon.Coherent)
    (sound : daemon.shared.ram.Sound write.blake3) :
    write.Invariant ⟨.ready, [], daemon⟩ where
  emitted := nofun
  coherent := coherent
  sound := sound
  sessions := by
    intro key session owns stored
    simp [fresh.incoming key owns] at stored
  handlers := fun handler handles transfer =>
    absurd transfer (fresh.handlers handler handles)

theorem Fresh.started {setup : List DaemonEvent} {daemon : Daemon}
    (fresh : write.Fresh daemon)
    (started : run (Daemon.step write.receiver write.blake3 write.self)
      Daemon.empty setup = some daemon) :
    write.Invariant ⟨.ready, [], daemon⟩ := by
  have coherent : daemon.Coherent :=
    run_invariant Daemon.Coherent
      (fun _ _ _ coherent stepped => Daemon.step_coherent coherent stepped)
      Daemon.empty_coherent started
  exact fresh.invariant coherent
    (Daemon.run_sound LocalRam.empty_sound started)

theorem Fresh.not_evidence {daemon : Daemon} (fresh : write.Fresh daemon) :
    ¬write.Evidence ⟨.ready, [], daemon⟩ := by
  rintro (⟨key, offset, owns, found⟩ | ⟨handler, handles, transfer, _⟩ |
    ⟨packet, answered, transfer, complete⟩ | done)
  · simp [fresh.completed key offset owns] at found
  · exact fresh.handlers handler handles transfer
  · exact fresh.answers packet answered transfer complete
  · cases done

/-- A write that succeeds has extended the block of the receiver by exactly its
payload in exactly one step, whatever the network does. -/
theorem write_applied_once (valid : write.sender.Valid)
    (setup : List DaemonEvent) (events : List WriteEvent) {daemon : Daemon} {final : WriteState}
    (started : run (Daemon.step write.receiver write.blake3 write.self)
      Daemon.empty setup = some daemon)
    (fresh : write.Fresh daemon)
    (ran : run write.step ⟨.ready, [], daemon⟩ events = some final)
    (succeeded : final.phase = .returned (.ok ())) :
    ∃ front event before after arc,
      write.Happens ⟨.ready, [], daemon⟩ final events front event before
          after ∧
        write.OfTransfer before event ∧ write.Applies arc before after ∧
        ∀ front' event' before' after',
          write.Happens ⟨.ready, [], daemon⟩ final events front' event'
              before' after' →
            write.OfTransfer before' event' →
            after'.daemon.shared.ram.heap[arc]? ≠
              before'.daemon.shared.ram.heap[arc]? →
            front' = front := by
  have positive : 0 < write.sender.udpPayloadBytes := by
    have bound := valid.payload.1
    omega
  have invariant := fresh.started started
  obtain ⟨front, event, before, after, arc, happens, own, applies⟩ :=
    run_evidence positive invariant fresh.not_evidence ran
      (.inr (.inr (.inr succeeded)))
  refine ⟨front, event, before, after, arc, happens, own, applies, ?_⟩
  intro front' event' before' after' happens' own' changed
  have applies' := transfer_applies
    (run_sound positive invariant happens'.reached) own' happens'.stepped
    changed
  exact applies_unique positive invariant happens applies happens' applies'

/-! A write of three bytes, during which a datagram is repeated. -/

def abc : Write where
  request := abcWrite
  sender := {}
  address := 1
  destination := 50
  receiver := {}
  self := ⟨2, 20⟩
  blake3 := abcHash

def abcRun : List WriteEvent :=
  let start := abcWrite.startPacket {} abcHash
  let data := abcWrite.dataPacket {} 0
  let fin := abcWrite.finPacket {} abcHash
  [.sender .proceed, .sender .proceed, .daemon (.receive 1 [.ok start]),
    .daemon (.handle 0 {}), .daemon (.handle 0 {}), .daemon (.handle 0 {}),
    .daemon (.handle 0 {}),
    .sender (.receive 50
      [.ok (start.response .startAck (Bytes.toBigEndian 2 256))]),
    .sender .proceed, .sender .proceed, .daemon (.receive 1 [.ok data]),
    .daemon (.handle 1 {}), .daemon (.handle 1 {}), .daemon (.handle 1 {}),
    .sender (.receive 50 [.ok (data.response .ack
      (bitmapPayload 0 [true] 256))]),
    .sender .proceed, .sender .proceed, .sender .proceed, .sender .proceed,
    .daemon (.receive 1 [.ok fin]), .daemon (.receive 1 [.ok fin]),
    .daemon (.handle 2 {}), .daemon (.handle 2 {}), .daemon (.handle 2 {}),
    .daemon (.handle 2 {}), .daemon (.handle 2 {}), .daemon (.handle 2 {}),
    .daemon (.handle 2 {}), .daemon (.handle 2 {}),
    .sender (.receive 50 [.ok (fin.response .complete [])])]

def abcDaemon : Daemon :=
  { Daemon.empty with shared := {
      ram := {
        blocks := (∅ : Table Uuid Arc).insert 7 0
        heap := [⟨RamBlock.allocated abcHandle, none⟩] }
      udp := {} } }

theorem write_applied_once_abc :
    ∃ final,
      run (Daemon.step {} abcHash ⟨2, 20⟩) Daemon.empty
          [.request (.allocateLocal abcHandle true true)] =
            some abcDaemon ∧
        run abc.step ⟨.ready, [], abcDaemon⟩ abcRun = some final ∧
        final.phase = .returned (.ok ()) ∧
        ∃ front event before after arc,
          abc.Happens ⟨.ready, [], abcDaemon⟩ final abcRun front event before
              after ∧
            abc.OfTransfer before event ∧ abc.Applies arc before after ∧
            ∀ front' event' before' after',
              abc.Happens ⟨.ready, [], abcDaemon⟩ final abcRun front' event'
                  before' after' →
                abc.OfTransfer before' event' →
                after'.daemon.shared.ram.heap[arc]? ≠
                  before'.daemon.shared.ram.heap[arc]? →
                front' = front := by
  have started : run (Daemon.step {} abcHash ⟨2, 20⟩) Daemon.empty
      [.request (.allocateLocal abcHandle true true)] =
        some abcDaemon := rfl
  have done : (run abc.step ⟨.ready, [], abcDaemon⟩ abcRun).map (·.phase) =
      some (.returned (.ok ())) := by
    decide +kernel
  obtain ⟨final, ran, phase⟩ := Option.map_eq_some_iff.mp done
  have fresh : abc.Fresh abcDaemon :=
    ⟨fun _ _ => rfl, fun _ _ _ => rfl,
      by simp [Daemon.Handles, abcDaemon, Daemon.empty],
      by simp [abcDaemon, Daemon.empty]⟩
  exact ⟨final, started, ran, phase, write_applied_once
    Config.default_valid _ abcRun started fresh ran phase⟩

end Steps

end Write

end TrainPool
