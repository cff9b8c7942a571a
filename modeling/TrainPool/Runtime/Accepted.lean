import TrainPool.Runtime.Incoming

namespace TrainPool

open Execution Slice

/-! The DATA packets that the sessions of a daemon accept, and what a session
makes of them. -/

namespace IncomingSession

def accepted (session : IncomingSession) : List Packet → List Packet
  | [] => []
  | packet :: rest =>
      match (do session.checkMetadata packet; session.checkRange packet) with
      | .error _ => []
      | .ok _ =>
          if session.isReceived packet.sequenceId then
            session.accepted rest
          else
            packet :: (session.store packet).accepted rest

end IncomingSession

namespace Handler

variable (config : Config) (source : SocketAddr) (instant : Nat)
  (udp : UdpServerState) (handler : Handler)

def stores : List Packet :=
  match handler.stage, udp.incoming.lookup (handler.packet.key source) with
  | .dataSession, some session => session.accepted [handler.packet]
  | .batchSession, some session =>
      session.accepted (handler.packet :: handler.rest)
  | _, _ => []

def Opens : Prop :=
  handler.stage = .startSession ∧
    handler.packet.key source ∉
      (udp.expireIncoming config instant).incoming

instance : Decidable (handler.Opens config source instant udp) :=
  inferInstanceAs (Decidable (_ ∧ _))

def record (log : SessionKey → List Packet) : SessionKey → List Packet :=
  let key := handler.packet.key source
  if handler.Opens config source instant udp then
    Function.update log key []
  else
    Function.update log key (log key ++ handler.stores source udp)

end Handler

namespace Daemon

variable (config : Config) (blake3 : List UInt8 → Digest) (self : Identity)

def record (daemon : Daemon) (event : DaemonEvent)
    (log : SessionKey → List Packet) : SessionKey → List Packet :=
  match event with
  | .handle index _ =>
      match daemon.running index with
      | some (source, handler) =>
          handler.record config source daemon.instant daemon.shared.udp log
      | none => log
  | _ => log

def accepted (daemon : Daemon) (log : SessionKey → List Packet) :
    List DaemonEvent → SessionKey → List Packet
  | [] => log
  | event :: rest =>
      match daemon.step config blake3 self event with
      | some next => next.accepted (daemon.record config event log) rest
      | none => log

end Daemon

structure Packet.CutFrom (config : Config) (request : SendPayload)
    (packet : Packet) : Prop where
  offset : packet.offset =
    request.offset + packet.sequenceId * config.udpPayloadBytes
  payload : packet.payload = request.piece config packet.sequenceId

theorem SendPayload.dataPacket_cutFrom (config : Config)
    (request : SendPayload) (sequence : Nat) :
    (request.dataPacket config sequence).CutFrom config request :=
  ⟨rfl, rfl⟩

namespace IncomingSession

/-- A sender that cuts its payload like the session, or that the session was
opened for. -/
def Suits (sender : Config) (request : SendPayload)
    (session : IncomingSession) : Prop :=
  sender.udpPayloadBytes = session.payloadSize ∨
    request.offset = session.baseOffset ∧
      request.packetCount sender = session.packetCount

/-- What a session makes of the packets that it has accepted, if they are those
of a payload of its length. -/
structure Restores (accepted : List Packet) (session : IncomingSession) :
    Prop where
  agrees : ∀ (sender : Config) (request : SendPayload),
    request.payload.length = session.buffer.length →
    session.Suits sender request →
    (∀ packet ∈ accepted, packet.CutFrom sender request) →
    ∀ sequence : Nat, session.received[sequence]? = some true →
      ∀ index, sequence * sender.udpPayloadBytes ≤ index →
        index < sequence * sender.udpPayloadBytes + sender.udpPayloadBytes →
        index < request.payload.length →
          session.buffer[index]? = request.payload[index]?
  complete : ∀ (sender : Config) (request : SendPayload),
    request.payload.length = session.buffer.length →
    session.Suits sender request →
    (∀ packet ∈ accepted, packet.CutFrom sender request) →
    session.receivedCount = session.packetCount →
      session.buffer = request.payload

/-- The packets that a session has accepted lie where it has put them, and are
put together if they are the pieces of a payload. -/
structure Keeps (accepted : List Packet) (session : IncomingSession) :
    Prop where
  placed : ∀ packet ∈ accepted, packet.offset =
    session.baseOffset + packet.sequenceId * session.payloadSize
  assembles : ∀ (pieceSize : Nat) (payload : List UInt8),
    payload.length = session.buffer.length →
    session.packetCount = divCeil payload.length pieceSize →
    (∀ packet ∈ accepted,
      packet.sequenceId * session.payloadSize =
          packet.sequenceId * pieceSize ∧
        packet.payload = pieceAt pieceSize payload packet.sequenceId) →
    session.Assembles pieceSize payload

section

variable {config : Config} {session : IncomingSession} {packet : Packet}
  {log : List Packet}

theorem Keeps.touch (keeps : session.Keeps log) (instant : Nat) :
    ({ session with lastActivity := instant } : IncomingSession).Keeps log := by
  refine ⟨keeps.placed, ?_⟩
  intro pieceSize payload sized count cut
  have assembles := keeps.assembles pieceSize payload sized count cut
  exact ⟨assembles.count, assembles.slots, assembles.counted,
    assembles.sized, assembles.agrees⟩

theorem Keeps.store (keeps : session.Keeps log)
    (passed : session.checkRange packet = .ok ())
    (fresh : session.isReceived packet.sequenceId = false) :
    (session.store packet).Keeps (log ++ [packet]) := by
  obtain ⟨_, offset, fits⟩ := checkRange_ok.mp passed
  have same : (session.store packet).buffer.length = session.buffer.length := by
    simp only [IncomingSession.store]
    exact length_overwrite fits
  refine ⟨?_, ?_⟩
  · intro other member
    rcases List.mem_append.mp member with old | new
    · exact keeps.placed other old
    · obtain rfl := List.mem_singleton.mp new
      exact offset
  · intro pieceSize payload sized count cut
    obtain ⟨aligned, piece⟩ := cut packet (by simp)
    exact (keeps.assembles pieceSize payload (sized.trans same) count
      fun other old => cut other (List.mem_append_left _ old)).store passed
        fresh aligned piece

theorem Keeps.receiveAll {packets : List Packet} (keeps : session.Keeps log) :
    (session.receiveAll packets).1.Keeps
      (log ++ session.accepted packets) := by
  induction packets generalizing session log with
  | nil => simpa [IncomingSession.receiveAll, accepted] using keeps
  | cons packet rest ih =>
      unfold IncomingSession.receiveAll accepted
      cases checked : (do
          session.checkMetadata packet
          session.checkRange packet : Result Unit) with
      | error fault => simpa using keeps
      | ok _ =>
          by_cases duplicate : session.isReceived packet.sequenceId = true
          · simpa only [if_pos duplicate] using ih keeps
          · have stored := keeps.store (checked_ok.mp checked).2
              (by simpa using duplicate)
            simpa [duplicate] using ih stored

theorem Keeps.receiveData {instant window : Nat} (keeps : session.Keeps log) :
    (session.receiveData instant window packet).1.Keeps
      (log ++ session.accepted [packet]) := by
  have touched := keeps.touch instant
  unfold IncomingSession.receiveData accepted
  cases metadata : session.checkMetadata packet with
  | error fault => simpa [bind, Except.bind] using keeps
  | ok _ =>
      simp only [bind, Except.bind]
      have same : IncomingSession.checkRange
          { session with lastActivity := instant } packet =
            session.checkRange packet := rfl
      rw [same]
      cases range : session.checkRange packet with
      | error fault => simpa using touched
      | ok _ =>
          simp only
          by_cases duplicate : session.isReceived packet.sequenceId = true
          · have again : IncomingSession.isReceived
                { session with lastActivity := instant } packet.sequenceId =
                  true := duplicate
            simpa [duplicate, again, accepted] using touched
          · have fresh : session.isReceived packet.sequenceId = false := by
              simpa using duplicate
            have again : IncomingSession.isReceived
                { session with lastActivity := instant } packet.sequenceId =
                  false := fresh
            simpa [fresh, again, accepted] using
              touched.store (same.trans range) again

end

end IncomingSession

def SessionsKeep (udp : UdpServerState) (log : SessionKey → List Packet) :
    Prop :=
  ∀ key session, udp.incoming.lookup key = some session →
    session.Keeps (log key)

section Steps

variable {config : Config} {blake3 : List UInt8 → Digest}
  {source : SocketAddr} {now instant : Nat} {choice : Choice}
  {shared next : Shared} {outcome : Outcome} {handler : Handler}
  {udp after : UdpServerState} {log : SessionKey → List Packet}

theorem SessionsKeep.mono (keeps : SessionsKeep udp log)
    (kept : ∀ key session, after.incoming.lookup key = some session →
      udp.incoming.lookup key = some session) : SessionsKeep after log :=
  fun key session found => keeps key session (kept key session found)

theorem SessionsKeep.erase (keeps : SessionsKeep udp log)
    (key : SessionKey) :
    SessionsKeep { udp with incoming := udp.incoming.erase key } log := by
  apply keeps.mono
  intro other session found
  rw [Table.lookup_erase_eq] at found
  split at found
  · cases found
  · exact found

theorem SessionsKeep.set (keeps : SessionsKeep udp log) {key : SessionKey}
    {session : IncomingSession} {packets : List Packet}
    (kept : session.Keeps packets) :
    SessionsKeep (udp.setSession key session)
      (Function.update log key packets) := by
  intro other found stored
  rw [UdpServerState.setSession, Table.lookup_insert_eq] at stored
  split at stored
  · rename_i same
    subst same
    cases stored
    rwa [Function.update_self]
  · rename_i different
    rw [Function.update_of_ne different]
    exact keeps other found stored

theorem opened_keeps (packet : Packet) (pieceSize instant : Nat) :
    IncomingSession.Keeps [] {
      object := packet.objectId
      lease := packet.leaseToken
      generation := packet.generation
      baseOffset := packet.offset
      blockSize := packet.totalSize
      payloadSize := pieceSize
      packetCount := packet.sequenceId
      checksum := packet.payload.drop 8
      buffer := List.replicate
        (Bytes.fromBigEndian (packet.payload.take 8)) 0
      received := List.replicate packet.sequenceId false
      receivedCount := 0
      lastSequence := none
      lastActivity := instant } := by
  refine ⟨by simp, ?_⟩
  intro size payload sized count _
  refine ⟨count, by simp, by simp [List.count_replicate], sized.symm, ?_⟩
  intro sequence received
  have unset := List.mem_of_getElem? received
  simp at unset

theorem Handler.record_of_stores_nil
    (idle : handler.stores source udp = [])
    (closed : ¬handler.Opens config source instant udp) :
    handler.record config source instant udp log = log := by
  unfold record
  simp only [if_neg closed, idle, List.append_nil, Function.update_eq_self]

theorem startSession_keeps {reserved : Bool} {packet : Packet}
    {rest : List Packet} (keeps : SessionsKeep udp log) :
    SessionsKeep
      (udp.startSession config instant reserved source packet).1
      (Handler.record config source instant udp
        ⟨packet, rest, .startSession⟩ log) := by
  have expired : SessionsKeep (udp.expireIncoming config instant) log :=
    keeps.mono fun _ _ stored => (Table.lookup_retain.mp stored).1
  unfold UdpServerState.startSession
  simp only
  by_cases present : packet.key source ∈
      (udp.expireIncoming config instant).incoming
  · rw [if_pos present, Handler.record_of_stores_nil rfl
      fun opens => opens.2 present]
    exact expired
  · have opens : Handler.Opens config source instant udp
        ⟨packet, rest, .startSession⟩ := ⟨rfl, present⟩
    have fresh : SessionsKeep (udp.expireIncoming config instant)
        (Function.update log (packet.key source) []) := by
      intro other session stored
      have different : other ≠ packet.key source := by
        rintro rfl
        exact present (AList.lookup_isSome.mp (by rw [stored]; rfl))
      rw [Function.update_of_ne different]
      exact expired other session stored
    rw [if_neg present, Handler.record, if_pos opens]
    split
    · exact fresh
    · split
      · exact fresh
      · exact expired.set (opened_keeps packet config.udpPayloadBytes instant)

theorem Handler.run_keeps (keeps : SessionsKeep shared.udp log)
    (ran : handler.run config blake3 source now instant choice shared =
      some (next, outcome)) :
    SessionsKeep next.udp
      (handler.record config source instant shared.udp log) := by
  obtain ⟨packet, rest, stage⟩ := handler
  by_cases starts : stage = .startSession
  · subst starts
    cases ran
    exact startSession_keeps keeps
  have closed : ¬Opens config source instant shared.udp
      ⟨packet, rest, stage⟩ := fun opens => starts opens.1
  by_cases single : stage = .dataSession
  · subst single
    simp only [run, runDataSession] at ran
    unfold record stores
    rw [if_neg closed]
    split at ran
    · rename_i absent
      cases ran
      simpa [absent] using keeps
    · rename_i session found
      cases ran
      simp only [found]
      exact keeps.set (keeps _ _ found).receiveData
  by_cases batch : stage = .batchSession
  · subst batch
    simp only [run, runBatchSession] at ran
    unfold record stores
    rw [if_neg closed]
    split at ran
    · rename_i absent
      cases ran
      simpa [absent] using keeps
    · rename_i session found
      have received : (session.receiveAll (packet :: rest)).1.Keeps
          (log (packet.key source) ++ session.accepted (packet :: rest)) :=
        (keeps _ _ found).receiveAll
      cases ran
      simp only [found]
      apply keeps.set
      split
      · exact received.touch instant
      · exact received
  have idle : stores source shared.udp ⟨packet, rest, stage⟩ = [] := by
    unfold stores
    split
    · exact absurd ‹_› single
    · exact absurd ‹_› batch
    · rfl
  rw [record_of_stores_nil idle closed]
  obtain ⟨ram, after⟩ := next
  cases run_changes ran with
  | same _ incoming _ =>
      apply keeps.mono
      intro key session found
      rwa [← incoming]
  | opened _ stage => exact absurd stage starts
  | stored _ _ stage => exact absurd stage (not_or.mpr ⟨single, batch⟩)
  | taken => exact keeps.erase _
  | released => exact keeps
  | aborted => exact keeps.erase _

end Steps

namespace Daemon

variable {config : Config} {blake3 : List UInt8 → Digest} {self : Identity}

theorem step_keeps {daemon next : Daemon} {event : DaemonEvent}
    {log : SessionKey → List Packet}
    (keeps : SessionsKeep daemon.shared.udp log)
    (stepped : daemon.step config blake3 self event = some next) :
    SessionsKeep next.shared.udp (daemon.record config event log) := by
  have idle : next.shared.udp.incoming = daemon.shared.udp.incoming →
      SessionsKeep next.shared.udp log := by
    intro same
    apply keeps.mono
    intro key session found
    rwa [← same]
  cases event with
  | receive source datagrams =>
      cases stepped
      exact idle rfl
  | handle index choice =>
      obtain ⟨source, handler, rest, outcome, found, _, ran, _⟩ :=
        handle_handles stepped
      rw [record, running_of_tasks found]
      exact Handler.run_keeps keeps ran
  | request event =>
      obtain ⟨ram, _, done⟩ := Option.bind_eq_some_iff.mp stepped
      cases done
      exact idle rfl
  | responded response =>
      simp only [step] at stepped
      split at stepped <;> cases stepped
      exact idle rfl
  | clock now instant =>
      simp only [step] at stepped
      split at stepped <;> cases stepped
      exact idle rfl

theorem run_keeps {events : List DaemonEvent} {daemon final : Daemon}
    {log : SessionKey → List Packet}
    (keeps : SessionsKeep daemon.shared.udp log)
    (ran : run (step config blake3 self) daemon events = some final) :
    SessionsKeep final.shared.udp
      (daemon.accepted config blake3 self log events) := by
  induction events generalizing daemon log with
  | nil =>
      cases ran
      exact keeps
  | cons event rest ih =>
      obtain ⟨next, stepped, ran⟩ := run_cons.mp ran
      rw [accepted, stepped]
      exact ih (step_keeps keeps stepped) ran

end Daemon

theorem IncomingSession.Keeps.assembled {config : Config}
    {session : IncomingSession} {log : List Packet}
    (keeps : session.Keeps log) (formed : session.WellFormed config)
    {sender : Config} {request : SendPayload}
    (sized : request.payload.length = session.buffer.length)
    (suits : session.Suits sender request)
    (cut : ∀ packet ∈ log, packet.CutFrom sender request) :
    session.Assembles sender.udpPayloadBytes request.payload := by
  refine keeps.assembles _ _ sized ?_ ?_
  · rcases suits with same | ⟨_, announced⟩
    · rw [formed.count, sized, same]
    · exact announced.symm
  · intro packet member
    obtain ⟨offset, payload⟩ := cut packet member
    refine ⟨?_, payload⟩
    rcases suits with same | ⟨base, _⟩
    · rw [same]
    · have placed := keeps.placed packet member
      omega

theorem IncomingSession.Suits.positive {config : Config}
    {session : IncomingSession} (formed : session.WellFormed config)
    (divisible : 0 < config.udpPayloadBytes) {sender : Config}
    {request : SendPayload} (suits : session.Suits sender request) :
    0 < sender.udpPayloadBytes := by
  rcases suits with same | ⟨_, announced⟩
  · rw [same, formed.pieces]
    exact divisible
  · rw [Nat.pos_iff_ne_zero]
    intro zero
    have some_ : 0 < session.packetCount := by
      rw [formed.count, formed.pieces]
      exact divCeil_pos divisible formed.positive
    rw [← announced, SendPayload.packetCount, zero, divCeil,
      Nat.div_zero] at some_
    cases some_

section Runs

/-- In every run, whatever the packets say, every incoming session is well
formed, its buffer agrees with the payload that its packets were cut from on
every packet that it has received, and is that payload when it has received
them all. -/
theorem incoming_sessions_restore (config : Config)
    (blake3 : List UInt8 → Digest) (self : Identity)
    (divisible : 0 < config.udpPayloadBytes) (events : List DaemonEvent)
    (daemon : Daemon)
    (ran : run (Daemon.step config blake3 self) Daemon.empty events =
      some daemon)
    (key : SessionKey) (session : IncomingSession)
    (found : daemon.shared.udp.incoming.lookup key = some session) :
    session.WellFormed config ∧
      session.Restores
        (Daemon.empty.accepted config blake3 self (fun _ => []) events
          key) := by
  have formed := (Daemon.run_formed Daemon.empty_formed ran).sessions key
    session found
  have fresh : SessionsKeep Daemon.empty.shared.udp fun _ => [] := by
    intro other absent stored
    simp [Daemon.empty] at stored
  have keeps := Daemon.run_keeps fresh ran key session found
  refine ⟨formed, ?_, ?_⟩
  · intro sender request sized suits cut
    exact (keeps.assembled formed sized suits cut).agrees
  · intro sender request sized suits cut full
    exact (keeps.assembled formed sized suits cut).complete
      (suits.positive formed divisible) full

/-- The write of `abc` in packets of two bytes, the last one first. -/
def abcBackwards : List DaemonEvent :=
  [.request (.allocateLocal abcHandle true true),
    .receive 1 [.ok (abcWrite.startPacket { udpPayloadBytes := 2 } abcHash)]]
      ++ List.replicate 4 (.handle 0 {}) ++
  [.receive 1 [.ok (abcWrite.dataPacket { udpPayloadBytes := 2 } 1),
    .ok (abcWrite.dataPacket { udpPayloadBytes := 2 } 0)]] ++
      List.replicate 2 (.handle 1 {})

theorem incoming_sessions_restore_abc :
    let config : Config := { udpPayloadBytes := 2 }
    ∃ daemon session,
      run (Daemon.step config abcHash ⟨2, 20⟩) Daemon.empty abcBackwards =
          some daemon ∧
        daemon.shared.udp.incoming.lookup ⟨1, 9, 7⟩ = some session ∧
        session.WellFormed config ∧ session.buffer = abcWrite.payload := by
  intro config
  have arrives : ((run (Daemon.step config abcHash ⟨2, 20⟩) Daemon.empty
      abcBackwards).bind (·.shared.udp.incoming.lookup ⟨1, 9, 7⟩)).map
        (fun session => (session.payloadSize, session.buffer.length,
          session.receivedCount, session.packetCount)) =
            some (2, 3, 2, 2) := by
    decide +kernel
  obtain ⟨session, held, sizes⟩ := Option.map_eq_some_iff.mp arrives
  obtain ⟨daemon, ran, found⟩ := Option.bind_eq_some_iff.mp held
  simp only [Prod.mk.injEq] at sizes
  obtain ⟨size, length, received, count⟩ := sizes
  have stored : Daemon.empty.accepted config abcHash ⟨2, 20⟩ (fun _ => [])
      abcBackwards ⟨1, 9, 7⟩ = [abcWrite.dataPacket config 1,
        abcWrite.dataPacket config 0] := by
    decide +kernel
  obtain ⟨formed, restores⟩ := incoming_sessions_restore config abcHash
    ⟨2, 20⟩ (by decide) abcBackwards daemon ran ⟨1, 9, 7⟩ session found
  refine ⟨daemon, session, ran, found, formed, ?_⟩
  refine restores.complete config abcWrite length.symm (.inl size.symm) ?_
    (received.trans count.symm)
  rw [stored]
  intro packet member
  simp only [List.mem_cons, List.not_mem_nil, or_false] at member
  rcases member with rfl | rfl
  · exact SendPayload.dataPacket_cutFrom config abcWrite 1
  · exact SendPayload.dataPacket_cutFrom config abcWrite 0

end Runs

end TrainPool
