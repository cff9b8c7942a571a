import TrainPool.Runtime.Udp
import TrainPool.Transport.Sender

namespace TrainPool

open Slice

/-! A session puts the payload of its sender back together, in whatever order
the pieces arrive and however often. -/

namespace IncomingSession

structure Assembles (pieceSize : Nat) (payload : List UInt8)
    (session : IncomingSession) : Prop where
  count : session.packetCount = divCeil payload.length pieceSize
  slots : session.received.length = session.packetCount
  counted : session.receivedCount = session.received.count true
  sized : session.buffer.length = payload.length
  agrees : ∀ sequence : Nat, session.received[sequence]? = some true →
    ∀ index, sequence * pieceSize ≤ index →
      index < sequence * pieceSize + pieceSize → index < payload.length →
        session.buffer[index]? = payload[index]?

theorem Assembles.complete {pieceSize : Nat} {payload : List UInt8}
    {session : IncomingSession} (positive : 0 < pieceSize)
    (assembles : session.Assembles pieceSize payload)
    (full : session.receivedCount = session.packetCount) :
    session.buffer = payload := by
  have all : ∀ received ∈ session.received, true = received := by
    rw [← List.count_eq_length, ← assembles.counted, full, assembles.slots]
  apply List.ext_getElem?
  intro index
  by_cases inside : index < payload.length
  · have bounds := div_mul_bounds positive index
    have slot : index / pieceSize < session.received.length := by
      rw [assembles.slots, assembles.count]
      exact div_lt_divCeil positive inside
    refine assembles.agrees (index / pieceSize) ?_ index bounds.1 bounds.2
      inside
    rw [List.getElem?_eq_getElem slot, all _ (List.getElem_mem slot)]
  · have sized := assembles.sized
    rw [List.getElem?_eq_none (by omega), List.getElem?_eq_none (by omega)]

end IncomingSession

namespace IncomingSession

theorem checkRange_ok {session : IncomingSession} {packet : Packet} :
    session.checkRange packet = .ok () ↔
      packet.sequenceId < session.packetCount ∧
        packet.offset = session.baseOffset +
          packet.sequenceId * session.payloadSize ∧
        packet.sequenceId * session.payloadSize + packet.payload.length ≤
          session.buffer.length := by
  unfold checkRange
  rw [ensure_bind_ok]
  simp only [ensure_bind_ok, ensure_ok]

/-- A packet is stored where its piece of the payload belongs.  Sender and
receiver may cut differently, if its piece starts at the same place for both. -/
theorem Assembles.store {pieceSize : Nat} {payload : List UInt8}
    {session : IncomingSession} {packet : Packet}
    (assembles : session.Assembles pieceSize payload)
    (passed : session.checkRange packet = .ok ())
    (fresh : session.isReceived packet.sequenceId = false)
    (aligned : packet.sequenceId * session.payloadSize =
      packet.sequenceId * pieceSize)
    (cut : packet.payload = pieceAt pieceSize payload packet.sequenceId) :
    (session.store packet).Assembles pieceSize payload := by
  obtain ⟨counted, _, fits⟩ := checkRange_ok.mp passed
  have slot : packet.sequenceId < session.received.length := by
    rw [assembles.slots]
    exact counted
  have unset : session.received[packet.sequenceId] = false := by
    simpa [isReceived, List.getD_eq_getElem?_getD,
      List.getElem?_eq_getElem slot] using fresh
  have sized := length_pieceAt pieceSize payload packet.sequenceId
  refine ⟨assembles.count, ?_, ?_, ?_, ?_⟩
  · simpa [IncomingSession.store] using assembles.slots
  · simp only [IncomingSession.store]
    rw [List.count_set slot, unset, assembles.counted]
    simp
  · simp only [IncomingSession.store]
    rw [length_overwrite fits]
    exact assembles.sized
  · intro other received index after before inside
    simp only [IncomingSession.store] at received ⊢
    rw [getElem?_overwrite fits, aligned, cut]
    by_cases written : packet.sequenceId * pieceSize ≤ index ∧
        index < packet.sequenceId * pieceSize +
          (pieceAt pieceSize payload packet.sequenceId).length
    · rw [if_pos written, getElem?_pieceAt written.1]
      rw [if_pos (by omega)]
    · rw [if_neg written]
      by_cases same : packet.sequenceId = other
      · -- The piece covers all of its range that the payload has.
        subst same
        omega
      · rw [List.getElem?_set_ne same] at received
        exact assembles.agrees other received index after before inside

structure Receives (config : Config) (request : SendPayload)
    (session : IncomingSession) : Prop where
  base : session.baseOffset = request.offset
  generation : session.generation = request.handle.generation
  assembles : session.Assembles config.udpPayloadBytes request.payload

section

variable {config : Config} {request : SendPayload}
  {session : IncomingSession}

theorem Receives.touch (receives : session.Receives config request)
    (instant : Nat) :
    ({ session with lastActivity := instant } : IncomingSession).Receives
      config request :=
  ⟨receives.base, receives.generation, receives.assembles.count,
    receives.assembles.slots, receives.assembles.counted,
    receives.assembles.sized, receives.assembles.agrees⟩

theorem Receives.store (receives : session.Receives config request)
    {sequence : Nat}
    (passed : session.checkRange (request.dataPacket config sequence) =
      .ok ())
    (fresh : session.isReceived
      (request.dataPacket config sequence).sequenceId = false) :
    (session.store (request.dataPacket config sequence)).Receives config
      request := by
  obtain ⟨base, generation, assembles⟩ := receives
  obtain ⟨_, offset, _⟩ := checkRange_ok.mp passed
  refine ⟨base, generation, assembles.store passed fresh ?_ rfl⟩
  simp only [SendPayload.dataPacket] at offset ⊢
  omega

theorem receiveData_receives (receives : session.Receives config request)
    {sequence instant window : Nat} :
    (session.receiveData instant window
      (request.dataPacket config sequence)).1.Receives config request := by
  unfold receiveData
  split
  · exact receives
  · have touched := receives.touch instant
    simp only
    split
    · exact touched
    · rename_i passed
      simp only
      split
      · exact touched
      · rename_i fresh
        exact touched.store passed (by simpa using fresh)

theorem receiveAll_receives (receives : session.Receives config request)
    {packets : List Packet}
    (cut : ∀ packet ∈ packets,
      ∃ sequence, packet = request.dataPacket config sequence) :
    (session.receiveAll packets).1.Receives config request := by
  induction packets generalizing session with
  | nil => exact receives
  | cons packet rest ih =>
      have cutRest : ∀ packet ∈ rest,
          ∃ sequence, packet = request.dataPacket config sequence :=
        fun packet member => cut packet (List.mem_cons_of_mem _ member)
      obtain ⟨sequence, rfl⟩ := cut packet (by simp)
      unfold receiveAll
      split
      · exact receives
      · rename_i checked
        obtain ⟨_, _, passed⟩ := bind_ok.mp checked
        split
        · exact ih receives cutRest
        · rename_i fresh
          exact ih (receives.store passed (by simpa using fresh)) cutRest

end

end IncomingSession

end TrainPool
