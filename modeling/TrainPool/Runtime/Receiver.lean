import Mathlib.Data.List.MinMax
import TrainPool.Runtime.Link

namespace TrainPool

open Slice

@[simp] theorem Packet.response_payload (request : Packet) (kind : Kind)
    (payload : List UInt8) :
    (request.response kind payload).payload = payload :=
  rfl

@[simp] theorem SendPayload.dataPacket_sequenceId (config : Config)
    (request : SendPayload) (sequence : Nat) :
    (request.dataPacket config sequence).sequenceId = sequence :=
  rfl

section Serve

variable {config : Config} {blake3 : List UInt8 → Digest}
  {source : SocketAddr} {moment : Moment} {handler : Handler}
  {shared next : Shared} {fuel : Nat}

theorem Handler.complete_next (next : Shared) (stage : Stage)
    (ran : handler.run config blake3 source moment.now moment.instant
      moment.choice shared = some (next, .next stage)) :
    handler.complete config blake3 source moment (fuel + 1) shared =
      ({ handler with stage := stage } : Handler).complete config blake3
        source moment fuel next := by
  simp only [complete, ran, Option.bind_eq_bind, Option.bind_some]

theorem Handler.complete_answer {reply : Option Packet}
    (ran : handler.run config blake3 source moment.now moment.instant
      moment.choice shared = some (next, .answer reply)) :
    handler.complete config blake3 source moment (fuel + 1) shared =
      some (next, .answer reply) := by
  simp only [complete, ran, Option.bind_eq_bind, Option.bind_some]

theorem serve_answer {reply : Option Packet}
    (completed : handler.complete config blake3 source moment 8 shared =
      some (next, .answer reply)) :
    serve config blake3 source moment [handler] shared =
      some (next, reply.toList, []) := by
  simp [serve, completed, Outcome.replies, Outcome.responses]

theorem serve_reply {reply : Packet}
    (completed : handler.complete config blake3 source moment 8 shared =
      some (next, .answer (some reply))) :
    serve config blake3 source moment [handler] shared =
      some (next, [reply], []) :=
  serve_answer completed

theorem Handler.runBatchSession_of_takes {first : Packet}
    {rest : List Packet} {session taken : IncomingSession} {instant : Nat}
    (stored : shared.udp.incoming.lookup (first.key source) = some session)
    (takes : session.receiveAll (first :: rest) = (taken, .ok ())) :
    Handler.runBatchSession config source instant first rest shared =
      ({ shared with
          udp := shared.udp.setSession (first.key source)
            { taken with lastActivity := instant } },
        .answer (some ((rest.getLastD first).response .ack
          (({ taken with lastActivity := instant } :
            IncomingSession).ackPayload (rest.getLastD first).sequenceId
              config.udpWindowPackets)))) := by
  unfold Handler.runBatchSession
  rw [stored]
  simp only [takes]

theorem udpDatagrams_single (packet : Packet) :
    udpDatagrams [.ok packet] = [{ packet := packet }] := by
  simp [udpDatagrams]

theorem udpDatagrams_data (request : SendPayload) (sequence : Nat)
    {rest : List Nat} (several : rest ≠ []) :
    udpDatagrams (((sequence :: rest).map
        (request.dataPacket config)).map .ok) =
      [{ packet := request.dataPacket config sequence
         rest := rest.map (request.dataPacket config)
         stage := .batchCompleted }] := by
  have long : 1 < ((sequence :: rest).map
      (request.dataPacket config)).length := by
    cases rest with
    | nil => exact absurd rfl several
    | cons => simp
  unfold udpDatagrams
  rw [validPackets_ok, List.map_cons]
  simp only
  rw [if_pos]
  refine ⟨by simpa using long, all_isOk _, ?_⟩
  intro packet member
  rw [← List.map_cons] at member
  obtain ⟨other, _, rfl⟩ := List.mem_map.mp member
  exact ⟨rfl, rfl, rfl, rfl⟩

end Serve

namespace IncomingSession

def receivedSet (session : IncomingSession) : Set ℕ :=
  { sequence | session.isReceived sequence = true }

theorem receivedSet_store {session : IncomingSession} {packet : Packet}
    (inside : packet.sequenceId < session.received.length) :
    (session.store packet).receivedSet =
      insert packet.sequenceId session.receivedSet := by
  ext sequence
  simp only [receivedSet, isReceived, store, Set.mem_ofPred_eq,
    Set.mem_insert_iff, List.getD_eq_getElem?_getD]
  by_cases same : packet.sequenceId = sequence
  · subst same
    simp [inside]
  · simp [List.getElem?_set_ne same, Ne.symm same]

def after (session : IncomingSession) (instant : Nat) (packet : Packet) :
    IncomingSession :=
  if session.isReceived packet.sequenceId then
    { session with lastActivity := instant }
  else
    ({ session with lastActivity := instant } : IncomingSession).store packet

theorem after_packetCount (session : IncomingSession) (instant : Nat)
    (packet : Packet) :
    (session.after instant packet).packetCount = session.packetCount := by
  unfold after
  split <;> rfl

theorem after_lastActivity (session : IncomingSession) (instant : Nat)
    (packet : Packet) :
    (session.after instant packet).lastActivity = instant := by
  unfold after
  split <;> rfl

theorem receiveData_eq {session : IncomingSession} {packet : Packet}
    {instant window : Nat}
    (metadata : session.checkMetadata packet = .ok ())
    (range : session.checkRange packet = .ok ()) :
    session.receiveData instant window packet =
      (session.after instant packet, .ok
        (if session.isReceived packet.sequenceId ||
            (!session.isReceived packet.sequenceId &&
              session.outOfOrder packet) ||
            (session.after instant packet).receivedCount % 8 = 0 ||
            (session.after instant packet).receivedCount =
              (session.after instant packet).packetCount then
          some ((session.after instant packet).ackPayload packet.sequenceId
            window)
        else none)) := by
  have again : ({ session with lastActivity := instant } :
      IncomingSession).checkRange packet = .ok () := range
  unfold receiveData
  rw [metadata]
  simp only [again]
  rfl

/-- A packet that passes the checks is acknowledged at least when it is
repeated, at every eighth packet and at the last. -/
theorem receiveData_of_passes {session : IncomingSession} {packet : Packet}
    (instant window : Nat)
    (metadata : session.checkMetadata packet = .ok ())
    (range : session.checkRange packet = .ok ()) :
    ∃ reply, session.receiveData instant window packet =
        (session.after instant packet, .ok reply) ∧
      ((session.isReceived packet.sequenceId = true ∨
          session.outOfOrder packet = true ∨
          (session.after instant packet).receivedCount % 8 = 0 ∨
          (session.after instant packet).receivedCount =
            session.packetCount) ∧
        reply = some ((session.after instant packet).ackPayload
          packet.sequenceId window) ∨
        reply = none ∧ session.isReceived packet.sequenceId = false ∧
          (session.after instant packet).receivedCount % 8 ≠ 0 ∧
          (session.after instant packet).receivedCount ≠
            session.packetCount) := by
  refine ⟨_, receiveData_eq metadata range, ?_⟩
  rw [after_packetCount]
  split
  · rename_i answered
    refine .inl ⟨?_, rfl⟩
    simp only [Bool.or_eq_true, Bool.and_eq_true, decide_eq_true_eq] at answered
    tauto
  · rename_i silent
    refine .inr ⟨rfl, ?_⟩
    simp only [Bool.or_eq_true, not_or, decide_eq_true_eq,
      Bool.not_eq_true] at silent
    exact ⟨silent.1.1.1, silent.1.2, silent.2⟩

theorem report_ackPayload {session : IncomingSession} {packet : Packet}
    {sequence window : ℕ} (small : sequence < 2 ^ 32)
    (payload : packet.payload = session.ackPayload sequence window) :
    packet.report = { other | other ∈ session.receivedSet ∧
      other / ackBits = sequence / ackBits } := by
  obtain ⟨bitmap, parses, contains⟩ := parseBitmap_bitmapPayload
    ((List.range ackBits).map fun index =>
      session.isReceived (sequence / ackBits * ackBits + index)) window
    (Nat.lt_of_le_of_lt (Nat.div_mul_le_self sequence ackBits) small)
  have bounds := fun other : ℕ =>
    div_mul_bounds (show 0 < ackBits by decide) other
  have parsed : parseBitmap packet.payload = .ok
      (sequence / ackBits * ackBits, bitmap, min window 65535) := by
    rw [payload]
    exact parses
  ext other
  simp only [Packet.report, receivedSet, Set.mem_ofPred_eq]
  constructor
  · intro given
    obtain ⟨base, bits, offered, read, after, contained⟩ := given
    rw [parsed] at read
    cases read
    obtain ⟨inside, found⟩ := (contains _).mp contained
    rw [List.getElem?_map, List.getElem?_range inside] at found
    simp only [Option.map_some, Option.some.injEq] at found
    rw [Nat.add_sub_of_le after] at found
    refine ⟨found, ?_⟩
    have here := bounds other
    simp only [ackBits] at *
    omega
  · intro given
    obtain ⟨received, same⟩ := given
    have here := bounds other
    rw [same] at here
    refine ⟨_, bitmap, _, parsed, here.1, ?_⟩
    have inside : other - sequence / ackBits * ackBits < ackBits := by
      omega
    refine (contains _).mpr ⟨inside, ?_⟩
    rw [List.getElem?_map, List.getElem?_range inside]
    simp [Nat.add_sub_of_le here.1, received]

theorem ackPayload_parses {session : IncomingSession} {sequence window : ℕ}
    (small : sequence < 2 ^ 32) (fits : window ≤ 65535) :
    ∃ base bitmap, parseBitmap (session.ackPayload sequence window) =
      .ok (base, bitmap, window) := by
  obtain ⟨bitmap, parses, _⟩ := parseBitmap_bitmapPayload
    ((List.range ackBits).map fun index =>
      session.isReceived (sequence / ackBits * ackBits + index)) window
    (Nat.lt_of_le_of_lt (Nat.div_mul_le_self sequence ackBits) small)
  rw [Nat.min_eq_left fits] at parses
  exact ⟨_, bitmap, parses⟩

end IncomingSession

namespace Link

variable (link : Link)

/-- A write that its sender accepts, under a valid configuration. -/
structure Sendable : Prop where
  valid : link.config.Valid
  admissible : link.request.Admissible link.config
  write : link.request.readResponse = false

structure Serves (session : IncomingSession) : Prop where
  object : session.object = link.request.handle.jobId
  lease : session.lease = link.request.handle.leaseToken
  size : session.blockSize = link.request.handle.size
  pieces : session.payloadSize = link.config.udpPayloadBytes
  checksum : session.checksum = (link.blake3 link.request.payload).toList
  receives : session.Receives link.config link.request
  last : ∀ sequence, session.lastSequence = some sequence →
    sequence ∈ session.receivedSet

structure Receiving (shared : Shared) (instant : Nat)
    (session : IncomingSession) : Prop where
  holds : link.Holds shared.ram
  stored : shared.udp.incoming.lookup link.key = some session
  serves : link.Serves session
  patient : instant - session.lastActivity < incomingExpiryMs link.config
  uncompleted : shared.udp.completed.lookup
    (link.key, link.request.offset) = none
  earlier : ∀ entry ∈ shared.udp.completed.entries, entry.2 < instant

structure Finished (shared : Shared) (instant : Nat) : Prop where
  recorded : ∃ time, shared.udp.completed.lookup
    (link.key, link.request.offset) = some time ∧
      instant - time < completedExpiryMs
  leased : ∀ arc,
    shared.ram.blocks.lookup link.request.handle.id = some arc →
      ∀ cell : Cell, shared.ram.heap[arc]? = some cell →
        0 < cell.block.handle.leaseExpiresMs
  taken : shared.udp.incoming.lookup link.key = none

structure Takes (session next : IncomingSession) (sequence : ℕ)
    (replies : List Packet) : Prop where
  received : next.receivedSet = insert sequence session.receivedSet
  count : next.receivedCount = session.receivedCount +
    if session.isReceived sequence then 0 else 1
  replies : replies = [] ∧ sequence ∉ session.receivedSet ∧
      next.receivedCount % 8 ≠ 0 ∧ next.receivedCount ≠ link.packetCount ∨
    (sequence ∈ session.receivedSet ∨
        (∃ later ∈ session.receivedSet, sequence < later) ∨
        next.receivedCount % 8 = 0 ∨
        next.receivedCount = link.packetCount) ∧
      ∃ ack : Packet, replies = [ack] ∧
        ack.Acks link.request.transferId link.config.udpWindowPackets ∧
        ack.report = { other | other ∈ next.receivedSet ∧
          other / ackBits = sequence / ackBits }

section

variable {link} {shared : Shared} {instant : Nat} {moment : Moment}
  {session : IncomingSession}

theorem incomingExpiryMs_pos (config : Config) :
    0 < incomingExpiryMs config := by
  unfold incomingExpiryMs
  omega

theorem packetCount_lt (sendable : link.Sendable) :
    link.packetCount < 2 ^ 32 := by
  obtain ⟨_, small, _⟩ := sendable.admissible
  have chunk := sendable.valid.chunk
  have pieces := sendable.valid.payload
  have bounded : link.packetCount ≤
      link.request.payload.length + link.config.udpPayloadBytes - 1 :=
    Nat.div_le_self _ _
  omega

theorem Serves.slots (serves : link.Serves session) :
    session.received.length = link.packetCount := by
  rw [serves.receives.assembles.slots, serves.receives.assembles.count]
  rfl

theorem Serves.count (serves : link.Serves session) :
    session.packetCount = link.packetCount :=
  serves.receives.assembles.count

theorem Serves.touch (serves : link.Serves session) (instant : Nat) :
    link.Serves { session with lastActivity := instant } :=
  ⟨serves.object, serves.lease, serves.size, serves.pieces, serves.checksum,
    serves.receives.touch instant, serves.last⟩

theorem Serves.passes (serves : link.Serves session) {sequence : ℕ}
    (inside : sequence < link.packetCount) :
    session.checkMetadata (link.request.dataPacket link.config sequence) =
        .ok () ∧
      session.checkRange (link.request.dataPacket link.config sequence) =
        .ok () := by
  refine ⟨?_, ?_⟩
  · unfold IncomingSession.checkMetadata
    rw [ensure_ok]
    exact ⟨serves.object.symm, serves.lease.symm,
      serves.receives.generation.symm, serves.size.symm⟩
  · rw [IncomingSession.checkRange_ok, serves.count, serves.pieces,
      serves.receives.base, serves.receives.assembles.sized]
    refine ⟨inside, rfl, ?_⟩
    have start : sequence * link.config.udpPayloadBytes ≤
        link.request.payload.length := by
      by_cases positive : 0 < link.config.udpPayloadBytes
      · exact (mul_lt_of_lt_divCeil positive inside).le
      · simp [Nat.eq_zero_of_not_pos positive]
    simp only [SendPayload.dataPacket, SendPayload.piece]
    rw [length_slice _ _ _ (Nat.min_le_right _ _)]
    omega

theorem Serves.store (serves : link.Serves session) {sequence : ℕ}
    (inside : sequence < link.packetCount)
    (fresh : session.isReceived sequence = false) :
    link.Serves
      (session.store (link.request.dataPacket link.config sequence)) := by
  refine ⟨serves.object, serves.lease, serves.size, serves.pieces,
    serves.checksum,
    serves.receives.store (serves.passes inside).2 fresh, ?_⟩
  intro other stored
  have slots := serves.slots
  cases stored
  rw [IncomingSession.receivedSet_store (slots ▸ inside)]
  exact Set.mem_insert _ _

@[simp] theorem key_dataPacket (sequence : ℕ) :
    (link.request.dataPacket link.config sequence).key link.address =
      link.key :=
  rfl

theorem completedBase_dataPacket (sequence : ℕ) :
    completedBase link.config
        (link.request.dataPacket link.config sequence) =
      some link.request.offset := by
  have ahead : sequence * link.config.udpPayloadBytes ≤
      link.request.offset + sequence * link.config.udpPayloadBytes := by
    omega
  unfold completedBase
  simp only
  refine (if_pos ahead).trans ?_
  exact congrArg some (Nat.add_sub_cancel _ _)

theorem isCompleted_dataPacket {udp : UdpServerState}
    (uncompleted : udp.completed.lookup (link.key, link.request.offset) =
      none) (sequence : ℕ) :
    udp.isCompleted link.config link.address
      (link.request.dataPacket link.config sequence) = false := by
  simp only [UdpServerState.isCompleted, completedBase_dataPacket]
  exact congrArg Option.isSome uncompleted

theorem Receiving.age (receiving : link.Receiving shared instant session)
    (moment : Nat) :
    link.Receiving { shared with udp := shared.udp.ageCompleted moment }
      instant session :=
  ⟨receiving.holds, receiving.stored, receiving.serves, receiving.patient,
    Table.lookup_retain_none receiving.uncompleted,
    fun entry member => receiving.earlier entry
      (List.mem_of_mem_filter member)⟩

theorem Receiving.update {next : IncomingSession}
    (receiving : link.Receiving shared instant session)
    (later : instant ≤ moment.instant) (serves : link.Serves next)
    (active : next.lastActivity = moment.instant) :
    link.Receiving
      { shared with udp := shared.udp.setSession link.key next }
      moment.instant next :=
  ⟨receiving.holds, AList.lookup_insert _, serves, by
      rw [active, Nat.sub_self]
      exact incomingExpiryMs_pos _,
    receiving.uncompleted,
    fun entry member => (receiving.earlier entry member).trans_le later⟩

theorem Serves.after (serves : link.Serves session) (instant : Nat)
    {sequence : ℕ} (inside : sequence < link.packetCount) :
    link.Serves (session.after instant
      (link.request.dataPacket link.config sequence)) := by
  unfold IncomingSession.after
  split
  · exact serves.touch instant
  · rename_i fresh
    exact (serves.touch instant).store inside ((Bool.not_eq_true _).mp fresh)

theorem Serves.receivedSet_after (serves : link.Serves session)
    (instant : Nat) {sequence : ℕ} (inside : sequence < link.packetCount) :
    (session.after instant
        (link.request.dataPacket link.config sequence)).receivedSet =
      insert sequence session.receivedSet := by
  unfold IncomingSession.after
  split
  · rename_i known
    exact (Set.insert_eq_of_mem (show sequence ∈ session.receivedSet from
      known)).symm
  · refine IncomingSession.receivedSet_store ?_
    have slots := serves.slots
    exact slots ▸ inside

theorem Serves.takes (sendable : link.Sendable)
    (serves : link.Serves session) (instant : Nat) {sequence : ℕ}
    (inside : sequence < link.packetCount) :
    ∃ reply, session.receiveData instant link.config.udpWindowPackets
        (link.request.dataPacket link.config sequence) =
          (session.after instant
            (link.request.dataPacket link.config sequence), .ok reply) ∧
      link.Takes session (session.after instant
          (link.request.dataPacket link.config sequence)) sequence
        (reply.map ((link.request.dataPacket link.config sequence).response
          .ack)).toList := by
  obtain ⟨metadata, range⟩ := serves.passes inside
  have small : sequence < 2 ^ 32 := inside.trans (packetCount_lt sendable)
  have window : link.config.udpWindowPackets ≤ 65535 := by
    have := sendable.valid.window
    omega
  obtain ⟨reply, ran, answered⟩ := IncomingSession.receiveData_of_passes
    instant link.config.udpWindowPackets metadata range
  refine ⟨reply, ran, serves.receivedSet_after instant inside, ?_, ?_⟩
  · unfold IncomingSession.after
    change IncomingSession.receivedCount
      (if session.isReceived sequence = true then _ else _) = _
    split <;> rfl
  · rw [SendPayload.dataPacket_sequenceId] at answered
    rcases answered with ⟨reason, rfl⟩ | ⟨rfl, fresh, eighth, last⟩
    · right
      rw [serves.count] at reason
      refine ⟨?_, ?_⟩
      · rcases reason with known | later | counted
        · exact .inl known
        · refine .inr (.inl ?_)
          obtain ⟨other, stored, before⟩ :=
            (Option.any_eq_true _ _).mp later
          exact ⟨other, serves.last other stored, of_decide_eq_true before⟩
        · exact .inr (.inr counted)
      rw [Option.map_some, Option.toList_some]
      refine ⟨_, rfl, ⟨rfl, rfl, ?_⟩, ?_⟩
      · rw [Packet.response_payload]
        exact IncomingSession.ackPayload_parses small window
      · exact IncomingSession.report_ackPayload small
          (Packet.response_payload _ _ _)
    · left
      refine ⟨rfl, ?_, eighth, ?_⟩
      · intro known
        exact absurd (show session.isReceived sequence = true from known)
          (by simp [fresh])
      · rw [← serves.count]
        exact last

theorem Receiving.data_complete (sendable : link.Sendable)
    (receiving : link.Receiving shared instant session)
    (later : instant ≤ moment.instant) {sequence : ℕ}
    (inside : sequence < link.packetCount) :
    ∃ shared' session' reply,
      ({ packet := link.request.dataPacket link.config sequence } :
        Handler).complete link.config link.blake3 link.address moment 8
          shared = some (shared', .answer reply) ∧
      shared'.ram = shared.ram ∧
      link.Receiving shared' moment.instant session' ∧
      link.Takes session session' sequence reply.toList := by
  have aged := receiving.age moment.instant
  obtain ⟨reply, ran, takes⟩ :=
    receiving.serves.takes sendable moment.instant inside
  have served := receiving.serves.after moment.instant inside
  refine ⟨_, _, _, ?_, ?_, aged.update later served
    (IncomingSession.after_lastActivity _ _ _), takes⟩
  · rw [Handler.complete_next _ .dataCompleted rfl,
      Handler.complete_next
        { shared with udp := shared.udp.ageCompleted moment.instant }
        .dataSession]
    · apply Handler.complete_answer
      simp only [Handler.run, Handler.runDataSession, key_dataPacket,
        aged.stored, ran]
    · simp only [Handler.run]
      rw [isCompleted_dataPacket aged.uncompleted]
      rfl
  · rfl

theorem Receiving.data (sendable : link.Sendable)
    (receiving : link.Receiving shared instant session)
    (later : instant ≤ moment.instant) {sequence : ℕ}
    (inside : sequence < link.packetCount) :
    ∃ shared' session' replies,
      serve link.config link.blake3 link.address moment (udpDatagrams
          [.ok (link.request.dataPacket link.config sequence)]) shared =
        some (shared', replies, []) ∧
      link.Receiving shared' moment.instant session' ∧
      link.Takes session session' sequence replies := by
  obtain ⟨shared', session', reply, completed, _, receiving', takes⟩ :=
    receiving.data_complete sendable later inside
  refine ⟨shared', session', reply.toList, ?_, receiving', takes⟩
  rw [udpDatagrams_single]
  exact serve_answer completed

theorem Serves.receiveAll (serves : link.Serves session)
    {sequences : List ℕ}
    (inside : ∀ sequence ∈ sequences, sequence < link.packetCount) :
    ∃ next, session.receiveAll
        (sequences.map (link.request.dataPacket link.config)) =
          (next, .ok ()) ∧
      link.Serves next ∧
      next.receivedSet =
        session.receivedSet ∪ { sequence | sequence ∈ sequences } := by
  induction sequences generalizing session with
  | nil => exact ⟨session, rfl, serves, by simp⟩
  | cons sequence rest ih =>
      have here : sequence < link.packetCount :=
        inside sequence List.mem_cons_self
      have there : ∀ sequence ∈ rest, sequence < link.packetCount :=
        fun sequence member =>
          inside sequence (List.mem_cons_of_mem _ member)
      obtain ⟨metadata, range⟩ := serves.passes here
      have checked : (do
          session.checkMetadata (link.request.dataPacket link.config sequence)
          session.checkRange
            (link.request.dataPacket link.config sequence)) = .ok () := by
        rw [metadata]
        exact range
      have whole : { other | other ∈ sequence :: rest } =
          insert sequence { other | other ∈ rest } := by
        ext other
        simp
      rw [List.map_cons, IncomingSession.receiveAll, checked, whole]
      cases known : session.isReceived sequence with
      | true =>
          obtain ⟨next, ran, served, received⟩ := ih serves there
          refine ⟨next, ?_, served, ?_⟩
          · simp only [SendPayload.dataPacket_sequenceId, known, if_true]
            exact ran
          · rw [received, Set.union_insert, Set.insert_eq_of_mem]
            exact .inl known
      | false =>
          obtain ⟨next, ran, served, received⟩ :=
            ih (serves.store here known) there
          refine ⟨next, ?_, served, ?_⟩
          · simp only [SendPayload.dataPacket_sequenceId, known,
              Bool.false_eq_true, if_false]
            exact ran
          · have slots := serves.slots
            rw [received, IncomingSession.receivedSet_store (by
              rw [slots]
              exact here), Set.insert_union, Set.union_insert]
            rfl

/-- The daemon handles DATA packets that arrive together: it acknowledges the
block of the last. -/
theorem Receiving.batch (sendable : link.Sendable)
    (receiving : link.Receiving shared instant session)
    (later : instant ≤ moment.instant) {first : ℕ} {rest : List ℕ}
    (several : rest ≠ [])
    (inside : ∀ sequence ∈ first :: rest, sequence < link.packetCount) :
    ∃ shared' session' ack,
      serve link.config link.blake3 link.address moment (udpDatagrams
          (((first :: rest).map
            (link.request.dataPacket link.config)).map .ok)) shared =
        some (shared', [ack], []) ∧
      link.Receiving shared' moment.instant session' ∧
      session'.receivedSet =
        session.receivedSet ∪ { sequence | sequence ∈ first :: rest } ∧
      ack.Acks link.request.transferId link.config.udpWindowPackets ∧
      ack.report = { other | other ∈ session'.receivedSet ∧
        other / ackBits = rest.getLastD first / ackBits } := by
  obtain ⟨next, ran, served, received⟩ := receiving.serves.receiveAll inside
  have last : (rest.map (link.request.dataPacket link.config)).getLastD
      (link.request.dataPacket link.config first) =
        link.request.dataPacket link.config (rest.getLastD first) := by
    rw [List.getLastD_eq_getLast?, List.getLastD_eq_getLast?,
      List.getLast?_map]
    cases rest.getLast? <;> rfl
  have within : rest.getLastD first < link.packetCount := by
    apply inside
    cases rest with
    | nil => exact absurd rfl several
    | cons second rest =>
        rw [List.getLastD_cons]
        exact List.mem_cons_of_mem _ List.getLastD_mem_cons
  have small : rest.getLastD first < 2 ^ 32 :=
    within.trans (packetCount_lt sendable)
  have window : link.config.udpWindowPackets ≤ 65535 := by
    have := sendable.valid.window
    omega
  let session' : IncomingSession :=
    { next with lastActivity := moment.instant }
  refine ⟨{ shared with udp := shared.udp.setSession link.key session' },
    session',
    (link.request.dataPacket link.config (rest.getLastD first)).response .ack
      (session'.ackPayload (rest.getLastD first)
        link.config.udpWindowPackets), ?_,
    receiving.update later (served.touch moment.instant) rfl, received,
    ⟨rfl, rfl, ?_⟩, ?_⟩
  · rw [udpDatagrams_data _ _ several]
    refine serve_reply ?_
    rw [Handler.complete_next shared .batchSession]
    · refine Handler.complete_answer ?_
      simp only [Handler.run]
      have stored : shared.udp.incoming.lookup
          ((link.request.dataPacket link.config first).key link.address) =
            some session := receiving.stored
      rw [Handler.runBatchSession_of_takes stored ran, last,
        key_dataPacket, SendPayload.dataPacket_sequenceId]
    · simp only [Handler.run]
      rw [isCompleted_dataPacket receiving.uncompleted]
      rfl
  · rw [Packet.response_payload]
    exact IncomingSession.ackPayload_parses small window
  · exact IncomingSession.report_ackPayload small
      (Packet.response_payload _ _ _)

theorem Serves.receivedCount_of_prefix (serves : link.Serves session)
    {count : ℕ} (inside : count ≤ link.packetCount)
    (received : session.receivedSet = { sequence | sequence < count }) :
    session.receivedCount = count := by
  have slots := serves.slots
  have bits : session.received = List.replicate count true ++
      List.replicate (link.packetCount - count) false := by
    apply List.ext_getElem
    · simp only [List.length_append, List.length_replicate, slots]
      omega
    · intro index within _
      have member : session.isReceived index = true ↔ index < count := by
        have := Set.ext_iff.mp received index
        exact this
      unfold IncomingSession.isReceived at member
      rw [List.getD_eq_getElem?_getD, List.getElem?_eq_getElem within,
        Option.getD_some] at member
      rw [List.getElem_append]
      split
      · rename_i before
        rw [List.getElem_replicate]
        exact member.mpr (by simpa using before)
      · rename_i after
        rw [List.getElem_replicate]
        rw [List.length_replicate] at after
        exact Bool.eq_false_iff.mpr (mt member.mp after)
  rw [serves.receives.assembles.counted, bits]
  simp [List.count_replicate]

theorem Receiving.run (sendable : link.Sendable)
    (receiving : link.Receiving shared instant session)
    (later : instant ≤ moment.instant) {start count : ℕ}
    (positive : 0 < count) (inside : start + count ≤ link.packetCount)
    (received : session.receivedSet = { sequence | sequence < start }) :
    ∃ shared' session' replies,
      serve link.config link.blake3 link.address moment (udpDatagrams
          (((List.range' start count).map
            (link.request.dataPacket link.config)).map .ok)) shared =
        some (shared', replies, []) ∧
      link.Receiving shared' moment.instant session' ∧
      session'.receivedSet = { sequence | sequence < start + count } ∧
      ((replies = [] ∧ count = 1 ∧ (start + count) % 8 ≠ 0 ∧
          start + count ≠ link.packetCount) ∨
        ((start + count) % 8 = 0 ∨ start + count = link.packetCount ∨
          1 < count) ∧
        ∃ ack : Packet, replies = [ack] ∧
          ack.Acks link.request.transferId link.config.udpWindowPackets ∧
          ack.report = { sequence | sequence < start + count ∧
            sequence / ackBits = (start + count - 1) / ackBits }) := by
  rcases Nat.eq_or_lt_of_le positive with single | several
  · subst single
    have fresh : start ∉ session.receivedSet := by
      rw [received]
      exact Nat.lt_irrefl start
    obtain ⟨shared', session', replies, served, receiving', takes⟩ :=
      receiving.data sendable later
        (show start < link.packetCount by omega)
    have grown : session'.receivedSet =
        { sequence | sequence < start + 1 } := by
      rw [takes.received, received]
      ext sequence
      simp only [Set.mem_insert_iff, Set.mem_ofPred_eq]
      omega
    have counted : session'.receivedCount = start + 1 :=
      receiving'.serves.receivedCount_of_prefix inside grown
    refine ⟨shared', session', replies, served, receiving', grown, ?_⟩
    rcases takes.replies with ⟨silent, _, eighth, last⟩ |
      ⟨reason, ack, replied, acks, report⟩
    · rw [counted] at eighth last
      exact .inl ⟨silent, rfl, eighth, last⟩
    · rw [counted] at reason
      refine .inr ⟨?_, ack, replied, acks, ?_⟩
      · rcases reason with known | ⟨other, known, after⟩ | eighth | last
        · exact absurd known fresh
        · rw [received, Set.mem_ofPred_eq] at known
          omega
        · exact .inl eighth
        · exact .inr (.inl last)
      · rw [report, grown]
        rfl
  · obtain ⟨rest, rfl⟩ : ∃ rest, count = rest + 1 :=
      ⟨count - 1, by omega⟩
    have whole : List.range' start (rest + 1) =
        start :: List.range' (start + 1) rest := List.range'_succ ..
    have several' : List.range' (start + 1) rest ≠ [] := by
      rw [List.range'_ne_nil_iff]
      omega
    have last : (List.range' (start + 1) rest).getLastD start =
        start + (rest + 1) - 1 := by
      obtain ⟨more, rfl⟩ : ∃ more, rest = more + 1 := ⟨rest - 1, by omega⟩
      rw [List.range'_concat, List.getLastD_concat]
      omega
    obtain ⟨shared', session', ack, served, receiving', grown, acks,
      report⟩ := receiving.batch sendable later several' (by
        rw [← whole]
        intro sequence member
        have := List.mem_range'_1.mp member
        omega)
    rw [← whole] at served grown
    have grown' : session'.receivedSet =
        { sequence | sequence < start + (rest + 1) } := by
      rw [grown, received]
      ext sequence
      simp only [Set.mem_union, Set.mem_ofPred_eq, List.mem_range'_1]
      omega
    refine ⟨shared', session', [ack], served, receiving', grown',
      .inr ⟨.inr (.inr several), ack, rfl, acks, ?_⟩⟩
    rw [report, grown', last]
    rfl

theorem Accepts.admits {block : RamBlock} (accepts : link.Accepts block)
    {now : Nat} (live : now < block.handle.leaseExpiresMs) :
    block.admitUdp now (link.request.startPacket link.config link.blake3) =
      .ok () := by
  simp only [RamBlock.admitUdp, RamBlock.authorize, bind_ok, ensure_ok]
  exact ⟨(), ⟨(), accepts.token.symm, live⟩, accepts.job,
    accepts.generation, accepts.size, accepts.writing, accepts.written⟩

theorem length_startPayload (link : Link) :
    (link.request.startPacket link.config link.blake3).payload.length =
      40 := by
  simp [SendPayload.startPacket]

theorem startPacket_length (link : Link) :
    Bytes.fromBigEndian ((link.request.startPacket link.config
      link.blake3).payload.take 8) = link.request.payload.length := by
  have head : (link.request.startPacket link.config
      link.blake3).payload.take 8 =
        Bytes.toBigEndian 8 link.request.payload.length := by
    simp only [SendPayload.startPacket]
    exact List.take_left' (Bytes.length_toBigEndian 8 _)
  rw [head]
  exact Bytes.fromBigEndian_toBigEndian link.request.bounded

theorem Sendable.checkStart (sendable : link.Sendable) :
    checkStart link.config
      (link.request.startPacket link.config link.blake3) = .ok () := by
  obtain ⟨nonempty, small, fits⟩ := sendable.admissible
  unfold TrainPool.checkStart
  simp only [ensure_bind_ok, ensure_ok, startPacket_length]
  refine ⟨length_startPayload link, ⟨?_, small⟩, rfl, fits⟩
  exact List.length_pos_iff.mpr nonempty

theorem flags_eq_zero (sendable : link.Sendable) :
    link.request.flags = 0 := by
  simp [SendPayload.flags, sendable.write]

def startAck (link : Link) : Packet :=
  (link.request.startPacket link.config link.blake3).response .startAck
    (Bytes.toBigEndian 2 (min link.config.udpWindowPackets ackBits))

theorem complete_start {next : Shared} (sendable : link.Sendable)
    (holds : link.Holds shared.ram) (timely : link.Timely shared moment)
    (ran : (shared.udp.ageCompleted moment.instant).startSession link.config
      moment.instant moment.choice.reserved link.address
      (link.request.startPacket link.config link.blake3) =
        (next.udp, .ok ())) (same : next.ram = shared.ram) :
    ({ packet := link.request.startPacket link.config link.blake3 } :
      Handler).complete link.config link.blake3 link.address moment 8
        shared = some (next, .answer (some link.startAck)) := by
  obtain ⟨arc, block, found, free, accepts⟩ := holds
  have live := timely.lease arc found _ free
  have plain : (link.request.startPacket link.config link.blake3).flags =
      0 := flags_eq_zero sendable
  have got : shared.ram.get
      (link.request.startPacket link.config link.blake3).blockId =
        .ok arc := LocalRam.get_ok.mpr found
  let aged : Shared :=
    { shared with udp := shared.udp.ageCompleted moment.instant }
  rw [Handler.complete_next aged .startBlock,
    Handler.complete_next aged (.startLock arc),
    Handler.complete_next aged .startSession]
  · apply Handler.complete_answer
    simp only [Handler.run, Handler.runStartSession, aged, ran]
    rw [← same]
    rfl
  · simp only [Handler.run, aged, LocalRam.lock?, free,
      Option.bind_eq_bind, Option.bind_some, accepts.admits live]
    rfl
  · simp only [Handler.run, aged, got]
    rfl
  · have kind : (link.request.startPacket link.config link.blake3).kind =
        .start := rfl
    simp only [Handler.run, Handler.dispatch, kind, plain, if_true,
      sendable.checkStart]
    rfl

def opened (link : Link) (instant : Nat) : IncomingSession where
  object := link.request.handle.jobId
  lease := link.request.handle.leaseToken
  generation := link.request.handle.generation
  baseOffset := link.request.offset
  blockSize := link.request.handle.size
  payloadSize := link.config.udpPayloadBytes
  packetCount := link.packetCount
  checksum := (link.blake3 link.request.payload).toList
  buffer := List.replicate link.request.payload.length 0
  received := List.replicate link.packetCount false
  receivedCount := 0
  lastSequence := none
  lastActivity := instant

theorem opened_serves (link : Link) (instant : Nat) :
    link.Serves (link.opened instant) := by
  refine ⟨rfl, rfl, rfl, rfl, rfl, ⟨rfl, rfl, rfl, ?_, ?_, ?_, ?_⟩, nofun⟩
  · exact List.length_replicate
  · simp [opened, List.count_replicate]
  · exact List.length_replicate
  · intro sequence received
    simp [opened, List.getElem?_replicate] at received

theorem opened_receivedSet (link : Link) (instant : Nat) :
    (link.opened instant).receivedSet = ∅ := by
  ext sequence
  simp only [IncomingSession.receivedSet, IncomingSession.isReceived, opened,
    Set.mem_ofPred_eq, Set.mem_empty_iff_false, iff_false,
    List.getD_eq_getElem?_getD, List.getElem?_replicate]
  split <;> simp

theorem drop_startPayload (link : Link) :
    (link.request.startPacket link.config link.blake3).payload.drop 8 =
      (link.blake3 link.request.payload).toList := by
  simp only [SendPayload.startPacket]
  exact List.drop_left' (Bytes.length_toBigEndian 8 _)

theorem lookup_expireIncoming {udp : UdpServerState} {config : Config}
    {key : SessionKey}
    (absent : udp.incoming.lookup key = none) :
    key ∉ (udp.expireIncoming config instant).incoming := by
  rw [← AList.lookup_eq_none]
  exact Table.lookup_retain_none absent

theorem Ready.start_complete (sendable : link.Sendable)
    (ready : link.Ready shared instant)
    (later : instant ≤ moment.instant)
    (timely : link.Timely shared moment)
    (reserved : moment.choice.reserved = true) :
    ∃ shared' session,
      ({ packet := link.request.startPacket link.config link.blake3 } :
        Handler).complete link.config link.blake3 link.address moment 8
          shared = some (shared', .answer (some link.startAck)) ∧
      shared'.ram = shared.ram ∧
      link.Receiving shared' moment.instant session ∧
      session.receivedSet = ∅ := by
  let aged := shared.udp.ageCompleted moment.instant
  let udp : UdpServerState := { aged.expireIncoming link.config
      moment.instant with
    incoming := (aged.expireIncoming link.config
      moment.instant).incoming.insert link.key (link.opened moment.instant) }
  have absent : (link.request.startPacket link.config link.blake3).key
      link.address ∉
        (aged.expireIncoming link.config moment.instant).incoming :=
    lookup_expireIncoming ready.fresh
  have room : (aged.expireIncoming link.config
      moment.instant).incoming.size < link.config.udpMaxSessions :=
    Nat.lt_of_le_of_lt (List.length_filter_le _ _) ready.room
  have ran : aged.startSession link.config moment.instant
      moment.choice.reserved link.address
      (link.request.startPacket link.config link.blake3) =
        (udp, .ok ()) := by
    unfold UdpServerState.startSession
    simp only [if_neg absent, if_neg (not_not.mpr room), reserved,
      not_true_eq_false, if_false, startPacket_length, drop_startPayload]
    rfl
  refine ⟨⟨shared.ram, udp⟩, link.opened moment.instant,
    complete_start sendable ready.holds timely ran rfl, rfl, ?_,
    opened_receivedSet link _⟩
  refine ⟨ready.holds, AList.lookup_insert _, opened_serves link _, ?_,
    Table.lookup_retain_none ready.uncompleted, ?_⟩
  · simp only [opened, Nat.sub_self]
    exact incomingExpiryMs_pos _
  · intro entry member
    exact (ready.earlier entry (List.mem_of_mem_filter member)).trans_le
      later

theorem Ready.start (sendable : link.Sendable)
    (ready : link.Ready shared instant)
    (later : instant ≤ moment.instant)
    (timely : link.Timely shared moment)
    (reserved : moment.choice.reserved = true) :
    ∃ shared' session,
      serve link.config link.blake3 link.address moment (udpDatagrams
          [.ok (link.request.startPacket link.config link.blake3)]) shared =
        some (shared', [link.startAck], []) ∧
      link.Receiving shared' moment.instant session ∧
      session.receivedSet = ∅ := by
  obtain ⟨shared', session, completed, _, receiving, empty⟩ :=
    ready.start_complete sendable later timely reserved
  refine ⟨shared', session, ?_, receiving, empty⟩
  rw [udpDatagrams_single]
  exact serve_reply completed

theorem Receiving.start (sendable : link.Sendable)
    (receiving : link.Receiving shared instant session)
    (later : instant ≤ moment.instant)
    (timely : link.Timely shared moment) :
    ∃ shared',
      serve link.config link.blake3 link.address moment (udpDatagrams
          [.ok (link.request.startPacket link.config link.blake3)]) shared =
        some (shared', [link.startAck], []) ∧
      link.Receiving shared' moment.instant session := by
  let aged := shared.udp.ageCompleted moment.instant
  have patient := timely.incoming session receiving.stored
  have kept : (aged.expireIncoming link.config
      moment.instant).incoming.lookup link.key = some session :=
    Table.lookup_retain.mpr ⟨receiving.stored, decide_eq_true patient⟩
  have present : (link.request.startPacket link.config link.blake3).key
      link.address ∈
        (aged.expireIncoming link.config moment.instant).incoming :=
    AList.lookup_isSome.mp (Option.isSome_of_eq_some kept)
  have ran : aged.startSession link.config moment.instant
      moment.choice.reserved link.address
      (link.request.startPacket link.config link.blake3) =
        (aged.expireIncoming link.config moment.instant, .ok ()) := by
    unfold UdpServerState.startSession
    simp only [if_pos present]
  refine ⟨⟨shared.ram, aged.expireIncoming link.config moment.instant⟩,
    ?_, receiving.holds, kept, receiving.serves, patient,
    Table.lookup_retain_none receiving.uncompleted, ?_⟩
  · rw [udpDatagrams_single]
    exact serve_reply
      (complete_start sendable receiving.holds timely ran rfl)
  · intro entry member
    exact (receiving.earlier entry (List.mem_of_mem_filter member)).trans_le
      later

def completion (link : Link) : Packet :=
  (link.request.finPacket link.config link.blake3).response .complete []

theorem Finished.fin (finished : link.Finished shared instant)
    (patience : ∀ time, shared.udp.completed.lookup
      (link.key, link.request.offset) = some time →
        moment.instant - time < completedExpiryMs) :
    ∃ shared',
      serve link.config link.blake3 link.address moment (udpDatagrams
          [.ok (link.request.finPacket link.config link.blake3)]) shared =
        some (shared', [link.completion], []) ∧
      link.Finished shared' moment.instant := by
  obtain ⟨time, recorded, _⟩ := finished.recorded
  have patient := patience time recorded
  have kept : (shared.udp.ageCompleted moment.instant).completed.lookup
      (link.key, link.request.offset) = some time :=
    Table.lookup_retain.mpr ⟨recorded, decide_eq_true patient⟩
  have known : (shared.udp.ageCompleted moment.instant).completed.lookup
      ((link.request.finPacket link.config link.blake3).key link.address,
        (link.request.finPacket link.config link.blake3).offset) =
          some time := kept
  let aged : Shared :=
    { shared with udp := shared.udp.ageCompleted moment.instant }
  refine ⟨aged, ?_, ⟨⟨time, kept, patient⟩, finished.leased,
    finished.taken⟩⟩
  rw [udpDatagrams_single]
  refine serve_reply ?_
  rw [Handler.complete_next aged .finCompleted rfl]
  refine Handler.complete_answer ?_
  simp only [Handler.run, aged, known, Option.isSome_some, if_true]
  rfl

theorem Accepts.finishes {block : RamBlock} (accepts : link.Accepts block)
    (sendable : link.Sendable) {now : Nat}
    (live : now < block.handle.leaseExpiresMs) :
    block.finishUdp now link.request.handle.leaseToken
        link.request.handle.generation link.request.offset
        link.request.payload link.request.transferId =
      .ok (block.extend link.request.offset link.request.payload
        link.request.transferId) := by
  rw [RamBlock.finishUdp_ok]
  obtain ⟨_, _, fits⟩ := sendable.admissible
  refine ⟨⟨accepts.token.symm, live⟩, ⟨accepts.generation, accepts.writing,
    accepts.written⟩, ?_, rfl⟩
  rw [accepts.sized, accepts.size]
  exact fits

def finHandler (link : Link) (stage : Stage) : Handler where
  packet := link.request.finPacket link.config link.blake3
  stage := stage

/-- The daemon once FIN has taken its session and written the block. -/
def applied (link : Link) (shared : Shared) (arc : Arc) (block : RamBlock)
    (instant : Nat) : Shared where
  ram := shared.ram.put arc ⟨block.extend link.request.offset
    link.request.payload link.request.transferId, none⟩
  udp := (shared.udp.ageCompleted instant).takeSession link.key

theorem Accepts.leased {block : RamBlock} (accepts : link.Accepts block)
    {arc : Arc} (found : shared.ram.blocks.lookup link.request.handle.id =
      some arc) (free : shared.ram.heap[arc]? = some ⟨block, none⟩)
    (instant : Nat) {other : Arc} (looked :
      (link.applied shared arc block instant).ram.blocks.lookup
        link.request.handle.id = some other) {cell : Cell}
    (stored : (link.applied shared arc block instant).ram.heap[other]? =
      some cell) : 0 < cell.block.handle.leaseExpiresMs := by
  obtain rfl : other = arc := Option.some.inj (looked.symm.trans found)
  have inside : other < shared.ram.heap.length :=
    (List.getElem?_eq_some_iff.mp free).1
  change (shared.ram.heap.set other _)[other]? = some cell at stored
  rw [List.getElem?_set_self inside] at stored
  cases stored
  exact accepts.live

theorem Receiving.writes (sendable : link.Sendable)
    (receiving : link.Receiving shared instant session) {arc : Arc}
    {block : RamBlock} (found : shared.ram.blocks.lookup
      link.request.handle.id = some arc)
    (free : shared.ram.heap[arc]? = some ⟨block, none⟩)
    (accepts : link.Accepts block)
    (live : moment.now < block.handle.leaseExpiresMs)
    (full : session.receivedCount = link.packetCount) :
    (link.finHandler .enter).complete link.config link.blake3
        link.address moment 8 shared =
      (link.finHandler .finInsert).complete link.config link.blake3
        link.address moment 3
        (link.applied shared arc block moment.instant) := by
  have serves := receiving.serves
  have positive : 0 < link.config.udpPayloadBytes := by
    have := sendable.valid.payload
    omega
  have buffer : session.buffer = link.request.payload :=
    serves.receives.assembles.complete positive
      (full.trans serves.count.symm)
  let aged : Shared :=
    { shared with udp := shared.udp.ageCompleted moment.instant }
  let taken : Shared := { aged with udp := aged.udp.takeSession link.key }
  have got : taken.ram.get
      (link.request.finPacket link.config link.blake3).blockId =
        .ok arc := LocalRam.get_ok.mpr found
  have wrote : block.finishUdp moment.now
      (link.request.finPacket link.config link.blake3).leaseToken
      session.generation session.baseOffset session.buffer
      (link.request.finPacket link.config link.blake3).transferId =
        .ok (block.extend link.request.offset link.request.payload
          link.request.transferId) := by
    rw [serves.receives.generation, serves.receives.base, buffer]
    exact accepts.finishes sendable live
  have stored : aged.udp.incoming.lookup
      ((link.request.finPacket link.config link.blake3).key
        link.address) = some session := receiving.stored
  have unknown : aged.udp.completed.lookup
      ((link.request.finPacket link.config link.blake3).key link.address,
        (link.request.finPacket link.config link.blake3).offset) =
          none :=
    Table.lookup_retain_none receiving.uncompleted
  have counted : session.receivedCount = session.packetCount :=
    full.trans serves.count.symm
  have announced :
      (link.request.finPacket link.config link.blake3).payload =
        session.checksum := serves.checksum.symm
  have hashed : (link.blake3 session.buffer).toList =
      session.checksum := by
    rw [buffer, serves.checksum]
  rw [Handler.complete_next aged .finCompleted rfl,
    Handler.complete_next aged .finSession,
    Handler.complete_next taken (.finBlock session),
    Handler.complete_next taken (.finWrite session arc),
    Handler.complete_next
      (link.applied shared arc block moment.instant) .finInsert]
  · rfl
  · simp only [finHandler, Handler.run, Handler.runFinWrite,
      LocalRam.lock?, taken, aged, free, Option.bind_eq_bind,
      Option.bind_some, wrote]
    rfl
  · simp only [finHandler, Handler.run, got]
  · simp only [finHandler, Handler.run, Handler.runFinSession]
    rw [stored]
    simp only [counted, announced, hashed, ne_eq, not_true_eq_false,
      if_false]
    rfl
  · simp only [finHandler, Handler.run, unknown, Option.isSome_none,
      Bool.false_eq_true, if_false]

theorem exists_oldest {udp : UdpServerState}
    (some_ : udp.completed.entries ≠ []) : ∃ oldest, udp.IsOldest oldest := by
  obtain ⟨entry, found⟩ := Option.isSome_iff_exists.mp
    (Option.ne_none_iff_isSome.mp
      (mt List.argmin_eq_none.mp some_ :
        udp.completed.entries.argmin (fun entry => entry.2) ≠ none))
  have member := List.argmin_mem (Option.mem_def.mpr found)
  refine ⟨entry.1, entry.2, Table.mem_entries.mp member, ?_⟩
  intro other present
  exact List.le_of_mem_argmin present (Option.mem_def.mpr found)

theorem not_oldest {udp : UdpServerState} {key : SessionKey × Nat}
    (earlier : ∀ entry ∈ udp.completed.entries, entry.2 < instant)
    (absent : udp.completed.lookup key = none)
    (several : 1 < Table.size (udp.completed.insert key instant))
    {oldest : SessionKey × Nat}
    (first : ({ udp with completed := udp.completed.insert key instant } :
      UdpServerState).IsOldest oldest) : oldest ≠ key := by
  rintro rfl
  have fresh := AList.lookup_eq_none.mp absent
  obtain ⟨time, found, least⟩ := first
  simp only at found least
  rw [AList.lookup_insert] at found
  cases found
  rw [AList.entries_insert_of_notMem fresh] at least
  simp only [Table.size] at several
  rw [AList.entries_insert_of_notMem fresh] at several
  cases rest : udp.completed.entries with
  | nil => simp [rest] at several
  | cons entry others =>
      have member : entry ∈ udp.completed.entries := by simp [rest]
      have before := earlier entry member
      have after := least entry (List.mem_cons_of_mem _ member)
      omega

theorem complete_finInsert (sendable : link.Sendable) {middle : Shared}
    (later : instant ≤ moment.instant)
    (uncompleted : middle.udp.completed.lookup
      (link.key, link.request.offset) = none)
    (earlier : ∀ entry ∈ middle.udp.completed.entries, entry.2 < instant)
    (leased : ∀ arc, middle.ram.blocks.lookup link.request.handle.id =
      some arc → ∀ cell : Cell, middle.ram.heap[arc]? = some cell →
        0 < cell.block.handle.leaseExpiresMs)
    (taken : middle.udp.incoming.lookup link.key = none)
    {shared' : Shared} {outcome : Outcome}
    (ran : (link.finHandler .finInsert).complete link.config link.blake3
      link.address moment 3 middle = some (shared', outcome)) :
    outcome = .answer (some link.completion) ∧
      shared'.ram = middle.ram ∧
      link.Finished shared' moment.instant := by
  let inserted : Shared := { middle with udp := { middle.udp with
    completed := middle.udp.completed.insert
      (link.key, link.request.offset) moment.instant } }
  rw [Handler.complete_next inserted .finEvict rfl] at ran
  change (link.finHandler .finEvict).complete link.config link.blake3
    link.address moment 2 inserted = _ at ran
  have recorded : inserted.udp.completed.lookup
      (link.key, link.request.offset) = some moment.instant :=
    AList.lookup_insert _
  have patient : moment.instant - moment.instant < completedExpiryMs := by
    rw [Nat.sub_self]
    decide
  have released : ∀ between : Shared,
      between.ram = middle.ram →
      between.udp.incoming = middle.udp.incoming →
      between.udp.completed.lookup (link.key, link.request.offset) =
        some moment.instant →
      (link.finHandler .finRelease).complete link.config link.blake3
        link.address moment 1 between = some (shared', outcome) →
      outcome = .answer (some link.completion) ∧
        shared'.ram = middle.ram ∧
        link.Finished shared' moment.instant := by
    intro between same sessions known ended
    cases ended
    refine ⟨rfl, same, ⟨moment.instant, known, patient⟩, ?_, ?_⟩
    · rw [same]
      exact leased
    · change between.udp.incoming.lookup link.key = none
      rw [sessions]
      exact taken
  by_cases crowded : link.config.udpMaxSessions * 16 <
      Table.size inserted.udp.completed
  · have evicts : ∃ oldest, inserted.udp.IsOldest oldest ∧
        (link.finHandler .finEvict).run link.config link.blake3 link.address
          moment.now moment.instant moment.choice inserted =
            some ({ inserted with udp := { inserted.udp with
              completed := inserted.udp.completed.erase oldest } },
              .next .finRelease) := by
      have stepped : ((link.finHandler .finEvict).run link.config link.blake3
          link.address moment.now moment.instant moment.choice
          inserted).isSome := by
        by_contra stuck
        rw [Option.not_isSome_iff_eq_none] at stuck
        rw [Handler.complete, stuck] at ran
        cases ran
      simp only [finHandler, Handler.run, Handler.runFinEvict,
        if_pos crowded] at stepped ⊢
      cases chosen : moment.choice.oldest with
      | none => simp [chosen] at stepped
      | some oldest =>
          by_cases first : inserted.udp.IsOldest oldest
          · refine ⟨oldest, first, ?_⟩
            simp [first]
          · simp [chosen, first] at stepped
    obtain ⟨oldest, first, evicted⟩ := evicts
    have several : 1 < Table.size (middle.udp.completed.insert
        (link.key, link.request.offset) moment.instant) := by
      have sessions := sendable.valid.sessions
      have crowd : link.config.udpMaxSessions * 16 < Table.size
        (middle.udp.completed.insert (link.key, link.request.offset)
          moment.instant) := crowded
      omega
    have other : oldest ≠ (link.key, link.request.offset) :=
      not_oldest (fun entry member =>
        (earlier entry member).trans_le later) uncompleted several first
    let evictedState : Shared := { inserted with udp := { inserted.udp with
      completed := inserted.udp.completed.erase oldest } }
    rw [Handler.complete_next evictedState .finRelease evicted] at ran
    refine released evictedState rfl rfl ?_ ran
    exact (AList.lookup_erase_ne other.symm).trans recorded
  · rw [Handler.complete_next inserted .finRelease (by
      simp only [finHandler, Handler.run, Handler.runFinEvict]
      rw [if_neg crowded])] at ran
    exact released inserted rfl rfl recorded ran

theorem complete_finInsert_isSome (link : Link) (udp : UdpServerState)
    (now instant : Nat) (choice : Choice) :
    ∃ oldest, ∀ middle : Shared, middle.udp = udp →
      ((link.finHandler .finInsert).complete link.config link.blake3
        link.address ⟨now, instant, { choice with oldest := oldest }⟩ 3
        middle).isSome := by
  let inserted : UdpServerState := { udp with
    completed := udp.completed.insert
      (link.key, link.request.offset) instant }
  have nonempty : inserted.completed.entries ≠ [] := by
    simp [inserted, AList.insert, List.kinsert]
  obtain ⟨oldest, first⟩ := exists_oldest nonempty
  refine ⟨some oldest, ?_⟩
  rintro middle rfl
  let after : Shared := { middle with udp := inserted }
  rw [Handler.complete_next after .finEvict rfl]
  change ((link.finHandler .finEvict).complete _ _ _ _ 2 after).isSome
  by_cases crowded : link.config.udpMaxSessions * 16 <
      Table.size after.udp.completed
  · let evicted : Shared := { after with udp := { after.udp with
      completed := after.udp.completed.erase oldest } }
    rw [Handler.complete_next evicted .finRelease (by
      simp only [finHandler, Handler.run, Handler.runFinEvict]
      rw [if_pos crowded]
      simp [after, evicted, first])]
    rfl
  · rw [Handler.complete_next after .finRelease (by
      simp only [finHandler, Handler.run, Handler.runFinEvict]
      rw [if_neg crowded])]
    rfl

theorem Receiving.fin_complete (sendable : link.Sendable)
    (receiving : link.Receiving shared instant session)
    (later : instant ≤ moment.instant) {arc : Arc}
    {block : RamBlock} (found : shared.ram.blocks.lookup
      link.request.handle.id = some arc)
    (free : shared.ram.heap[arc]? = some ⟨block, none⟩)
    (accepts : link.Accepts block)
    (live : moment.now < block.handle.leaseExpiresMs)
    (full : session.receivedCount = link.packetCount) {shared' : Shared}
    {outcome : Outcome}
    (ran : (link.finHandler .enter).complete link.config link.blake3
      link.address moment 8 shared = some (shared', outcome)) :
    outcome = .answer (some link.completion) ∧
      shared'.ram = shared.ram.put arc ⟨block.extend link.request.offset
        link.request.payload link.request.transferId, none⟩ ∧
      link.Finished shared' moment.instant := by
  rw [receiving.writes sendable found free accepts live full] at ran
  refine complete_finInsert sendable later ?_ ?_ ?_ ?_ ran
  · exact Table.lookup_retain_none receiving.uncompleted
  · intro entry member
    exact receiving.earlier entry (List.mem_of_mem_filter member)
  · intro other looked cell stored
    exact accepts.leased found free _ looked stored
  · exact AList.lookup_erase _ _

theorem Receiving.fin (sendable : link.Sendable)
    (receiving : link.Receiving shared instant session)
    (later : instant ≤ moment.instant)
    (timely : link.Timely shared moment)
    (full : session.receivedCount = link.packetCount) {shared' : Shared}
    {replies : List Packet} {responses : List ReadResponse}
    (served : serve link.config link.blake3 link.address moment
      (udpDatagrams [.ok (link.request.finPacket link.config
        link.blake3)]) shared = some (shared', replies, responses)) :
    replies = [link.completion] ∧ link.Finished shared' moment.instant := by
  obtain ⟨arc, block, found, free, accepts⟩ := receiving.holds
  rw [udpDatagrams_single] at served
  change serve link.config link.blake3 link.address moment
    [link.finHandler .enter] shared = _ at served
  simp only [serve] at served
  obtain ⟨⟨between, outcome⟩, ran, served⟩ :=
    Option.bind_eq_some_iff.mp served
  obtain ⟨rfl, _, finished⟩ := receiving.fin_complete sendable later found
    free accepts (timely.lease arc found _ free) full ran
  cases served
  exact ⟨rfl, finished⟩

theorem Receiving.fin_ends (sendable : link.Sendable)
    (receiving : link.Receiving shared instant session) {arc : Arc}
    {block : RamBlock} (found : shared.ram.blocks.lookup
      link.request.handle.id = some arc)
    (free : shared.ram.heap[arc]? = some ⟨block, none⟩)
    (accepts : link.Accepts block) {now instant : Nat} {choice : Choice}
    (live : now < block.handle.leaseExpiresMs)
    (full : session.receivedCount = link.packetCount) :
    ∃ oldest, (serve link.config link.blake3 link.address
      ⟨now, instant, { choice with oldest := oldest }⟩
      [link.finHandler .enter] shared).isSome := by
  obtain ⟨oldest, completes⟩ := complete_finInsert_isSome link
    ((shared.udp.ageCompleted instant).takeSession link.key) now instant
    choice
  refine ⟨oldest, ?_⟩
  obtain ⟨⟨shared', outcome⟩, ran⟩ :=
    Option.isSome_iff_exists.mp
      (completes (link.applied shared arc block instant) rfl)
  have whole := @Receiving.writes _ _ _
    ⟨now, instant, { choice with oldest := oldest }⟩ _ sendable receiving _
    _ found free accepts live full
  simp only [serve, whole, ran, Option.bind_eq_bind, Option.bind_some]
  cases outcome <;> rfl

theorem Receiving.fin_isSome (sendable : link.Sendable)
    (receiving : link.Receiving shared instant session) {now instant : Nat}
    {choice : Choice}
    (timely : ∀ oldest, link.Timely shared
      ⟨now, instant, { choice with oldest := oldest }⟩)
    (full : session.receivedCount = link.packetCount) :
    ∃ oldest, (serve link.config link.blake3 link.address
      ⟨now, instant, { choice with oldest := oldest }⟩ (udpDatagrams
        [.ok (link.request.finPacket link.config link.blake3)])
        shared).isSome := by
  obtain ⟨arc, block, found, free, accepts⟩ := receiving.holds
  rw [udpDatagrams_single]
  exact receiving.fin_ends sendable found free accepts
    ((timely none).lease arc found _ free) full

end

end Link

end TrainPool
