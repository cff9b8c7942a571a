import TrainPool.Library.Failing
import TrainPool.Transport.Codec
import TrainPool.Transport.Rounds

namespace TrainPool

open Failing Slice

/-! How a round of the DATA phase reaches the network: its packets are encoded
one after the other into a buffer, and the kernel cuts the buffer again. -/

/-- `MAX_GSO_SEGMENTS`. -/
def gsoSegments : Nat := 64

/-- `MAX_GSO_BYTES`. -/
def gsoBytes : Nat := 65535

def maxGsoSegments (segmentSize : Nat) : Nat :=
  let byBytes := gsoBytes / segmentSize
  if byBytes < gsoSegments then byBytes else gsoSegments

/-- A call of `send_segmented`. -/
structure SegmentedSend where
  encoded : List UInt8
  segmentSize : Nat
  segments : Nat
  deriving DecidableEq, Repr

/-- The calls of `send_segmented` and the datagrams that the socket has sent,
oldest first, and its next answers, of which `none` accepts.  After those it
accepts. -/
structure Wire where
  calls : List SegmentedSend := []
  datagrams : List (List UInt8) := []
  answers : List (Option String) := []
  deriving DecidableEq, Repr

abbrev Sending := Failing Wire Fault

namespace Wire

def ofResult {α : Type} : Result α → Sending α
  | .ok value => pure value
  | .error fault => throw fault

/-- A `debug_assert!`. -/
def debugAssert (condition : Prop) [Decidable condition] : Sending Unit :=
  if condition then pure () else throw .panic

def answer : Sending Unit := do
  let wire ← get
  set { wire with answers := wire.answers.tail }
  match wire.answers.head? with
  | some (some failure) => throw (.error failure)
  | _ => pure ()

def sendTo (datagram : List UInt8) : Sending Unit := do
  answer
  modify fun wire => { wire with datagrams := wire.datagrams ++ [datagram] }

def sendGso (encoded : List UInt8) (segmentSize : Nat) : Sending Unit := do
  answer
  modify fun wire =>
    { wire with datagrams := wire.datagrams ++ pieces segmentSize encoded }

def tryGso (encoded : List UInt8) (segmentSize segments : Nat) :
    Sending Bool :=
  if 1 < segments ∧ encoded.length ≤ gsoBytes then
    tryCatch (do
      sendGso encoded segmentSize
      pure true) fun _ => pure false
  else
    pure false

def sendSegmented (encoded : List UInt8) (segmentSize segments : Nat) :
    Sending Unit := do
  modify fun wire =>
    { wire with calls := wire.calls ++ [⟨encoded, segmentSize, segments⟩] }
  debugAssert (0 < segments ∧ segments ≤ gsoSegments)
  debugAssert (segmentSize ≤ 65535)
  debugAssert (encoded.length ≤ segmentSize * segments)
  debugAssert (segmentSize * (segments - 1) < encoded.length)
  if ← tryGso encoded segmentSize segments then
    pure ()
  else
    each sendTo (pieces segmentSize encoded)

end Wire

namespace SendPayload

open Wire

variable (config : Config) (blake3 : List UInt8 → Digest)
  (hmac : List UInt8 → List UInt8 → Digest) (secret : Option String)
  (request : SendPayload)

/-- The buffer of a round, with the packets that it holds. -/
structure Batch where
  encoded : List UInt8 := []
  encodedSegments : Nat := 0

def segmentSize : Nat := headerLen + config.udpPayloadBytes

def batchLimit : Nat := maxGsoSegments (segmentSize config)

/-- Encode a packet into the buffer, and send the buffer when it is full. -/
def appendPacket (sequence : Nat) (batch : Batch) : Sending Batch := do
  ofResult (ensure (sequence < 2 ^ 32)
    "out of range integral type conversion attempted")
  let wire ← ofResult
    (Packet.encode blake3 hmac secret (request.dataPacket config sequence))
  let encoded := batch.encoded ++ wire
  let encodedSegments := batch.encodedSegments + 1
  if encodedSegments = batchLimit config then
    sendSegmented encoded (segmentSize config) encodedSegments
    pure {}
  else
    pure ⟨encoded, encodedSegments⟩

def appendPackets : List (Bool × Nat) → Batch → Sending Batch
  | [], batch => pure batch
  | (isAcknowledged, sequence) :: rest, batch =>
      if isAcknowledged then
        appendPackets rest batch
      else do
        let batch ← appendPacket config blake3 hmac secret request sequence
          batch
        appendPackets rest batch

def sendRound (window : Window) : Sending Unit := do
  let batch ← appendPackets config blake3 hmac secret request
    ((window.acknowledged.zipIdx.take window.finish).drop window.base) {}
  if 0 < batch.encodedSegments then
    sendSegmented batch.encoded (segmentSize config) batch.encodedSegments
  else
    pure ()

end SendPayload

namespace Wire

structure Emits (blocks : List (List UInt8)) (wire : Wire)
    (result : Except Fault Unit) (next : Wire) : Prop where
  orderly : result ≠ .error .panic
  calls : next.calls = wire.calls
  datagrams : ∃ sent, sent <+: blocks ∧
    next.datagrams = wire.datagrams ++ sent ∧
      (result = .ok () → sent = blocks)

theorem answer_leads (wire : Wire) :
    answer.Leads wire fun result next => result ≠ .error .panic ∧
      next.calls = wire.calls ∧ next.datagrams = wire.datagrams := by
  refine leads_get_bind.mpr (leads_set_bind.mpr ?_)
  split
  · exact leads_throw.mpr ⟨by simp, rfl, rfl⟩
  · exact leads_pure.mpr ⟨by simp, rfl, rfl⟩

theorem sendTo_emits (datagram : List UInt8) (wire : Wire) :
    (sendTo datagram).Leads wire (Emits [datagram] wire) := by
  refine (answer_leads wire).bind ?_ ?_
  · intro _ next given
    obtain ⟨_, calls, datagrams⟩ := given
    refine leads_modify.mpr ⟨by simp, calls, [datagram], List.prefix_rfl, ?_, ?_⟩
    · simp [datagrams]
    · intro _
      rfl
  · intro fault next given
    obtain ⟨orderly, calls, datagrams⟩ := given
    exact ⟨fun same => orderly (by cases same; rfl), calls, [],
      List.nil_prefix, by simp [datagrams], nofun⟩

theorem each_sendTo_emits (blocks : List (List UInt8)) (wire : Wire) :
    (each sendTo blocks).Leads wire (Emits blocks wire) := by
  induction blocks generalizing wire with
  | nil =>
      exact leads_pure.mpr
        ⟨by simp, rfl, [], List.prefix_rfl, by simp, fun _ => rfl⟩
  | cons block rest ih =>
      refine (sendTo_emits block wire).bind ?_ ?_
      · intro _ next given
        obtain ⟨first, _, datagrams, all⟩ := given.datagrams
        obtain rfl := all rfl
        refine (ih next).mono ?_
        intro result final more
        obtain ⟨sent, front, grown, complete⟩ := more.datagrams
        refine ⟨more.orderly, more.calls.trans given.calls, block :: sent,
          ?_, ?_, ?_⟩
        · exact (List.prefix_cons_inj block).mpr front
        · rw [grown, datagrams, List.append_assoc]
          rfl
        · intro done
          rw [complete done]
      · intro fault next given
        obtain ⟨sent, front, grown, _⟩ := given.datagrams
        exact ⟨given.orderly, given.calls, sent,
          front.trans (List.prefix_append [block] rest), grown, nofun⟩

theorem sendGso_leads (encoded : List UInt8) (segmentSize : Nat)
    (wire : Wire) :
    (sendGso encoded segmentSize).Leads wire (Ending
      (fun _ next => next.calls = wire.calls ∧
        next.datagrams = wire.datagrams ++ pieces segmentSize encoded)
      fun _ next => next.calls = wire.calls ∧
        next.datagrams = wire.datagrams) := by
  refine (answer_leads wire).bind ?_ ?_
  · intro _ next given
    obtain ⟨_, calls, datagrams⟩ := given
    exact leads_modify.mpr ⟨calls, by simp [datagrams]⟩
  · intro fault next given
    exact given.2

theorem tryGso_leads (encoded : List UInt8) (segmentSize segments : Nat)
    (wire : Wire) :
    (tryGso encoded segmentSize segments).Leads wire fun result next =>
      ∃ taken : Bool, result = .ok taken ∧ next.calls = wire.calls ∧
        next.datagrams = wire.datagrams ++
          if taken then pieces segmentSize encoded else [] := by
  unfold tryGso
  split
  · have sent : (do
        sendGso encoded segmentSize
        pure true : Sending Bool).Leads wire (Ending
          (fun taken next => taken = true ∧ next.calls = wire.calls ∧
            next.datagrams = wire.datagrams ++ pieces segmentSize encoded)
          fun _ next => next.calls = wire.calls ∧
            next.datagrams = wire.datagrams) := by
      refine (sendGso_leads encoded segmentSize wire).bind ?_ ?_
      · intro _ next given
        exact leads_pure.mpr ⟨rfl, given⟩
      · intro fault next given
        exact given
    refine sent.rescue ?_ ?_
    · intro taken next given
      obtain ⟨rfl, calls, datagrams⟩ := given
      exact ⟨true, rfl, calls, datagrams⟩
    · intro fault next given
      exact leads_pure.mpr ⟨false, rfl, given.1, by simp [given.2]⟩
  · exact leads_pure.mpr ⟨false, rfl, rfl, by simp⟩

end Wire

/-- What `send_segmented` asserts. -/
structure SegmentedSend.Asserts (call : SegmentedSend) : Prop where
  segments : 0 < call.segments ∧ call.segments ≤ gsoSegments
  segmentSize : call.segmentSize ≤ 65535
  encoded_le : call.encoded.length ≤ call.segmentSize * call.segments
  lt_encoded :
    call.segmentSize * (call.segments - 1) < call.encoded.length

theorem Wire.leads_debugAssert {condition : Prop} [Decidable condition]
    {post : Except Fault Unit → Wire → Prop} {wire : Wire}
    {program : Unit → Sending Unit} (holds : condition)
    (leads : (program ()).Leads wire post) :
    (debugAssert condition >>= program).Leads wire post := by
  rw [debugAssert, if_pos holds]
  exact leads

theorem Wire.sendSegmented_emits {encoded : List UInt8}
    {segmentSize segments : Nat}
    (asserts : SegmentedSend.Asserts ⟨encoded, segmentSize, segments⟩)
    (wire : Wire) :
    (sendSegmented encoded segmentSize segments).Leads wire
      (Emits (pieces segmentSize encoded) { wire with
        calls := wire.calls ++ [⟨encoded, segmentSize, segments⟩] }) := by
  refine leads_modify_bind.mpr (leads_debugAssert asserts.segments
    (leads_debugAssert asserts.segmentSize
      (leads_debugAssert asserts.encoded_le
        (leads_debugAssert asserts.lt_encoded ?_))))
  refine (tryGso_leads encoded segmentSize segments _).bind ?_ ?_
  · intro taken next given
    obtain ⟨_, same, calls, datagrams⟩ := given
    cases same
    cases taken with
    | true =>
        exact leads_pure.mpr ⟨by simp, calls, _, List.prefix_rfl, datagrams,
          fun _ => rfl⟩
    | false =>
        refine (each_sendTo_emits _ next).mono ?_
        intro result final sent
        obtain ⟨blocks, front, grown, all⟩ := sent.datagrams
        refine ⟨sent.orderly, sent.calls.trans calls, blocks, front, ?_, all⟩
        simpa [datagrams] using grown
  · intro fault next given
    obtain ⟨_, same, _⟩ := given
    cases same

namespace SendPayload

open Wire

section Round

variable {config : Config} {blake3 : List UInt8 → Digest}
  {hmac : List UInt8 → List UInt8 → Digest} {secret : Option String}
  {request : SendPayload}

def encoding (config : Config) (blake3 : List UInt8 → Digest)
    (hmac : List UInt8 → List UInt8 → Digest) (secret : Option String)
    (request : SendPayload) (sequence : Nat) : Result (List UInt8) :=
  Packet.encode blake3 hmac secret (request.dataPacket config sequence)

/-- What `encoding` returns. -/
def datagram (config : Config) (blake3 : List UInt8 → Digest)
    (hmac : List UInt8 → List UInt8 → Digest) (secret : Option String)
    (request : SendPayload) (sequence : Nat) : List UInt8 :=
  let packet := request.dataPacket config sequence
  packet.header blake3 ++
    Packet.authenticationTag hmac secret (packet.header blake3)
      packet.payload ++ packet.payload

theorem length_datagram (sequence : Nat) :
    (request.datagram config blake3 hmac secret sequence).length =
      headerLen + (request.piece config sequence).length := by
  simp only [datagram, List.length_append, Packet.length_header,
    Packet.length_authenticationTag, headerLen, dataPacket]

theorem length_piece (sequence : Nat) :
    (request.piece config sequence).length =
      min (sequence * config.udpPayloadBytes + config.udpPayloadBytes)
        request.payload.length - sequence * config.udpPayloadBytes :=
  length_pieceAt config.udpPayloadBytes request.payload sequence

theorem length_piece_le (config : Config) (request : SendPayload)
    (sequence : Nat) :
    (request.piece config sequence).length ≤ config.udpPayloadBytes := by
  rw [length_piece]
  omega

theorem length_piece_full (valid : config.Valid) {sequence : Nat}
    (inside : sequence + 1 < request.packetCount config) :
    (request.piece config sequence).length = config.udpPayloadBytes := by
  have positive : 0 < config.udpPayloadBytes := by
    have := valid.payload.1
    omega
  have before := mul_lt_of_lt_divCeil positive inside
  rw [Nat.succ_mul] at before
  rw [length_piece]
  omega

theorem encoding_eq (valid : config.Valid) (sequence : Nat) :
    request.encoding config blake3 hmac secret sequence =
      .ok (request.datagram config blake3 hmac secret sequence) := by
  have short := length_piece_le config request sequence
  have bounded := valid.payload.2
  refine ensure_bind_ok.mpr ⟨?_, rfl⟩
  change (request.piece config sequence).length + 166 ≤ 1400
  omega

theorem packetCount_lt (valid : config.Valid)
    (admissible : request.Admissible config) :
    request.packetCount config < 2 ^ 32 := by
  obtain ⟨_, fits, _⟩ := admissible
  have chunk := valid.chunk.2
  have positive : 0 < config.udpPayloadBytes := by
    have := valid.payload.1
    omega
  have few := divCeil_le positive request.payload.length
  unfold packetCount
  omega

theorem batchLimit_pos (valid : config.Valid) : 0 < batchLimit config := by
  have large := valid.payload.2
  have one : 0 < gsoBytes / segmentSize config := by
    apply Nat.div_pos
    · unfold segmentSize headerLen gsoBytes
      omega
    · unfold segmentSize headerLen
      omega
  unfold batchLimit maxGsoSegments
  simp only
  split
  · exact one
  · decide

theorem batchLimit_le : batchLimit config ≤ gsoSegments := by
  unfold batchLimit maxGsoSegments
  simp only
  split
  · omega
  · exact Nat.le_refl _

theorem mul_batchLimit_le :
    segmentSize config * batchLimit config ≤ gsoBytes := by
  refine Nat.le_trans (Nat.mul_le_mul_left _ ?_)
    (Nat.mul_div_le gsoBytes (segmentSize config))
  unfold batchLimit maxGsoSegments
  simp only
  split
  · exact Nat.le_refl _
  · omega

/-- A call that sends packets together: cut at the size of a segment, its
buffer is their datagrams. -/
structure Carries (config : Config) (blake3 : List UInt8 → Digest)
    (hmac : List UInt8 → List UInt8 → Digest) (secret : Option String)
    (request : SendPayload) (sequences : List Nat) (call : SegmentedSend) :
    Prop where
  segmentSize : call.segmentSize = segmentSize config
  cut : (pieces call.segmentSize call.encoded).map .ok =
    sequences.map (request.encoding config blake3 hmac secret)
  segments : call.segments = sequences.length
  few : 1 ≤ call.segments ∧
    call.segments ≤ maxGsoSegments call.segmentSize
  short : call.encoded.length ≤ 65535
  asserts : call.Asserts

structure Ascending (config : Config) (request : SendPayload)
    (sequences : List Nat) : Prop where
  ordered : sequences.Pairwise (· < ·)
  below : ∀ sequence ∈ sequences, sequence < request.packetCount config

structure Batch.Holds (batch : Batch) (config : Config)
    (blake3 : List UInt8 → Digest)
    (hmac : List UInt8 → List UInt8 → Digest) (secret : Option String)
    (request : SendPayload) (sequences : List Nat) : Prop where
  encoded : batch.encoded =
    (sequences.map (request.datagram config blake3 hmac secret)).flatten
  encodedSegments : batch.encodedSegments = sequences.length

/-- Packets have been handed over in groups, each with a call of its own. -/
structure Hands (config : Config) (blake3 : List UInt8 → Digest)
    (hmac : List UInt8 → List UInt8 → Digest) (secret : Option String)
    (request : SendPayload) (groups : List (List Nat)) (wire : Wire)
    {α : Type} (result : Except Fault α) (next : Wire) : Prop where
  orderly : result ≠ .error .panic
  calls : ∃ calls, next.calls = wire.calls ++ calls ∧
    List.Forall₂ (request.Carries config blake3 hmac secret) groups calls
  datagrams : ∃ sent, next.datagrams = wire.datagrams ++ sent ∧
    sent.map .ok <+:
      groups.flatten.map (request.encoding config blake3 hmac secret) ∧
    ∀ value, result = .ok value → sent.map .ok =
      groups.flatten.map (request.encoding config blake3 hmac secret)

theorem Hands.nil {α : Type} (value : α) (wire : Wire) :
    request.Hands config blake3 hmac secret [] wire (.ok value) wire :=
  ⟨by simp, ⟨[], by simp, .nil⟩, [], by simp, by simp, by simp⟩

theorem Hands.append {α β : Type} {groups more : List (List Nat)}
    {wire middle next : Wire} {value : α} {result : Except Fault β}
    (early : request.Hands config blake3 hmac secret groups wire
      (.ok value) middle)
    (late : request.Hands config blake3 hmac secret more middle result next) :
    request.Hands config blake3 hmac secret (groups ++ more) wire result
      next := by
  obtain ⟨calls, called, carried⟩ := early.calls
  obtain ⟨others, called', carried'⟩ := late.calls
  obtain ⟨sent, grown, _, all⟩ := early.datagrams
  obtain ⟨rest, grown', front, all'⟩ := late.datagrams
  refine ⟨late.orderly, ⟨calls ++ others, ?_, ?_⟩, sent ++ rest, ?_, ?_, ?_⟩
  · rw [called', called, List.append_assoc]
  · exact List.rel_append carried carried'
  · rw [grown', grown, List.append_assoc]
  · rw [List.map_append, all value rfl, List.flatten_append, List.map_append]
    exact (List.prefix_append_right_inj _).mpr front
  · intro final done
    rw [List.map_append, all value rfl, all' final done,
      List.flatten_append, List.map_append]

theorem Hands.fails {α β : Type} {groups : List (List Nat)}
    {wire next : Wire} {fault : Fault}
    (hands : request.Hands config blake3 hmac secret groups wire
      (.error fault : Except Fault α) next) :
    request.Hands config blake3 hmac secret groups wire
      (.error fault : Except Fault β) next := by
  obtain ⟨sent, grown, front, _⟩ := hands.datagrams
  exact ⟨fun same => hands.orderly (by cases same; rfl), hands.calls, sent,
    grown, front, nofun⟩

theorem Ascending.uniform (valid : config.Valid) {sequences : List Nat}
    (ascending : request.Ascending config sequences) :
    Uniform (segmentSize config)
      (sequences.map (request.datagram config blake3 hmac secret)) := by
  refine .of_ordered ?_ ?_ ?_ ascending.ordered ascending.below
  · intro sequence inside
    rw [length_datagram, headerLen]
    omega
  · intro sequence inside
    rw [length_datagram, segmentSize]
    exact Nat.add_le_add_left (length_piece_le config request sequence) _
  · intro sequence inside
    rw [length_datagram, segmentSize, length_piece_full valid inside]

theorem map_datagram (valid : config.Valid) (sequences : List Nat) :
    (sequences.map (request.datagram config blake3 hmac secret)).map .ok =
      sequences.map (request.encoding config blake3 hmac secret) := by
  rw [List.map_map]
  apply List.map_congr_left
  intro sequence _
  exact (encoding_eq valid sequence).symm

theorem segmentSize_pos : 0 < segmentSize config := by
  unfold segmentSize headerLen
  omega

theorem Batch.Holds.carries (valid : config.Valid) {batch : Batch}
    {sequences : List Nat}
    (holds : batch.Holds config blake3 hmac secret request sequences)
    (ascending : request.Ascending config sequences)
    (nonempty : 0 < sequences.length)
    (few : sequences.length ≤ batchLimit config) :
    pieces (segmentSize config) batch.encoded =
        sequences.map (request.datagram config blake3 hmac secret) ∧
      request.Carries config blake3 hmac secret sequences
        ⟨batch.encoded, segmentSize config, batch.encodedSegments⟩ := by
  have uniform : Uniform (segmentSize config)
      (sequences.map (request.datagram config blake3 hmac secret)) :=
    ascending.uniform valid
  have cut : pieces (segmentSize config) batch.encoded =
      sequences.map (request.datagram config blake3 hmac secret) := by
    rw [holds.encoded]
    exact pieces_flatten segmentSize_pos uniform
  have size : segmentSize config ≤ 65535 := by
    have large := valid.payload.2
    unfold segmentSize headerLen
    omega
  have below : batch.encoded.length ≤
      segmentSize config * sequences.length := by
    rw [holds.encoded]
    simpa using uniform.length_le
  have above : segmentSize config * (sequences.length - 1) <
      batch.encoded.length := by
    rw [holds.encoded]
    simpa using uniform.lt_length segmentSize_pos (by simpa using nonempty)
  have short : batch.encoded.length ≤ gsoBytes :=
    below.trans ((Nat.mul_le_mul_left _ few).trans mul_batchLimit_le)
  refine ⟨cut, rfl, ?_, holds.encodedSegments, ?_, short, ?_, size, ?_, ?_⟩
  · rw [cut]
    exact map_datagram valid _
  · rw [holds.encodedSegments]
    exact ⟨nonempty, few⟩
  · simp only [holds.encodedSegments]
    exact ⟨nonempty, few.trans batchLimit_le⟩
  · simpa only [holds.encodedSegments] using below
  · simpa only [holds.encodedSegments] using above

theorem Batch.Holds.hands (valid : config.Valid) {batch : Batch}
    {sequences : List Nat}
    (holds : batch.Holds config blake3 hmac secret request sequences)
    (ascending : request.Ascending config sequences)
    (nonempty : 0 < sequences.length)
    (few : sequences.length ≤ batchLimit config) (wire : Wire) :
    (sendSegmented batch.encoded (segmentSize config)
      batch.encodedSegments).Leads wire
        (request.Hands config blake3 hmac secret [sequences] wire) := by
  obtain ⟨cut, carries⟩ := holds.carries valid ascending nonempty few
  refine (sendSegmented_emits carries.asserts wire).mono ?_
  intro result next emits
  obtain ⟨sent, front, grown, all⟩ := emits.datagrams
  rw [cut] at front all
  refine ⟨emits.orderly, ⟨_, emits.calls, .cons carries .nil⟩, sent, grown,
    ?_, ?_⟩
  · have mapped := front.map (Except.ok : _ → Result (List UInt8))
    rw [map_datagram valid] at mapped
    simpa using mapped
  · intro value done
    rw [all done, map_datagram valid]
    simp

def outstanding (entries : List (Bool × Nat)) : List Nat :=
  (entries.filter (!·.1)).map (·.2)

/-- What the loop leaves: its packets are handed over but for those that the
buffer holds. -/
structure Appends (config : Config) (blake3 : List UInt8 → Digest)
    (hmac : List UInt8 → List UInt8 → Digest) (secret : Option String)
    (request : SendPayload) (sequences : List Nat) (wire : Wire)
    (groups : List (List Nat)) (result : Except Fault Batch) (next : Wire) :
    Prop where
  hands : request.Hands config blake3 hmac secret groups wire result next
  front : groups.flatten <+: sequences
  rest : ∀ batch, result = .ok batch → ∃ left,
    groups.flatten ++ left = sequences ∧
      left.length < batchLimit config ∧
      batch.Holds config blake3 hmac secret request left

theorem appendPacket_appends (valid : config.Valid)
    (admissible : request.Admissible config) {batch : Batch}
    {pending : List Nat} {sequence : Nat}
    (holds : batch.Holds config blake3 hmac secret request pending)
    (few : pending.length < batchLimit config)
    (ascending : request.Ascending config (pending ++ [sequence]))
    (wire : Wire) :
    (appendPacket config blake3 hmac secret request sequence batch).Leads wire
      fun result next => ∃ groups, request.Appends config blake3 hmac secret
        (pending ++ [sequence]) wire groups result next := by
  have inside : sequence < request.packetCount config :=
    ascending.below sequence (by simp)
  have narrow := inside.trans (packetCount_lt valid admissible)
  have grown : Batch.Holds ⟨batch.encoded ++
      request.datagram config blake3 hmac secret sequence,
        batch.encodedSegments + 1⟩ config blake3 hmac secret request
          (pending ++ [sequence]) := by
    constructor
    · simp [holds.encoded]
    · simp [holds.encodedSegments]
  have encoded : Packet.encode blake3 hmac secret
      (request.dataPacket config sequence) =
        .ok (request.datagram config blake3 hmac secret sequence) :=
    encoding_eq valid sequence
  unfold appendPacket
  rw [encoded, ensure, if_pos narrow]
  change Leads (if batch.encodedSegments + 1 = batchLimit config then _
    else _) _ _
  split
  · rename_i full
    have filled : (pending ++ [sequence]).length = batchLimit config := by
      rw [← full, holds.encodedSegments]
      simp
    refine (grown.hands valid ascending (by simp) filled.le wire).bind ?_ ?_
    · intro _ next handed
      refine leads_pure.mpr ⟨[pending ++ [sequence]], ?_, by simp, ?_⟩
      · exact handed.append (.nil _ next)
      · intro last same
        cases same
        exact ⟨[], by simp, batchLimit_pos valid, rfl, rfl⟩
    · intro fault next handed
      exact ⟨[pending ++ [sequence]], handed.fails, by simp, by simp⟩
  · rename_i more
    refine leads_pure.mpr ⟨[], .nil _ wire, by simp, ?_⟩
    intro last same
    cases same
    refine ⟨pending ++ [sequence], rfl, ?_, grown⟩
    rw [holds.encodedSegments] at more
    simp only [List.length_append, List.length_singleton]
    omega

theorem appendPackets_appends (valid : config.Valid)
    (admissible : request.Admissible config)
    (entries : List (Bool × Nat)) {batch : Batch} {pending : List Nat}
    (holds : batch.Holds config blake3 hmac secret request pending)
    (few : pending.length < batchLimit config)
    (ascending : request.Ascending config (pending ++ outstanding entries))
    (wire : Wire) :
    (appendPackets config blake3 hmac secret request entries batch).Leads wire
      fun result next => ∃ groups, request.Appends config blake3 hmac secret
        (pending ++ outstanding entries) wire groups result next := by
  induction entries generalizing batch pending wire with
  | nil =>
      refine leads_pure.mpr ⟨[], .nil _ wire, by simp, ?_⟩
      intro last same
      cases same
      exact ⟨pending, by simp [outstanding], few, holds⟩
  | cons entry rest ih =>
      obtain ⟨isAcknowledged, sequence⟩ := entry
      cases isAcknowledged with
      | true => exact ih holds few ascending wire
      | false =>
          have split : pending ++ outstanding ((false, sequence) :: rest) =
              pending ++ [sequence] ++ outstanding rest := by
            simp [outstanding]
          rw [split] at ascending ⊢
          have front : request.Ascending config (pending ++ [sequence]) :=
            ⟨(List.pairwise_append.mp ascending.ordered).1,
              fun other member => ascending.below other
                (List.mem_append_left _ member)⟩
          refine (appendPacket_appends valid admissible holds few front
            wire).bind ?_ ?_
          · intro batch next given
            obtain ⟨groups, handed⟩ := given
            obtain ⟨left, whole, short, held⟩ := handed.rest batch rfl
            have later : request.Ascending config
                (left ++ outstanding rest) := by
              rw [← whole, List.append_assoc] at ascending
              exact ⟨(List.pairwise_append.mp ascending.ordered).2.1,
                fun other member => ascending.below other
                  (List.mem_append_right _ member)⟩
            refine (ih held short later next).mono ?_
            intro result final given
            obtain ⟨more, handed'⟩ := given
            refine ⟨groups ++ more, handed.hands.append handed'.hands, ?_, ?_⟩
            · rw [← whole, List.append_assoc, List.flatten_append]
              exact (List.prefix_append_right_inj _).mpr handed'.front
            · intro last done
              obtain ⟨left', whole', rest'⟩ := handed'.rest last done
              refine ⟨left', ?_, rest'⟩
              rw [← whole, List.append_assoc, List.flatten_append,
                List.append_assoc, whole']
          · intro fault next given
            obtain ⟨groups, handed⟩ := given
            exact ⟨groups, handed.hands,
              handed.front.trans (List.prefix_append _ _), nofun⟩

theorem zipIdx_eq_range (bits : List Bool) :
    bits.zipIdx = (List.range bits.length).map fun sequence =>
      (bits.getD sequence false, sequence) := by
  apply List.ext_getElem
  · simp
  · intro index inside _
    have within : index < bits.length := by simpa using inside
    simp [List.getD_eq_getElem?_getD, within]

theorem outstanding_window {window : Window}
    (inside : window.finish ≤ window.acknowledged.length) :
    outstanding
        ((window.acknowledged.zipIdx.take window.finish).drop window.base) =
      window.unacknowledged := by
  rw [zipIdx_eq_range, ← List.map_take, ← List.map_drop, List.take_range,
    Nat.min_eq_left inside]
  unfold outstanding Window.unacknowledged
  rw [List.filter_map, List.map_map]
  exact List.map_id' _

theorem unacknowledged_ascending {window : Window}
    (inside : window.finish ≤ request.packetCount config) :
    request.Ascending config window.unacknowledged := by
  refine ⟨?_, ?_⟩
  · have ordered : (List.range window.finish).Pairwise (· < ·) :=
      List.pairwise_lt_range
    exact (ordered.sublist (List.drop_sublist _ _)).filter _
  · intro sequence member
    have before := (Window.mem_unacknowledged.mp member).2.1
    exact before.trans_le inside

theorem sendRound_hands (valid : config.Valid)
    (admissible : request.Admissible config) {window : Window}
    (slots : window.acknowledged.length = request.packetCount config)
    (inside : window.finish ≤ request.packetCount config) (wire : Wire) :
    (sendRound config blake3 hmac secret request window).Leads wire
      fun result next => ∃ groups,
        request.Hands config blake3 hmac secret groups wire result next ∧
          groups.flatten <+: window.unacknowledged ∧
          (result = .ok () → groups.flatten = window.unacknowledged) := by
  have whole : outstanding ((window.acknowledged.zipIdx.take
      window.finish).drop window.base) = window.unacknowledged :=
    outstanding_window (slots ▸ inside)
  have ascending := unacknowledged_ascending inside
  have empty : Batch.Holds {} config blake3 hmac secret request [] :=
    ⟨rfl, rfl⟩
  refine (appendPackets_appends valid admissible _ empty (batchLimit_pos valid)
    (by simpa only [List.nil_append, whole] using ascending) wire).bind ?_ ?_
  · intro batch next given
    obtain ⟨groups, appended⟩ := given
    rw [List.nil_append, whole] at appended
    obtain ⟨left, ends, few, holds⟩ := appended.rest batch rfl
    split
    · rename_i nonempty
      rw [holds.encodedSegments] at nonempty
      have last : request.Ascending config left := by
        rw [← ends] at ascending
        exact ⟨(List.pairwise_append.mp ascending.ordered).2.1,
          fun other member => ascending.below other
            (List.mem_append_right _ member)⟩
      refine (holds.hands valid last nonempty few.le next).mono ?_
      intro result final handed
      refine ⟨groups ++ [left], appended.hands.append handed, ?_, ?_⟩
      · simp [ends]
      · intro _
        simp [ends]
    · rename_i spent
      rw [holds.encodedSegments] at spent
      obtain rfl : left = [] := List.eq_nil_of_length_eq_zero (by omega)
      rw [List.append_nil] at ends
      refine leads_pure.mpr ⟨groups, ?_, appended.front, fun _ => ends⟩
      have handed := appended.hands.append (Hands.nil () next)
      rwa [List.append_nil] at handed
  · intro fault next given
    obtain ⟨groups, appended⟩ := given
    rw [List.nil_append, whole] at appended
    exact ⟨groups, appended.hands.fails, appended.front, nofun⟩

def Checked (config : Config) (request : SendPayload) : Phase → Prop
  | .ready | .returned _ => True
  | _ => request.Admissible config

theorem check_ok :
    request.check config = .ok () ↔ request.Admissible config := by
  unfold check Admissible
  split
  · simp_all
  · split
    · simp_all
    · split <;> simp_all

theorem transmit_checked {destination : SocketAddr}
    {state next : Transmission} {event : SendEvent}
    (checked : request.Checked config state.phase)
    (stepped : request.transmit config blake3 destination state event =
      some next) : request.Checked config next.phase := by
  obtain ⟨phase, packets, moved, rfl⟩ := transmit_eq_some.mp stepped
  have once : request.Admissible config → request.Checked config phase := by
    intro admissible
    cases phase with
    | ready => trivial
    | returned result => trivial
    | _ => exact admissible
  cases before : state.phase with
  | ready =>
      rw [before] at moved
      cases event with
      | proceed =>
          simp only [step] at moved
          split at moved
          · rename_i passed
            exact once (check_ok.mp passed)
          · cases moved
            trivial
      | _ => cases moved
  | returned result =>
      rw [before] at moved
      cases moved
  | _ =>
      rw [before] at checked
      exact once checked

theorem sendRound_step (valid : config.Valid) {destination : SocketAddr}
    {events : List SendEvent} {state : Transmission} {window : Window}
    (ran : Execution.run (request.transmit config blake3 destination) {}
      events = some state)
    (phase : state.phase = .round window) (pending : window.pending = true)
    (wire : Wire) :
    (sendRound config blake3 hmac secret request window).Leads wire
      fun result next => result = .ok () → ∃ packets sent,
        request.step config blake3 destination state.phase .proceed =
            some (.awaitAcks window, packets) ∧
          next.datagrams = wire.datagrams ++ sent ∧
          sent.map .ok = packets.map (Packet.encode blake3 hmac secret) := by
  have first : request.Tallies config {} := fun _ => List.count_nil
  have tallies : request.Tallies config state :=
    Execution.run_invariant (request.Tallies config)
      (fun _ _ _ tallies stepped => tallies.step stepped) first ran
  have started : request.Checked config ({} : Transmission).phase := trivial
  have checked : request.Checked config state.phase :=
    Execution.run_invariant (fun state => request.Checked config state.phase)
      (fun _ _ _ checked stepped => transmit_checked checked stepped)
      started ran
  unfold Tallies at tallies
  rw [phase] at tallies checked
  refine (sendRound_hands valid checked tallies.slots tallies.inside
    wire).mono ?_
  intro result next given done
  obtain ⟨groups, hands, _, all⟩ := given
  obtain ⟨sent, grown, _, complete⟩ := hands.datagrams
  refine ⟨window.unacknowledged.map (request.dataPacket config), sent, ?_,
    grown, ?_⟩
  · rw [phase]
    simp only [step]
    rw [if_pos pending, if_pos]
    rw [List.all_eq_true]
    intro packet member
    obtain ⟨sequence, listed, rfl⟩ := List.mem_map.mp member
    have short := length_piece_le config request sequence
    have bounded := valid.payload.2
    apply decide_eq_true
    change (request.piece config sequence).length + 166 ≤ 1400
    omega
  · rw [complete () done, all done, List.map_map]
    rfl

/-- Batching preserves the boundaries of datagrams.  In a round, every buffer
that is handed to `send_segmented` and cut at the size of a segment yields the
packets that were put in it, its assertions hold, and every packet that is not
acknowledged is handed over once. -/
theorem segments_preserve_datagrams (config : Config)
    (blake3 : List UInt8 → Digest)
    (hmac : List UInt8 → List UInt8 → Digest) (secret : Option String)
    (request : SendPayload) (window : Window) (wire : Wire)
    (valid : config.Valid) (admissible : request.Admissible config)
    (slots : window.acknowledged.length = request.packetCount config)
    (inside : window.finish ≤ request.packetCount config) :
    (sendRound config blake3 hmac secret request window).Leads wire
      fun result next => ∃ groups,
        request.Hands config blake3 hmac secret groups wire result next ∧
          groups.flatten.Nodup ∧
          (∀ sequence ∈ groups.flatten, window.base ≤ sequence ∧
            sequence < window.finish ∧ sequence ∉ window.acked) ∧
          (result = .ok () → ∀ sequence, window.base ≤ sequence →
            sequence < window.finish → sequence ∉ window.acked →
              groups.flatten.count sequence = 1) := by
  have ascending := unacknowledged_ascending inside
  have distinct : window.unacknowledged.Nodup :=
    ascending.ordered.imp Nat.ne_of_lt
  refine (sendRound_hands valid admissible slots inside wire).mono ?_
  intro result next given
  obtain ⟨groups, hands, front, all⟩ := given
  refine ⟨groups, hands, distinct.sublist front.sublist, ?_, ?_⟩
  · intro sequence member
    exact Window.mem_unacknowledged.mp (front.subset member)
  · intro done sequence after before missing
    rw [all done]
    exact List.count_eq_one_of_mem distinct
      (Window.mem_unacknowledged.mpr ⟨after, before, missing⟩)

end Round

/-- Of three packets of 512, 512 and 76 bytes the second is acknowledged. -/
def abcLong : SendPayload where
  handle := { abcHandle with size := 1100 }
  transferId := 9
  offset := 0
  payload := List.replicate 1100 97
  readResponse := false
  bounded := by
    rw [List.length_replicate]
    decide

/-- The other two go in one buffer, also where the kernel refuses it. -/
theorem segments_preserve_datagrams_around :
    let config : Config := { udpPayloadBytes := 512 }
    let window : Window := ⟨256, [false, true, false], 0, 3, 1⟩
    let wire : Wire := { answers := [some "unsupported"] }
    let round := abcLong.sendRound config abcHash (fun _ => abcHash) none window
    (round.run wire).2.calls.map (fun call =>
        (call.encoded.length, call.segmentSize, call.segments)) =
          [(920, 678, 2)] ∧
      round.Leads wire fun result next => ∃ groups,
        abcLong.Hands config abcHash (fun _ => abcHash) none groups wire
            result next ∧
          groups.flatten.Nodup ∧
          (∀ sequence ∈ groups.flatten, window.base ≤ sequence ∧
            sequence < window.finish ∧ sequence ∉ window.acked) ∧
          (result = .ok () → ∀ sequence, window.base ≤ sequence →
            sequence < window.finish → sequence ∉ window.acked →
              groups.flatten.count sequence = 1) := by
  refine ⟨by decide +kernel, ?_⟩
  apply segments_preserve_datagrams
  · constructor <;> decide
  · refine ⟨by decide, ?_, ?_⟩ <;> decide +kernel
  · decide +kernel
  · decide +kernel

end SendPayload

end TrainPool
