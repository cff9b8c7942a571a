import TrainPool.Transport.Packet

namespace TrainPool

open Slice

/-! The bytes of a datagram: a header of fixed fields, the digest of the
payload, the tag that authenticates both, and the payload. -/

/-- `TPU1`. -/
def magic : List UInt8 := [84, 80, 85, 49]

def version : UInt8 := 1

namespace Kind

def byte : Kind → UInt8
  | .start => 1
  | .startAck => 2
  | .data => 3
  | .ack => 4
  | .nack => 5
  | .fin => 6
  | .complete => 7
  | .abort => 8
  | .readRequest => 9
  | .error => 10

def tryFrom (value : UInt8) : Result Kind :=
  match value.toNat with
  | 1 => .ok .start
  | 2 => .ok .startAck
  | 3 => .ok .data
  | 4 => .ok .ack
  | 5 => .ok .nack
  | 6 => .ok .fin
  | 7 => .ok .complete
  | 8 => .ok .abort
  | 9 => .ok .readRequest
  | 10 => .ok .error
  | _ => .error (.error s!"unknown UDP packet kind {value.toNat}")

@[simp] theorem tryFrom_byte (kind : Kind) : tryFrom kind.byte = .ok kind := by
  cases kind <;> rfl

theorem tryFrom_ok {value : UInt8} {kind : Kind}
    (parsed : tryFrom value = .ok kind) : value = kind.byte := by
  apply UInt8.toNat_inj.mp
  unfold tryFrom at parsed
  split at parsed
  all_goals
    rename_i found
    cases parsed
  all_goals
    rw [found]
    rfl

theorem orderly_tryFrom (value : UInt8) : Orderly (tryFrom value) := by
  unfold tryFrom
  split
  all_goals first | exact orderly_ok _ | exact orderly_error _

end Kind

namespace Packet

structure Typed (packet : Packet) : Prop where
  flags : packet.flags < 256 ^ 2
  transferId : packet.transferId < 256 ^ 16
  objectId : packet.objectId < 256 ^ 16
  blockId : packet.blockId < 256 ^ 16
  leaseToken : packet.leaseToken < 256 ^ 16
  generation : packet.generation < 256 ^ 8
  sequenceId : packet.sequenceId < 256 ^ 4
  offset : packet.offset < 256 ^ 8
  totalSize : packet.totalSize < 256 ^ 8

section Codec

variable (blake3 : List UInt8 → Digest)
  (hmac : List UInt8 → List UInt8 → Digest) (secret : Option String)

def authenticationTag (header payload : List UInt8) : List UInt8 :=
  match secret with
  | none => List.replicate 32 0
  | some secret => (hmac secret.toUTF8.toList (header ++ payload)).toList

def header (packet : Packet) : List UInt8 :=
  magic ++ [version] ++ [packet.kind.byte] ++
    Bytes.toBigEndian 2 packet.flags ++
    Bytes.toBigEndian 16 packet.transferId ++
    Bytes.toBigEndian 16 packet.objectId ++
    Bytes.toBigEndian 16 packet.blockId ++
    Bytes.toBigEndian 16 packet.leaseToken ++
    Bytes.toBigEndian 8 packet.generation ++
    Bytes.toBigEndian 4 packet.sequenceId ++
    Bytes.toBigEndian 8 packet.offset ++
    Bytes.toBigEndian 8 packet.totalSize ++
    Bytes.toBigEndian 2 packet.payload.length ++
    (blake3 packet.payload).toList

def encode (packet : Packet) : Result (List UInt8) := do
  ensure packet.Encodes "UDP datagram exceeds MTU-safe envelope"
  pure (packet.header blake3 ++
    authenticationTag hmac secret (packet.header blake3) packet.payload ++
    packet.payload)

/-- `&datagram[start..finish]`. -/
def range (datagram : List UInt8) (start finish : Nat) :
    Result (List UInt8) := do
  inBounds (start ≤ finish ∧ finish ≤ datagram.length)
  pure (slice datagram start finish)

/-- A big-endian integer of the given width, converted from its slice. -/
def integer (width : Nat) (datagram : List UInt8) (start finish : Nat) :
    Result Nat := do
  let bytes ← range datagram start finish
  ensure (bytes.length = width) "could not convert slice to array"
  pure (Bytes.fromBigEndian bytes)

/-- `datagram[index]`. -/
def byteAt (datagram : List UInt8) (index : Nat) : Result UInt8 := do
  inBounds (index < datagram.length)
  pure (datagram.getD index 0)

def decode (datagram : List UInt8) : Result Packet := do
  ensure (headerLen ≤ datagram.length ∧ datagram.length ≤ maxDatagram)
    "invalid UDP datagram length"
  let found ← range datagram 0 4
  ensure (found = magic) "invalid UDP magic"
  let protocol ← byteAt datagram 4
  ensure (protocol = version) "unsupported UDP protocol version"
  let kind ← Kind.tryFrom (← byteAt datagram 5)
  let flags ← integer 2 datagram 6 8
  let transferId ← integer 16 datagram 8 24
  let objectId ← integer 16 datagram 24 40
  let blockId ← integer 16 datagram 40 56
  let leaseToken ← integer 16 datagram 56 72
  let generation ← integer 8 datagram 72 80
  let sequenceId ← integer 4 datagram 80 84
  let offset ← integer 8 datagram 84 92
  let totalSize ← integer 8 datagram 92 100
  let payloadLen ← integer 2 datagram 100 102
  ensure (datagram.length = headerLen + payloadLen)
    "UDP payload length mismatch"
  let payload ← range datagram headerLen datagram.length
  let digest ← range datagram 102 134
  ensure (digest = (blake3 payload).toList)
    "TRAINPOOL_CHECKSUM_MISMATCH: UDP datagram"
  let expected := authenticationTag hmac secret (← range datagram 0 134)
    payload
  let tag ← range datagram 134 166
  ensure (tag = expected) "TRAINPOOL_AUTH_FAILED: UDP datagram"
  pure {
    kind := kind
    flags := flags
    transferId := transferId
    objectId := objectId
    blockId := blockId
    leaseToken := leaseToken
    generation := generation
    sequenceId := sequenceId
    offset := offset
    totalSize := totalSize
    payload := payload }

end Codec

/-! No read leaves the datagram. -/

section Reads

variable {datagram : List UInt8} {start finish : Nat}

theorem range_eq (inside : start ≤ finish ∧ finish ≤ datagram.length) :
    range datagram start finish = .ok (slice datagram start finish) := by
  unfold range inBounds
  rw [if_pos inside]
  rfl

theorem integer_eq {width : Nat}
    (inside : start ≤ finish ∧ finish ≤ datagram.length)
    (wide : finish - start = width) :
    integer width datagram start finish =
      .ok (Bytes.fromBigEndian (slice datagram start finish)) := by
  have sized : (slice datagram start finish).length = width := by
    rw [length_slice _ _ _ inside.2, wide]
  unfold integer
  rw [range_eq inside, bind_ok]
  exact ⟨_, rfl, ensure_bind_ok.mpr ⟨sized, rfl⟩⟩

theorem byteAt_eq {index : Nat} (inside : index < datagram.length) :
    byteAt datagram index = .ok (datagram.getD index 0) := by
  unfold byteAt inBounds
  rw [if_pos inside]
  rfl

end Reads

section Decoding

variable {blake3 : List UInt8 → Digest}
  {hmac : List UInt8 → List UInt8 → Digest} {secret : Option String}
  {datagram : List UInt8} {packet : Packet}

/-- What a datagram of a valid length says, wherever its checks stand. -/
def read (kind : Kind) (datagram : List UInt8) : Packet where
  kind := kind
  flags := Bytes.fromBigEndian (slice datagram 6 8)
  transferId := Bytes.fromBigEndian (slice datagram 8 24)
  objectId := Bytes.fromBigEndian (slice datagram 24 40)
  blockId := Bytes.fromBigEndian (slice datagram 40 56)
  leaseToken := Bytes.fromBigEndian (slice datagram 56 72)
  generation := Bytes.fromBigEndian (slice datagram 72 80)
  sequenceId := Bytes.fromBigEndian (slice datagram 80 84)
  offset := Bytes.fromBigEndian (slice datagram 84 92)
  totalSize := Bytes.fromBigEndian (slice datagram 92 100)
  payload := slice datagram headerLen datagram.length

theorem decode_eq
    (sized : headerLen ≤ datagram.length ∧ datagram.length ≤ maxDatagram) :
    decode blake3 hmac secret datagram = (do
      ensure (slice datagram 0 4 = magic) "invalid UDP magic"
      ensure (datagram.getD 4 0 = version) "unsupported UDP protocol version"
      let kind ← Kind.tryFrom (datagram.getD 5 0)
      let packet := read kind datagram
      ensure (datagram.length =
          headerLen + Bytes.fromBigEndian (slice datagram 100 102))
        "UDP payload length mismatch"
      ensure (slice datagram 102 134 = (blake3 packet.payload).toList)
        "TRAINPOOL_CHECKSUM_MISMATCH: UDP datagram"
      ensure (slice datagram 134 166 = authenticationTag hmac secret
          (slice datagram 0 134) packet.payload)
        "TRAINPOOL_AUTH_FAILED: UDP datagram"
      pure packet) := by
  have long : 166 ≤ datagram.length := sized.1
  unfold decode
  rw [range_eq (by omega), byteAt_eq (by omega), byteAt_eq (by omega),
    integer_eq (by omega) (by rfl), integer_eq (by omega) (by rfl),
    integer_eq (by omega) (by rfl), integer_eq (by omega) (by rfl),
    integer_eq (by omega) (by rfl), integer_eq (by omega) (by rfl),
    integer_eq (by omega) (by rfl), integer_eq (by omega) (by rfl),
    integer_eq (by omega) (by rfl), integer_eq (by omega) (by rfl),
    range_eq ⟨sized.1, Nat.le_refl _⟩, range_eq (by omega),
    range_eq (by omega), range_eq (by omega)]
  simp only [ensure, if_pos sized]
  rfl

theorem orderly_decode (datagram : List UInt8) :
    Orderly (decode blake3 hmac secret datagram) := by
  by_cases sized :
      headerLen ≤ datagram.length ∧ datagram.length ≤ maxDatagram
  · rw [decode_eq sized]
    apply orderly_ensure_bind
    intro _
    apply orderly_ensure_bind
    intro _
    apply (Kind.orderly_tryFrom _).bind
    intro kind _
    apply orderly_ensure_bind
    intro _
    apply orderly_ensure_bind
    intro _
    apply orderly_ensure_bind
    intro _
    exact orderly_pure _
  · unfold decode
    apply orderly_ensure_bind
    intro passed
    exact absurd passed sized

theorem decode_ok :
    decode blake3 hmac secret datagram = .ok packet ↔
      (headerLen ≤ datagram.length ∧ datagram.length ≤ maxDatagram) ∧
        slice datagram 0 4 = magic ∧ datagram.getD 4 0 = version ∧
        datagram.getD 5 0 = packet.kind.byte ∧
        packet = read packet.kind datagram ∧
        datagram.length =
          headerLen + Bytes.fromBigEndian (slice datagram 100 102) ∧
        slice datagram 102 134 = (blake3 packet.payload).toList ∧
        slice datagram 134 166 = authenticationTag hmac secret
          (slice datagram 0 134) packet.payload := by
  by_cases sized :
      headerLen ≤ datagram.length ∧ datagram.length ≤ maxDatagram
  · rw [decode_eq sized]
    rw [ensure_bind_ok, ensure_bind_ok, bind_ok]
    simp only [ensure_bind_ok, pure_ok]
    constructor
    · intro decoded
      obtain ⟨found, protocol, kind, parsed, length, digest, tag, rfl⟩ :=
        decoded
      exact ⟨sized, found, protocol, Kind.tryFrom_ok parsed, rfl, length,
        digest, tag⟩
    · intro accepted
      obtain ⟨_, found, protocol, parsed, same, length, digest, tag⟩ :=
        accepted
      refine ⟨found, protocol, packet.kind, ?_, length, ?_, ?_, same.symm⟩
      · rw [parsed, Kind.tryFrom_byte]
      · rw [← same]
        exact digest
      · rw [← same]
        exact tag
  · unfold decode
    rw [ensure_bind_ok]
    constructor
    · intro decoded
      exact absurd decoded.1 sized
    · intro accepted
      exact absurd accepted.1 sized

@[simp] theorem length_authenticationTag (header payload : List UInt8) :
    (authenticationTag hmac secret header payload).length = 32 := by
  unfold authenticationTag
  split <;> simp

@[simp] theorem length_header (packet : Packet) :
    (packet.header blake3).length = 134 := by
  simp [header, magic]

theorem slice_header (packet : Packet) :
    slice (packet.header blake3) 0 4 = magic ∧
      slice (packet.header blake3) 4 5 = [version] ∧
      slice (packet.header blake3) 5 6 = [packet.kind.byte] ∧
      slice (packet.header blake3) 6 8 = Bytes.toBigEndian 2 packet.flags ∧
      slice (packet.header blake3) 8 24 =
        Bytes.toBigEndian 16 packet.transferId ∧
      slice (packet.header blake3) 24 40 =
        Bytes.toBigEndian 16 packet.objectId ∧
      slice (packet.header blake3) 40 56 =
        Bytes.toBigEndian 16 packet.blockId ∧
      slice (packet.header blake3) 56 72 =
        Bytes.toBigEndian 16 packet.leaseToken ∧
      slice (packet.header blake3) 72 80 =
        Bytes.toBigEndian 8 packet.generation ∧
      slice (packet.header blake3) 80 84 =
        Bytes.toBigEndian 4 packet.sequenceId ∧
      slice (packet.header blake3) 84 92 =
        Bytes.toBigEndian 8 packet.offset ∧
      slice (packet.header blake3) 92 100 =
        Bytes.toBigEndian 8 packet.totalSize ∧
      slice (packet.header blake3) 100 102 =
        Bytes.toBigEndian 2 packet.payload.length ∧
      slice (packet.header blake3) 102 134 =
        (blake3 packet.payload).toList := by
  have four : magic.length = 4 := rfl
  unfold header
  refine ⟨?_, ?_, ?_, ?_, ?_, ?_, ?_, ?_, ?_, ?_, ?_, ?_, ?_, ?_⟩
  all_goals
    simp (disch := simp [four]) only [slice_append_left, slice_append_right,
      slice_all]
  all_goals
    simp [four, slice_all]

theorem slice_encoded {header tag payload : List UInt8}
    {start finish : Nat} (inside : finish ≤ header.length) :
    slice (header ++ tag ++ payload) start finish =
      slice header start finish := by
  rw [List.append_assoc, slice_append_left inside]

theorem getD_of_slice {bytes : List UInt8} {index : Nat} {byte : UInt8}
    (here : slice bytes index (index + 1) = [byte]) :
    bytes.getD index 0 = byte := by
  have found := getElem?_slice bytes index (index + 1) 0
  rw [here, Nat.add_zero, if_pos (Nat.lt_succ_self _)] at found
  rw [List.getD_eq_getElem?_getD, ← found]
  rfl

theorem slice_of_getD {bytes : List UInt8} {index : Nat}
    (inside : index < bytes.length) :
    slice bytes index (index + 1) = [bytes.getD index 0] := by
  apply List.ext_getElem?
  intro place
  rw [getElem?_slice]
  cases place with
  | zero => simp [List.getD_eq_getElem?_getD, List.getElem?_eq_getElem inside]
  | succ place => simp

theorem decode_encode (typed : packet.Typed)
    (encoded : encode blake3 hmac secret packet = .ok datagram) :
    decode blake3 hmac secret datagram = .ok packet := by
  obtain ⟨fits, written⟩ := ensure_bind_ok.mp encoded
  obtain rfl := pure_ok.mp written
  have small : packet.payload.length + 166 ≤ 1400 := fits
  obtain ⟨found, protocol, kind, flags, transfer, object, block, lease,
    generation, sequence, offset, total, length, digest⟩ :=
    @slice_header blake3 packet
  have within : ∀ start finish : Nat, finish ≤ 134 →
      slice (packet.header blake3 ++ authenticationTag hmac secret
        (packet.header blake3) packet.payload ++ packet.payload) start finish =
          slice (packet.header blake3) start finish := by
    intro start finish inside
    exact slice_encoded (by simpa using inside)
  have payload : slice (packet.header blake3 ++ authenticationTag hmac secret
      (packet.header blake3) packet.payload ++ packet.payload) headerLen
        (packet.header blake3 ++ authenticationTag hmac secret
          (packet.header blake3) packet.payload ++
            packet.payload).length = packet.payload := by
    rw [slice_append_right (by simp [headerLen])]
    simp only [headerLen, List.length_append, length_header,
      length_authenticationTag]
    exact slice_all (by omega)
  rw [decode_ok]
  refine ⟨?_, ?_, ?_, ?_, ?_, ?_, ?_, ?_⟩
  · simp only [List.length_append, length_header,
      length_authenticationTag, headerLen, maxDatagram]
    omega
  · rw [within _ _ (by decide), found]
  · apply getD_of_slice
    rw [within _ _ (by decide), protocol]
  · apply getD_of_slice
    rw [within _ _ (by decide), kind]
  · unfold read
    rw [payload, within _ _ (by decide), within _ _ (by decide), within _ _ (by decide),
      within _ _ (by decide), within _ _ (by decide), within _ _ (by decide),
      within _ _ (by decide), within _ _ (by decide), within _ _ (by decide), flags,
      transfer, object, block, lease, generation, sequence, offset, total,
      Bytes.fromBigEndian_toBigEndian typed.flags,
      Bytes.fromBigEndian_toBigEndian typed.transferId,
      Bytes.fromBigEndian_toBigEndian typed.objectId,
      Bytes.fromBigEndian_toBigEndian typed.blockId,
      Bytes.fromBigEndian_toBigEndian typed.leaseToken,
      Bytes.fromBigEndian_toBigEndian typed.generation,
      Bytes.fromBigEndian_toBigEndian typed.sequenceId,
      Bytes.fromBigEndian_toBigEndian typed.offset,
      Bytes.fromBigEndian_toBigEndian typed.totalSize]
  · rw [within _ _ (by decide), length, Bytes.fromBigEndian_toBigEndian (by
      rw [show 256 ^ 2 = 65536 from rfl]
      omega)]
    simp only [headerLen, List.length_append, length_header,
      length_authenticationTag]
  · rw [within _ _ (by decide), digest]
  · rw [within 0 134 (Nat.le_refl 134), slice_all (length_header packet),
      slice_append_left (by simp), slice_append_right (by simp),
      length_header]
    exact slice_all (length_authenticationTag _ _)

theorem toBigEndian_slice (long : 166 ≤ datagram.length) (start width : Nat)
    (inside : start + width ≤ 166) :
    Bytes.toBigEndian width (Bytes.fromBigEndian
      (slice datagram start (start + width))) =
        slice datagram start (start + width) := by
  have sized : (slice datagram start (start + width)).length = width := by
    rw [length_slice _ _ _ (by omega)]
    omega
  have whole := Bytes.toBigEndian_fromBigEndian
    (slice datagram start (start + width))
  rwa [sized] at whole

theorem header_read (long : 166 ≤ datagram.length)
    (found : slice datagram 0 4 = magic)
    (protocol : datagram.getD 4 0 = version)
    (kind : datagram.getD 5 0 = packet.kind.byte)
    (same : packet = read packet.kind datagram)
    (sized : packet.payload.length =
      Bytes.fromBigEndian (slice datagram 100 102))
    (digest : slice datagram 102 134 = (blake3 packet.payload).toList) :
    packet.header blake3 = slice datagram 0 134 := by
  have flags : Bytes.toBigEndian 2 packet.flags = slice datagram 6 8 := by
    rw [same]
    exact toBigEndian_slice long 6 2 (by decide)
  have transfer : Bytes.toBigEndian 16 packet.transferId =
      slice datagram 8 24 := by
    rw [same]
    exact toBigEndian_slice long 8 16 (by decide)
  have object : Bytes.toBigEndian 16 packet.objectId =
      slice datagram 24 40 := by
    rw [same]
    exact toBigEndian_slice long 24 16 (by decide)
  have block : Bytes.toBigEndian 16 packet.blockId =
      slice datagram 40 56 := by
    rw [same]
    exact toBigEndian_slice long 40 16 (by decide)
  have lease : Bytes.toBigEndian 16 packet.leaseToken =
      slice datagram 56 72 := by
    rw [same]
    exact toBigEndian_slice long 56 16 (by decide)
  have generation : Bytes.toBigEndian 8 packet.generation =
      slice datagram 72 80 := by
    rw [same]
    exact toBigEndian_slice long 72 8 (by decide)
  have sequence : Bytes.toBigEndian 4 packet.sequenceId =
      slice datagram 80 84 := by
    rw [same]
    exact toBigEndian_slice long 80 4 (by decide)
  have offset : Bytes.toBigEndian 8 packet.offset =
      slice datagram 84 92 := by
    rw [same]
    exact toBigEndian_slice long 84 8 (by decide)
  have total : Bytes.toBigEndian 8 packet.totalSize =
      slice datagram 92 100 := by
    rw [same]
    exact toBigEndian_slice long 92 8 (by decide)
  have length : Bytes.toBigEndian 2 packet.payload.length =
      slice datagram 100 102 := by
    rw [sized]
    exact toBigEndian_slice long 100 2 (by decide)
  have protocol : [version] = slice datagram 4 5 := by
    rw [slice_of_getD (by omega), protocol]
  have kind : [packet.kind.byte] = slice datagram 5 6 := by
    rw [slice_of_getD (by omega), kind]
  unfold header
  rw [← found, protocol, kind, flags, transfer, object, block, lease,
    generation, sequence, offset, total, length, ← digest]
  simp (disch := decide) only [slice_join]

theorem encode_decode
    (decoded : decode blake3 hmac secret datagram = .ok packet) :
    encode blake3 hmac secret packet = .ok datagram := by
  obtain ⟨⟨long, short⟩, found, protocol, kind, same, length, digest, tag⟩ :=
    decode_ok.mp decoded
  have payload : packet.payload =
      slice datagram headerLen datagram.length := by
    rw [same]
    rfl
  have sized : packet.payload.length =
      Bytes.fromBigEndian (slice datagram 100 102) := by
    rw [payload, length_slice _ _ _ (Nat.le_refl _), length]
    omega
  have written := header_read long found protocol kind same sized digest
  have fits : packet.Encodes := by
    rw [Encodes, payload, length_slice _ _ _ (Nat.le_refl _)]
    omega
  apply ensure_bind_ok.mpr
  refine ⟨fits, pure_ok.mpr ?_⟩
  rw [written, ← tag, payload, slice_join (by decide) (by decide)]
  have joined : slice datagram 0 headerLen ++
      slice datagram headerLen datagram.length =
        slice datagram 0 datagram.length :=
    slice_join (Nat.zero_le _) long
  exact joined.trans (slice_all rfl)

theorem decode_typed
    (decoded : decode blake3 hmac secret datagram = .ok packet) :
    packet.Typed := by
  obtain ⟨⟨long, _⟩, _, _, _, same, _⟩ := decode_ok.mp decoded
  have long : 166 ≤ datagram.length := long
  have field : ∀ start width : Nat, start + width ≤ 166 →
      Bytes.fromBigEndian (slice datagram start (start + width)) <
        256 ^ width := by
    intro start width inside
    have sized : (slice datagram start (start + width)).length = width := by
      rw [length_slice _ _ _ (by omega)]
      omega
    have small := Bytes.fromBigEndian_lt
      (slice datagram start (start + width))
    rwa [sized] at small
  rw [same]
  exact ⟨field 6 2 (by decide), field 8 16 (by decide),
    field 24 16 (by decide), field 40 16 (by decide),
    field 56 16 (by decide), field 72 8 (by decide),
    field 80 4 (by decide), field 84 8 (by decide), field 92 8 (by decide)⟩

end Decoding

/-- Encoding and decoding are inverse to each other, for every secret: a packet
that fits a datagram is read back, no other one is encoded, and a datagram that
is accepted, which no read of `decode` leaves, is the encoding of its packet. -/
theorem codec_bijective (blake3 : List UInt8 → Digest)
    (hmac : List UInt8 → List UInt8 → Digest) (secret : Option String) :
    (∀ packet : Packet, packet.Typed →
      (packet.Encodes → ∃ datagram,
        encode blake3 hmac secret packet = .ok datagram ∧
          decode blake3 hmac secret datagram = .ok packet) ∧
      (¬packet.Encodes → ∃ fault,
        encode blake3 hmac secret packet = .error fault)) ∧
    ∀ datagram : List UInt8,
      Orderly (decode blake3 hmac secret datagram) ∧
      ∀ packet, decode blake3 hmac secret datagram = .ok packet →
        packet.Typed ∧ encode blake3 hmac secret packet = .ok datagram := by
  constructor
  · intro packet typed
    constructor
    · intro fits
      have encoded : encode blake3 hmac secret packet = .ok _ :=
        ensure_bind_ok.mpr ⟨fits, rfl⟩
      exact ⟨_, encoded, decode_encode typed encoded⟩
    · intro large
      refine ⟨.error "UDP datagram exceeds MTU-safe envelope", ?_⟩
      simp only [encode, ensure, if_neg large]
      rfl
  · intro datagram
    refine ⟨orderly_decode datagram, ?_⟩
    intro packet decoded
    exact ⟨decode_typed decoded, encode_decode decoded⟩

def samplePacket : Packet where
  kind := .data
  flags := 0
  transferId := 1
  objectId := 2
  blockId := 3
  leaseToken := 4
  generation := 5
  sequenceId := 6
  offset := 7
  totalSize := 8
  payload := [9, 9, 9]

theorem samplePacket_typed : samplePacket.Typed := by
  constructor <;> decide

theorem codec_bijective_sample :
    ∃ datagram,
      encode abcHash (fun _ => abcHash) (some "secret") samplePacket =
          .ok datagram ∧
        decode abcHash (fun _ => abcHash) (some "secret") datagram =
          .ok samplePacket :=
  ((codec_bijective abcHash (fun _ => abcHash) (some "secret")).1
    samplePacket samplePacket_typed).1 (by decide)

end Packet

end TrainPool
