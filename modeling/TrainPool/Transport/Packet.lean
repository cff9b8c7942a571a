import TrainPool.Memory.Block

namespace TrainPool

/-! The datagrams of the UDP data plane, as they are before encoding. -/

def headerLen : Nat := 166

def maxDatagram : Nat := 1400

def ackBits : Nat := 256

inductive Kind where
  | start
  | startAck
  | data
  | ack
  | nack
  | fin
  | complete
  | abort
  | readRequest
  | error
  deriving DecidableEq, Repr

structure Packet where
  kind : Kind
  flags : Nat
  transferId : Uuid
  objectId : Uuid
  blockId : Uuid
  leaseToken : Uuid
  generation : Nat
  sequenceId : Nat
  offset : Nat
  totalSize : Nat
  payload : List UInt8
  deriving DecidableEq, Repr

namespace Packet

def forHandle (kind : Kind) (handle : MemoryBlockHandle)
    (transferId : Uuid) : Packet where
  kind := kind
  flags := 0
  transferId := transferId
  objectId := handle.jobId
  blockId := handle.id
  leaseToken := handle.leaseToken
  generation := handle.generation
  sequenceId := 0
  offset := 0
  totalSize := handle.size
  payload := []

/-- `encode` refuses exactly the packets that do not fit a datagram. -/
def Encodes (packet : Packet) : Prop :=
  packet.payload.length + headerLen ≤ maxDatagram

instance (packet : Packet) : Decidable packet.Encodes :=
  inferInstanceAs (Decidable (_ ≤ _))

/-- The answer to a request repeats everything but its kind and payload. -/
def response (request : Packet) (kind : Kind) (payload : List UInt8) :
    Packet :=
  { request with kind := kind, payload := payload }

@[simp] theorem response_kind (request : Packet) (kind : Kind)
    (payload : List UInt8) : (request.response kind payload).kind = kind :=
  rfl

@[simp] theorem response_transferId (request : Packet) (kind : Kind)
    (payload : List UInt8) :
    (request.response kind payload).transferId = request.transferId :=
  rfl

end Packet

/-- A datagram after `decode`: its packet, or the message of the failure. -/
abbrev Datagram := Except String Packet

def validPackets (datagrams : List Datagram) : List Packet :=
  datagrams.filterMap Except.toOption

@[simp] theorem validPackets_nil : validPackets [] = [] := rfl

@[simp] theorem validPackets_cons_ok (packet : Packet)
    (rest : List Datagram) :
    validPackets (.ok packet :: rest) = packet :: validPackets rest := rfl

@[simp] theorem validPackets_cons_error (text : String)
    (rest : List Datagram) :
    validPackets (.error text :: rest) = validPackets rest := rfl

theorem mem_validPackets {datagrams : List Datagram} {packet : Packet} :
    packet ∈ validPackets datagrams ↔ .ok packet ∈ datagrams := by
  rw [validPackets, List.mem_filterMap]
  constructor
  · rintro ⟨datagram, listed, decoded⟩
    cases datagram with
    | error text => cases decoded
    | ok other =>
        cases decoded
        exact listed
  · exact fun listed => ⟨_, listed, rfl⟩

@[simp] theorem validPackets_ok (packets : List Packet) :
    validPackets (packets.map .ok) = packets := by
  rw [validPackets, List.filterMap_map]
  exact List.filterMap_some

theorem all_isOk (packets : List Packet) :
    (packets.map (.ok : Packet → Datagram)).all (·.isOk) = true := by
  simp [Except.isOk, Except.toBool]

/-! The bitmaps of ACK and NACK packets. -/

def setBit (payload : List UInt8) (index : Nat) : List UInt8 :=
  payload.modify (4 + index / 8) (· ||| (1 <<< UInt8.ofNat (index % 8)))

def bitmapPayload (base : Nat) (bits : List Bool) (window : Nat) :
    List UInt8 :=
  let empty := Bytes.toBigEndian 4 base ++ List.replicate (ackBits / 8) 0 ++
    Bytes.toBigEndian 2 (min window 65535)
  (bits.take ackBits).zipIdx.foldl
    (fun payload entry => if entry.1 then setBit payload entry.2 else payload)
    empty

def parseBitmap (payload : List UInt8) : Result (Nat × List UInt8 × Nat) := do
  ensure (payload.length = 38) "invalid ACK/NACK bitmap"
  pure (Bytes.fromBigEndian (payload.take 4),
    Slice.slice payload 4 36,
    Bytes.fromBigEndian (Slice.slice payload 36 38))

def bitmapContains (bitmap : List UInt8) (index : Nat) : Bool :=
  index < ackBits &&
    ((bitmap.getD (index / 8) 0) &&& (1 <<< UInt8.ofNat (index % 8))) ≠ 0

/-- The acknowledgement of a data packet whose transfer is completed or about
to be. -/
def completedDataAck (request : Packet) (window : Nat) : Packet :=
  let base := request.sequenceId / ackBits * ackBits
  request.response .ack
    (bitmapPayload base (List.replicate ackBits true) window)

@[simp] theorem completedDataAck_kind (request : Packet) (window : Nat) :
    (completedDataAck request window).kind = .ack := rfl

end TrainPool
