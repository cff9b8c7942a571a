import TrainPool.Basic
import TrainPool.Library.Bytes
import TrainPool.Library.Slice

namespace TrainPool

open Slice

inductive Location where
  | gpu (nodeId : Uuid) (gpuId : String)
  | ram (nodeId : Uuid)
  | disk (nodeId : Uuid)
  deriving DecidableEq, Repr

inductive BlockState where
  | writing
  | ready
  | migrating
  | lost
  deriving DecidableEq, Repr

structure TensorMetadata where
  dtype : String
  shape : List Nat
  layout : String
  byteLength : Nat
  deriving DecidableEq, Repr

namespace TensorMetadata

def width (dtype : String) : Result Nat :=
  match dtype with
  | "uint8" | "int8" | "bool" => .ok 1
  | "float16" | "bfloat16" | "int16" => .ok 2
  | "float32" | "int32" => .ok 4
  | "float64" | "int64" | "complex64" => .ok 8
  | "complex128" => .ok 16
  | _ => .error (.error "unsupported tensor dtype")

/-- `u64::checked_mul`. -/
def checkedMul (left right : Nat) : Option Nat :=
  if left * right < 2 ^ 64 then some (left * right) else none

def validate (metadata : TensorMetadata) (size : Nat) : Result Unit := do
  ensure (metadata.layout = "contiguous" ∧ metadata.shape.length ≤ 32)
    "unsupported tensor layout or rank"
  let width ← width metadata.dtype
  let bytes := metadata.shape.foldlM checkedMul width
  ensure (bytes = some size ∧ size = metadata.byteLength)
    "tensor shape/dtype/byte_length mismatch"

end TensorMetadata

structure MemoryBlockHandle where
  id : Uuid
  jobId : Uuid
  size : Nat
  ownerNode : Uuid
  ownerIncarnation : Uuid
  locationType : Location
  checksum : Option String
  state : BlockState
  leaseToken : Uuid
  leaseExpiresMs : Nat
  generation : Nat
  tensor : Option TensorMetadata
  deriving DecidableEq, Repr

/-- A block of a daemon.  The incremental hasher is represented by the bytes it
has absorbed, so that its digest is the hash of those bytes. -/
structure RamBlock where
  handle : MemoryBlockHandle
  bytes : List UInt8
  written : Nat
  transferId : Option Uuid
  hash : List UInt8
  published : Bool
  deriving DecidableEq, Repr

/-- The chunk a write request announces before its bytes arrive. -/
structure Chunk where
  transferId : Uuid
  offset : Nat
  length : Nat
  totalSize : Nat
  checksum : String
  deriving DecidableEq, Repr

namespace RamBlock

/-! The critical sections of the handlers, each a function of the block whose
mutex the handler holds. -/

def authorize (now : Nat) (block : RamBlock) (token : Uuid) :
    Result Unit := do
  ensure (token = block.handle.leaseToken) "TRAINPOOL_LEASE_DENIED"
  ensure (now < block.handle.leaseExpiresMs) "TRAINPOOL_LEASE_EXPIRED"

/-- The block that `LocalRam::allocate` stores for a handle. -/
def allocated (handle : MemoryBlockHandle) : RamBlock where
  handle := handle
  bytes := List.replicate handle.size 0
  written := 0
  transferId := none
  hash := []
  published := handle.generation = 0

/-- Copy a verified chunk to its offset and advance the hasher over it. -/
def extend (block : RamBlock) (offset : Nat) (payload : List UInt8)
    (transferId : Uuid) : RamBlock :=
  { block with
    bytes := overwrite block.bytes offset payload
    hash := block.hash ++ payload
    transferId := some transferId
    written := offset + payload.length }

/-- `WriteChunk` of a block owned by the daemon that received it; `handle` is
the resolved handle. -/
def writeLocal (now : Nat) (handle : MemoryBlockHandle) (transferId : Uuid)
    (offset : Nat) (payload : List UInt8) (block : RamBlock) :
    Result RamBlock := do
  block.authorize now handle.leaseToken
  ensure (block.handle.state = .writing ∧
      block.handle.generation = handle.generation ∧ block.written = offset)
    "block is immutable, stale or non-sequential"
  inBounds (offset + payload.length ≤ block.bytes.length)
  pure (block.extend offset payload transferId)

/-- The checks of a direct `WriteChunk` before its bytes are streamed. -/
def admitDirect (now : Nat) (handle : MemoryBlockHandle) (chunk : Chunk)
    (block : RamBlock) : Result Unit := do
  block.authorize now handle.leaseToken
  ensure (block.handle.state = .writing ∧
      block.handle.generation = handle.generation)
    "block is immutable or stale"
  ensure (block.written = chunk.offset ∧
      block.handle.size = chunk.totalSize) "chunks must be sequential"
  ensure (block.transferId.all (· = chunk.transferId)) "transfer id mismatch"
  inBounds (chunk.offset + chunk.length ≤ block.bytes.length)

/-- Bytes of a direct write land in the slice of the chunk as they arrive. -/
def stream (chunk : Chunk) (arrived : Nat) (piece : List UInt8)
    (block : RamBlock) : RamBlock :=
  { block with bytes := overwrite block.bytes (chunk.offset + arrived) piece }

def finishDirect (blake3 : List UInt8 → Digest) (chunk : Chunk)
    (block : RamBlock) : Result RamBlock := do
  let finish := chunk.offset + chunk.length
  let piece := slice block.bytes chunk.offset finish
  ensure (Bytes.toHex (blake3 piece).toList = chunk.checksum)
    "TRAINPOOL_CHECKSUM_MISMATCH"
  pure { block with
    hash := block.hash ++ piece
    transferId := some chunk.transferId
    written := finish }

def finishUdp (now : Nat) (token generation baseOffset : Nat)
    (buffer : List UInt8) (transferId : Uuid) (block : RamBlock) :
    Result RamBlock := do
  block.authorize now token
  ensure (block.handle.generation = generation ∧
      block.handle.state = .writing ∧ block.written = baseOffset)
    "UDP destination changed before completion"
  inBounds (baseOffset + buffer.length ≤ block.bytes.length)
  pure (block.extend baseOffset buffer transferId)

def commit (blake3 : List UInt8 → Digest) (now : Nat)
    (handle : MemoryBlockHandle) (checksum : String) (block : RamBlock) :
    Result RamBlock := do
  block.authorize now handle.leaseToken
  ensure (block.written = block.bytes.length) "incomplete upload"
  ensure (Bytes.toHex (blake3 block.hash).toList = checksum)
    "TRAINPOOL_CHECKSUM_MISMATCH"
  pure { block with handle :=
    { block.handle with state := .ready, checksum := some checksum } }

def renew (now leaseSeconds : Nat) (handle : MemoryBlockHandle)
    (block : RamBlock) : Result RamBlock := do
  block.authorize now handle.leaseToken
  pure { block with handle :=
    { block.handle with leaseExpiresMs := now + leaseSeconds * 1000 } }

def publish (now : Nat) (handle : MemoryBlockHandle) (block : RamBlock) :
    Result RamBlock := do
  block.authorize now handle.leaseToken
  ensure (block.handle.generation = handle.generation ∧
      block.handle.state = .ready) "destination is not ready"
  pure { block with published := true }

/-- The checks of `migrate` on the block it pins. -/
def admitMigration (now : Nat) (handle : MemoryBlockHandle)
    (block : RamBlock) : Result Unit := do
  block.authorize now handle.leaseToken
  ensure (block.handle.generation = handle.generation ∧
      block.handle.state = .ready)
    "migration requires current committed block"

def read (now : Nat) (handle : MemoryBlockHandle) (offset length : Nat)
    (block : RamBlock) : Result (List UInt8) := do
  block.authorize now handle.leaseToken
  ensure (block.handle.state = .ready ∧
      block.handle.generation = handle.generation)
    "block not ready or handle stale"
  ensure (offset + length ≤ block.bytes.length) "read exceeds allocation"
  pure (slice block.bytes offset (offset + length))

/-! What the handlers can do to a block, said once. -/

inductive Change (blake3 : List UInt8 → Digest) :
    RamBlock → RamBlock → Prop
  | same (block : RamBlock) : Change blake3 block block
  | extend (block : RamBlock) (payload : List UInt8) (transferId : Uuid)
      (writing : block.handle.state = .writing)
      (fits : block.written + payload.length ≤ block.bytes.length) :
      Change blake3 block (block.extend block.written payload transferId)
  | scribble (block : RamBlock) (start : Nat) (piece : List UInt8)
      (writing : block.handle.state = .writing)
      (after : block.written ≤ start)
      (fits : start + piece.length ≤ block.bytes.length) :
      Change blake3 block
        { block with bytes := overwrite block.bytes start piece }
  | absorb (block : RamBlock) (finish : Nat) (transferId : Uuid)
      (writing : block.handle.state = .writing)
      (after : block.written ≤ finish) (fits : finish ≤ block.bytes.length) :
      Change blake3 block
        { block with
          hash := block.hash ++ slice block.bytes block.written finish
          transferId := some transferId
          written := finish }
  | commit (block : RamBlock) (checksum : String)
      (complete : block.written = block.bytes.length)
      (digest : Bytes.toHex (blake3 block.hash).toList = checksum) :
      Change blake3 block
        { block with handle :=
          { block.handle with state := .ready, checksum := some checksum } }
  | renew (block : RamBlock) (leaseExpiresMs : Nat) :
      Change blake3 block
        { block with handle :=
          { block.handle with leaseExpiresMs := leaseExpiresMs } }
  | publish (block : RamBlock) :
      Change blake3 block { block with published := true }

theorem authorize_ok {now : Nat} {block : RamBlock} {token : Uuid} :
    block.authorize now token = .ok () ↔
      token = block.handle.leaseToken ∧
        now < block.handle.leaseExpiresMs := by
  simp [authorize, ensure_bind_ok]

theorem authorize_bind_ok {β : Type} {now : Nat} {block : RamBlock}
    {token : Uuid} {second : Unit → Result β} {value : β} :
    (block.authorize now token >>= second) = .ok value ↔
      (token = block.handle.leaseToken ∧
        now < block.handle.leaseExpiresMs) ∧ second () = .ok value := by
  rw [bind_ok, ← authorize_ok]
  constructor
  · rintro ⟨⟨⟩, passed, rest⟩
    exact ⟨passed, rest⟩
  · intro given
    obtain ⟨passed, rest⟩ := given
    exact ⟨(), passed, rest⟩

section Changes

variable {blake3 : List UInt8 → Digest} {now : Nat} {block next : RamBlock}

theorem writeLocal_change {handle : MemoryBlockHandle} {transferId : Uuid}
    {offset : Nat} {payload : List UInt8}
    (written : block.writeLocal now handle transferId offset payload =
      .ok next) : Change blake3 block next := by
  simp only [writeLocal, authorize_bind_ok, ensure_bind_ok,
    inBounds_bind_ok, pure_ok] at written
  obtain ⟨_, ⟨writing, _, rfl⟩, fits, rfl⟩ := written
  exact .extend block payload transferId writing fits

theorem finishUdp_ok {token generation baseOffset : Nat}
    {buffer : List UInt8} {transferId : Uuid} :
    block.finishUdp now token generation baseOffset buffer transferId =
        .ok next ↔
      (token = block.handle.leaseToken ∧ now < block.handle.leaseExpiresMs) ∧
        (block.handle.generation = generation ∧
          block.handle.state = .writing ∧ block.written = baseOffset) ∧
        baseOffset + buffer.length ≤ block.bytes.length ∧
        block.extend baseOffset buffer transferId = next := by
  simp only [finishUdp, authorize_bind_ok, ensure_bind_ok,
    inBounds_bind_ok, pure_ok]

theorem finishUdp_change {token generation baseOffset : Nat}
    {buffer : List UInt8} {transferId : Uuid}
    (finished : block.finishUdp now token generation baseOffset buffer
      transferId = .ok next) : Change blake3 block next := by
  obtain ⟨_, ⟨_, writing, rfl⟩, fits, rfl⟩ := finishUdp_ok.mp finished
  exact .extend block buffer transferId writing fits

theorem admitDirect_ok {handle : MemoryBlockHandle} {chunk : Chunk}
    (admitted : block.admitDirect now handle chunk = .ok ()) :
    block.handle.state = .writing ∧ block.written = chunk.offset ∧
      chunk.offset + chunk.length ≤ block.bytes.length := by
  simp only [admitDirect, authorize_bind_ok, ensure_bind_ok,
    inBounds_ok] at admitted
  obtain ⟨_, ⟨writing, _⟩, ⟨sequential, _⟩, _, fits⟩ := admitted
  exact ⟨writing, sequential, fits⟩

theorem finishDirect_change {chunk : Chunk}
    (writing : block.handle.state = .writing)
    (sequential : block.written = chunk.offset)
    (fits : chunk.offset + chunk.length ≤ block.bytes.length)
    (finished : block.finishDirect blake3 chunk = .ok next) :
    Change blake3 block next := by
  simp only [finishDirect, ensure_bind_ok, pure_ok] at finished
  obtain ⟨_, rfl⟩ := finished
  rw [← sequential] at fits ⊢
  exact .absorb block _ _ writing (Nat.le_add_right _ _) fits

theorem commit_change {handle : MemoryBlockHandle} {checksum : String}
    (committed : block.commit blake3 now handle checksum = .ok next) :
    Change blake3 block next := by
  simp only [commit, authorize_bind_ok, ensure_bind_ok, pure_ok] at committed
  obtain ⟨_, complete, digest, rfl⟩ := committed
  exact .commit block checksum complete digest

theorem renew_change {leaseSeconds : Nat} {handle : MemoryBlockHandle}
    (renewed : block.renew now leaseSeconds handle = .ok next) :
    Change blake3 block next := by
  simp only [renew, authorize_bind_ok, pure_ok] at renewed
  obtain ⟨_, rfl⟩ := renewed
  exact .renew block _

theorem publish_change {handle : MemoryBlockHandle}
    (published : block.publish now handle = .ok next) :
    Change blake3 block next := by
  simp only [publish, authorize_bind_ok, ensure_bind_ok, pure_ok] at published
  obtain ⟨_, _, rfl⟩ := published
  exact .publish block

end Changes

structure Intact (blake3 : List UInt8 → Digest) (block : RamBlock) :
    Prop where
  length : block.bytes.length = block.handle.size
  bounded : block.written ≤ block.bytes.length
  hashed : block.hash = block.bytes.take block.written
  ready : block.handle.state = .ready →
    block.written = block.bytes.length ∧
      block.handle.checksum =
        some (Bytes.toHex (blake3 block.bytes).toList)

/-- What a later state of a block keeps of an earlier one. -/
structure Grows (earlier later : RamBlock) : Prop where
  written : earlier.written ≤ later.written
  kept : later.bytes.take earlier.written =
    earlier.bytes.take earlier.written
  identity : later.handle.id = earlier.handle.id ∧
    later.handle.generation = earlier.handle.generation ∧
    later.handle.size = earlier.handle.size ∧
    later.handle.leaseToken = earlier.handle.leaseToken ∧
    later.handle.ownerNode = earlier.handle.ownerNode
  ready : earlier.handle.state = .ready →
    later.bytes = earlier.bytes ∧ later.handle.state = .ready ∧
      later.handle.checksum = earlier.handle.checksum

theorem Grows.refl (block : RamBlock) : Grows block block where
  written := Nat.le_refl _
  kept := rfl
  identity := ⟨rfl, rfl, rfl, rfl, rfl⟩
  ready := fun ready => ⟨rfl, ready, rfl⟩

theorem Grows.trans {first second third : RamBlock}
    (early : Grows first second) (late : Grows second third) :
    Grows first third where
  written := Nat.le_trans early.written late.written
  kept := by
    have shared := congrArg (List.take first.written) late.kept
    rw [List.take_take, List.take_take,
      Nat.min_eq_left early.written] at shared
    exact shared.trans early.kept
  identity := by
    obtain ⟨id₁, generation₁, size₁, token₁, owner₁⟩ := early.identity
    obtain ⟨id₂, generation₂, size₂, token₂, owner₂⟩ := late.identity
    exact ⟨id₂.trans id₁, generation₂.trans generation₁, size₂.trans size₁,
      token₂.trans token₁, owner₂.trans owner₁⟩
  ready := by
    intro ready
    obtain ⟨bytes₁, state₁, checksum₁⟩ := early.ready ready
    obtain ⟨bytes₂, state₂, checksum₂⟩ := late.ready state₁
    exact ⟨bytes₂.trans bytes₁, state₂, checksum₂.trans checksum₁⟩

theorem allocated_intact (blake3 : List UInt8 → Digest)
    {handle : MemoryBlockHandle} (writing : handle.state = .writing) :
    Intact blake3 (allocated handle) where
  length := by simp [allocated]
  bounded := by simp [allocated]
  hashed := by simp [allocated]
  ready := by
    intro ready
    simp [allocated, writing] at ready

theorem Change.intact {blake3 : List UInt8 → Digest} {block next : RamBlock}
    (change : Change blake3 block next) (intact : Intact blake3 block) :
    Intact blake3 next := by
  cases change with
  | same => exact intact
  | extend payload transferId writing fits =>
      refine ⟨?_, ?_, ?_, ?_⟩
      · exact (length_overwrite fits).trans intact.length
      · simp only [RamBlock.extend]
        rw [length_overwrite fits]
        exact fits
      · simp only [RamBlock.extend]
        rw [take_overwrite_end intact.bounded, intact.hashed]
      · intro ready
        simp [RamBlock.extend, writing] at ready
  | scribble start piece writing after fits =>
      have sized := length_overwrite fits
      refine ⟨?_, ?_, ?_, ?_⟩
      · exact sized.trans intact.length
      · exact sized ▸ intact.bounded
      · rw [take_overwrite_of_le (by omega) after]
        exact intact.hashed
      · intro ready
        simp [writing] at ready
  | absorb finish transferId writing after fits =>
      refine ⟨intact.length, fits, ?_, ?_⟩
      · simp only [intact.hashed, slice]
        rw [← Nat.min_eq_left after, ← List.take_take, Nat.min_eq_left after]
        exact List.take_append_drop _ _
      · intro ready
        simp [writing] at ready
  | commit checksum complete digest =>
      refine ⟨intact.length, intact.bounded, intact.hashed, ?_⟩
      intro _
      refine ⟨complete, ?_⟩
      have whole : block.hash = block.bytes := by
        rw [intact.hashed, complete, List.take_length]
      rw [← whole, digest]
  | renew => exact ⟨intact.length, intact.bounded, intact.hashed, intact.ready⟩
  | publish =>
      exact ⟨intact.length, intact.bounded, intact.hashed, intact.ready⟩

theorem Change.grows {blake3 : List UInt8 → Digest} {block next : RamBlock}
    (change : Change blake3 block next) (intact : Intact blake3 block) :
    Grows block next := by
  cases change with
  | same => exact Grows.refl block
  | extend payload transferId writing fits =>
      refine ⟨Nat.le_add_right _ _, take_overwrite intact.bounded,
        ⟨rfl, rfl, rfl, rfl, rfl⟩, ?_⟩
      intro ready
      simp [writing] at ready
  | scribble start piece writing after fits =>
      refine ⟨Nat.le_refl _, take_overwrite_of_le (by omega) after,
        ⟨rfl, rfl, rfl, rfl, rfl⟩, ?_⟩
      intro ready
      simp [writing] at ready
  | absorb finish transferId writing after fits =>
      refine ⟨after, rfl, ⟨rfl, rfl, rfl, rfl, rfl⟩, ?_⟩
      intro ready
      simp [writing] at ready
  | commit checksum complete digest =>
      refine ⟨Nat.le_refl _, rfl, ⟨rfl, rfl, rfl, rfl, rfl⟩, ?_⟩
      intro ready
      refine ⟨rfl, rfl, ?_⟩
      have whole : block.hash = block.bytes := by
        rw [intact.hashed, complete, List.take_length]
      rw [(intact.ready ready).2, ← whole, digest]
  | renew =>
      exact ⟨Nat.le_refl _, rfl, ⟨rfl, rfl, rfl, rfl, rfl⟩,
        fun ready => ⟨rfl, ready, rfl⟩⟩
  | publish =>
      exact ⟨Nat.le_refl _, rfl, ⟨rfl, rfl, rfl, rfl, rfl⟩,
        fun ready => ⟨rfl, ready, rfl⟩⟩

end RamBlock

/-! The values on which runs are tried out. -/

/-- A hash that agrees with BLAKE3 on the bytes of `abc`. -/
def abcHash (_ : List UInt8) : Digest :=
  #v[100, 55, 179, 172, 56, 70, 81, 51, 255, 182, 59, 117, 39, 58, 141, 181,
    72, 197, 88, 70, 93, 121, 219, 3, 253, 53, 156, 108, 213, 189, 157, 133]

def abcHandle : MemoryBlockHandle where
  id := 7
  jobId := 3
  size := 3
  ownerNode := 2
  ownerIncarnation := 20
  locationType := .ram 2
  checksum := none
  state := .writing
  leaseToken := 5
  leaseExpiresMs := 300000
  generation := 0
  tensor := none

/-- The same block once `abc` is committed. -/
def abcReady : MemoryBlockHandle :=
  { abcHandle with
    state := .ready
    checksum := some
      "6437b3ac38465133ffb63b75273a8db548c558465d79db03fd359c6cd5bd9d85" }

end TrainPool
