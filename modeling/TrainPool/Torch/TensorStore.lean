import Mathlib.Algebra.BigOperators.Group.Finset.Basic
import Mathlib.Algebra.Order.Ring.Int
import Mathlib.Data.List.Dedup
import TrainPool.Basic
import TrainPool.Library.Failing
import TrainPool.Library.Slice
import TrainPool.Torch.Handles

namespace TrainPool

/-! The tensor store: every tensor is resident on the GPU or backed by blocks
of the daemons, and moves between the two. -/

inductive Device where
  | cpu
  | cuda
  | other
  deriving DecidableEq, Repr

/-- A committed block as the client names it; `isLocal` says whether its owner
is the local node. -/
structure BackingBlock where
  id : Uuid
  size : Nat
  isLocal : Bool
  deriving DecidableEq, Repr

/-- A position, or a text of which only matters whether it says `next`. -/
inductive NextUse where
  | index (position : Int)
  | hint (next : Bool)
  deriving DecidableEq, Repr

/-- `value` is what the tensor was when it was offloaded; no operation reads
it. -/
structure TensorHandle where
  value : List UInt8 := []
  size : Nat := 0
  device : Device := .cpu
  blocks : List BackingBlock := []
  expectedNextUse : Option NextUse := none
  dirty : Bool := false
  resident : Option (List UInt8) := none
  remainingConsumers : Int := 1
  reuseCount : Nat := 0
  accessIndex : Int := 0
  transferCost : Nat := 1
  deriving DecidableEq, Repr

structure ResidencyCandidate where
  id : Handle
  size : Nat
  nextUse : Option Int
  remainingConsumers : Int
  transferCost : Nat
  reuseCount : Nat
  deriving DecidableEq, Repr

structure CudaReading where
  driverFree : Nat
  allocated : Nat
  reserved : Nat
  deriving DecidableEq, Repr

/-- What does not change once the GPU is configured.  The eviction key is a
tuple with fractions in it; only its order matters. -/
structure StoreSettings (κ : Type) where
  blockBytes : Nat
  computeProvider : Bool
  gpuBudgetBytes : Nat
  evictionKey : ResidencyCandidate → Int → κ
  positive : 0 < blockBytes

/-- The store, with the blocks that the daemons hold for it.  `handles` has
every handle ever made, `tensors` those of the table. -/
structure TensorStore where
  handles : Handle → TensorHandle := fun _ => {}
  count : Handle := 0
  tensors : List Handle := []
  residentBytes : Int := 0
  accessIndex : Int := 0
  gpuDevice : Bool := false
  blocks : Uuid → Option (List UInt8) := fun _ => none
  drawn : Uuid := 0

/-- How a request to free a block ends.  Its answer may be lost. -/
inductive Release where
  | done
  | unanswered (message : String)
  | refused (message : String)
  deriving DecidableEq, Repr

/-- What the calls of an operation meet, in their order: the message of those
that raise, how blocks are freed, whether CUDA memory runs out, what its
allocator says, where blocks are placed and what fresh memory holds.  Past the
end of a list nothing goes wrong. -/
structure Surroundings where
  faults : List (Option String) := []
  releases : List Release := []
  exhausted : List Bool := []
  readings : List CudaReading := []
  places : List Bool := []
  contents : List UInt8 := []
  deriving DecidableEq, Repr

structure World where
  store : TensorStore
  surroundings : Surroundings

/-- `unfinished` is the end of a bound on the rounds of a loop. -/
inductive StoreFailure where
  | error (message : String)
  | unfinished
  deriving DecidableEq, Repr

abbrev Storing (α : Type) := Failing World StoreFailure α

namespace TensorStore

/-! Calls outside the store. -/

def call : Storing Unit := do
  let world ← get
  set { world with surroundings :=
    { world.surroundings with faults := world.surroundings.faults.tail } }
  match world.surroundings.faults.head? with
  | some (some message) => throw (.error message)
  | _ => pure ()

def outOfMemory : Storing Bool := do
  let world ← get
  set { world with surroundings :=
    { world.surroundings with
      exhausted := world.surroundings.exhausted.tail } }
  pure (world.surroundings.exhausted.headD false)

def reading : Storing CudaReading := do
  let world ← get
  set { world with surroundings :=
    { world.surroundings with
      readings := world.surroundings.readings.tail } }
  pure (world.surroundings.readings.headD ⟨0, 0, 0⟩)

/-- `torch.empty`. -/
def empty (size : Nat) : Storing (List UInt8) := do
  call
  let world ← get
  let contents := world.surroundings.contents
  set { world with surroundings :=
    { world.surroundings with contents := contents.drop size } }
  pure (contents.take size ++ List.replicate (size - contents.length) 0)

def suppress {α : Type} (body : Storing α) : Storing Unit :=
  tryCatch (do let _ ← body; pure ()) fun _ => pure ()

def setBlock (id : Uuid) (bytes : Option (List UInt8)) : Storing Unit :=
  modify fun world => { world with store :=
    { world.store with blocks := Function.update world.store.blocks id bytes } }

/-- The `free` of the client. -/
def freeBlock (block : BackingBlock) : Storing Unit := do
  let world ← get
  set { world with surroundings :=
    { world.surroundings with
      releases := world.surroundings.releases.tail } }
  match world.surroundings.releases.head? with
  | some (.refused message) => throw (.error message)
  | some (.unanswered message) => do
      setBlock block.id none
      throw (.error message)
  | _ => setBlock block.id none

def allocateBlock (size : Nat) : Storing BackingBlock := do
  call
  let world ← get
  let id := world.store.drawn
  set { world with
    store := { world.store with
      drawn := id + 1
      blocks := Function.update world.store.blocks id (some []) }
    surroundings := { world.surroundings with
      places := world.surroundings.places.tail } }
  pure ⟨id, size, world.surroundings.places.headD true⟩

def writeChunk (id : Uuid) (chunk : List UInt8) : Storing Unit := do
  call
  modify fun world => { world with store := { world.store with
    blocks := Function.update world.store.blocks id
      ((world.store.blocks id).map (· ++ chunk)) } }

def stagingBytes : Nat := 65536

/-- The `put_chunks` of the client: allocate, write, commit. -/
def putChunks (bytes : List UInt8) : Storing BackingBlock := do
  let block ← allocateBlock bytes.length
  tryCatch (do
    call
    Failing.each (writeChunk block.id) (Slice.pieces stagingBytes bytes)
    call
    pure block) fun failure => do
      suppress (freeBlock block)
      throw failure

/-- The `read_chunks` of the client, to its end. -/
def readBlock (block : BackingBlock) : Storing (List UInt8) := do
  call
  match (← get).store.blocks block.id with
  | some bytes => pure bytes
  | none => throw (.error
      s!"TRAINPOOL_DATA_LOST: block {block.id} is absent on this node")

/-! Handles. -/

def entry (handle : Handle) : Storing TensorHandle := do
  pure ((← get).store.handles handle)

def changeStore (change : TensorStore → TensorStore) : Storing Unit :=
  modify fun world => { world with store := change world.store }

def change (handle : Handle) (update : TensorHandle → TensorHandle) :
    Storing Unit :=
  changeStore fun store => { store with
    handles := Function.update store.handles handle
      (update (store.handles handle)) }

def addResident (bytes : Int) : Storing Unit :=
  changeStore fun store =>
    { store with residentBytes := store.residentBytes + bytes }

/-- The store is open, its leases are renewed and the daemon answers. -/
def check : Storing Unit := call

section

variable {κ : Type} [LinearOrder κ] (settings : StoreSettings κ)

def requireCuda (device : Device) : Storing Unit := do
  if device = .cuda then
    if settings.computeProvider then
      changeStore fun store => { store with gpuDevice := true }
    else
      throw (.error
        "TRAINPOOL_NO_CUDA: local node is not a CUDA compute provider")

def setAccessIndex (index : Int) : Storing Int := do
  let current := (← get).store.accessIndex
  let next := if index ≤ current then current + 1 else index
  changeStore fun store => { store with accessIndex := next }
  pure next

def updatePriority (handle : Handle) (nextUse : Option NextUse)
    (remainingConsumers : Option Int) : Storing Unit := do
  let current ← entry handle
  if nextUse.isSome ∨ current.expectedNextUse.isSome then
    change handle ({ · with expectedNextUse := nextUse })
  if let some remaining := remainingConsumers then
    change handle ({ · with remainingConsumers := remaining })

/-! The residency policy. -/

def nextUseIndex (accessIndex : Int) : Option NextUse → Option Int
  | some (.index position) => some position
  | some (.hint next) => some (accessIndex + if next then 2 else 1)
  | none => none

def candidate (store : TensorStore) (handle : Handle) :
    ResidencyCandidate :=
  let entry := store.handles handle
  { id := handle
    size := entry.size
    nextUse := nextUseIndex store.accessIndex entry.expectedNextUse
    remainingConsumers := entry.remainingConsumers
    transferCost := entry.transferCost
    reuseCount := entry.reuseCount }

def residentCandidates (store : TensorStore) (excluded : List Handle) :
    List ResidencyCandidate :=
  (store.tensors.filter fun handle =>
    (store.handles handle).resident.isSome && handle ∉ excluded &&
      !(store.handles handle).dirty).map store.candidate

def gather (needed : Int) : Int → List ResidencyCandidate →
    List ResidencyCandidate × Int
  | released, [] => ([], released)
  | released, candidate :: rest =>
      let released := released + candidate.size
      if needed ≤ released then
        ([candidate], released)
      else
        let (selected, total) := gather needed released rest
        (candidate :: selected, total)

def selectEvictions (candidates : List ResidencyCandidate) (needed : Int)
    (currentStep : Int) : List ResidencyCandidate :=
  let (selected, released) := gather needed 0
    (candidates.mergeSort fun left right =>
      settings.evictionKey right currentStep ≤
        settings.evictionKey left currentStep)
  if needed ≤ released then selected else []

/-! The snapshot of the CUDA allocator. -/

def safeAllocatableNow (reading : CudaReading) : Int :=
  min (reading.driverFree + (reading.reserved - reading.allocated : Nat))
    (settings.gpuBudgetBytes - reading.allocated : Nat)

def effectiveVramCapacity : Storing Int := do
  let store := (← get).store
  if store.gpuDevice ∧ settings.gpuBudgetBytes ≠ 0 then
    let reading ← reading
    pure (min (settings.gpuBudgetBytes : Int)
      (store.residentBytes + safeAllocatableNow settings reading))
  else
    pure 0

def diagnostic (reading : CudaReading) (residentBytes : Int) : String :=
  s!"driver_free={reading.driverFree} torch_allocated={reading.allocated} torch_reserved={reading.reserved} reclaimable_cache={reading.reserved - reading.allocated} trainpool_resident={residentBytes} safe_allocatable={safeAllocatableNow settings reading}"

/-! Moving tensors between the tiers. -/

def discard (handle : Handle) (written : List BackingBlock) :
    Storing Unit := do
  Failing.each (fun block => suppress (freeBlock block)) written
  change handle fun entry =>
    { entry with blocks := entry.blocks.filter (· ∉ written) }

/-- The loop of `_write_backing`, over the pieces that are not written yet. -/
def writePieces (handle : Handle) : List (List UInt8) → List BackingBlock →
    Storing (List BackingBlock)
  | [], written => pure written
  | piece :: rest, written => do
      let block ← tryCatch (do call; putChunks piece) fun failure => do
        discard handle written
        throw failure
      change handle fun entry =>
        { entry with blocks := entry.blocks ++ [block] }
      writePieces handle rest (written ++ [block])

def writeBacking (value : List UInt8) (handle : Handle) :
    Storing (List BackingBlock) :=
  writePieces handle (Slice.pieces settings.blockBytes value) []

def dropBlocks (handle : Handle) : Storing Unit := do
  let blocks := (← entry handle).blocks
  change handle ({ · with blocks := [] })
  Failing.each freeBlock blocks

/-- Whether some of the blocks are remote, as the cost of a transfer. -/
def transferCost (blocks : List BackingBlock) (size : Nat) : Nat :=
  let locals := ((blocks.filter (·.isLocal)).map (·.size)).sum
  if locals = size then 1 else 4

def spill (handle : Handle) : Storing Unit := do
  match (← entry handle).resident with
  | none => pure ()
  | some resident => do
      change handle ({ · with dirty := true })
      let blocks ← tryCatch (writeBacking settings resident handle)
        fun failure => do
          change handle ({ · with dirty := false })
          throw failure
      change handle fun entry => { entry with
        transferCost := transferCost blocks entry.size
        resident := none }
      addResident (-(← entry handle).size)
      change handle ({ · with dirty := false })

/-- The loop of `ensure_cuda_capacity`.  Every round makes a tensor
nonresident, so that a bound on the rounds is known. -/
def evictUntil (bytesNeeded additional : Int) (protect : List Handle)
    (context : Option String) : Nat → Storing Unit
  | 0 => throw .unfinished
  | rounds + 1 => do
      let snapshot ← reading
      let safe := safeAllocatableNow settings snapshot
      if additional ≤ safe then
        pure ()
      else do
        let store := (← get).store
        let selected := selectEvictions settings
          (store.residentCandidates protect) (additional - safe)
          store.accessIndex
        if selected = [] then
          let detail := context.elim "" (s!" {·}")
          throw (.error s!"TRAINPOOL_UNSUPPORTED_WORKING_SET:{detail} required={bytesNeeded} additional={additional} {diagnostic settings snapshot store.residentBytes}")
        else do
          Failing.each (fun candidate => spill settings candidate.id) selected
          evictUntil bytesNeeded additional protect context rounds

def ensureCudaCapacity (bytesNeeded : Int) (protect : List Handle)
    (context : Option String) : Storing Unit := do
  let store := (← get).store
  if store.gpuDevice then
    let protectedResident := ((protect.dedup.filter fun handle =>
      (store.handles handle).resident.isSome).map fun handle =>
        (store.handles handle).size).sum
    evictUntil settings bytesNeeded (max 0 (bytesNeeded - protectedResident))
      protect context (store.tensors.length + 1)

def prepareTransient (handles : List Handle) : Storing Unit :=
  Failing.each (spill settings) handles

/-- Make room in VRAM for an arrival, if nothing more valuable has to go. -/
def makeRoom (handle : Handle) : Storing Bool := do
  let capacity ← effectiveVramCapacity settings
  let store := (← get).store
  let needed := max 0
    (store.residentBytes + (store.handles handle).size - capacity)
  if needed = 0 then
    pure true
  else do
    let key := fun candidate =>
      settings.evictionKey candidate store.accessIndex
    let selected := selectEvictions settings (store.residentCandidates [])
      needed store.accessIndex
    if selected = [] ∨ selected.any (key · ≤ key (store.candidate handle))
    then
      pure false
    else do
      Failing.each (fun candidate => spill settings candidate.id) selected
      pure true

def tryRetain (value : List UInt8) (handle : Handle) : Storing Bool := do
  let store := (← get).store
  let size := (store.handles handle).size
  if ¬store.gpuDevice ∨ settings.gpuBudgetBytes < size then
    pure false
  else do
    if ← makeRoom settings handle then
      let reading ← reading
      let available : Int :=
        reading.driverFree + (reading.reserved - reading.allocated : Int)
      if size ≠ 0 ∧ available < size + 16 * 1024 * 1024 then
        pure false
      else do
        call
        if ← outOfMemory then
          pure false
        else do
          change handle ({ · with resident := some value })
          addResident size
          pure true
    else
      pure false

def free (handle : Handle) : Storing Unit := do
  if handle ∈ (← get).store.tensors then
    dropBlocks handle
    let current ← entry handle
    if current.resident.isSome then
      change handle ({ · with resident := none })
      addResident (-current.size)
    changeStore fun store =>
      { store with tensors := store.tensors.erase handle }

/-- A tensor that the caller has; `dense` says that it is strided and not
quantized. -/
structure Tensor where
  bytes : List UInt8
  device : Device
  dense : Bool := true
  deriving DecidableEq, Repr

def register (tensor : Tensor) (expectedNextUse : Option NextUse)
    (remainingConsumers : Int) : Storing Handle := do
  let store := (← get).store
  let handle := store.count
  changeStore fun store => { store with
    handles := Function.update store.handles handle {
      value := tensor.bytes
      size := tensor.bytes.length
      device := tensor.device
      expectedNextUse := expectedNextUse
      dirty := true
      remainingConsumers := remainingConsumers
      accessIndex := store.accessIndex }
    count := handle + 1
    tensors := store.tensors ++ [handle] }
  pure handle

def upload (tensor : Tensor) (allowVram : Bool) (handle : Handle) :
    Storing Unit := do
  let retained ←
    if allowVram then tryRetain settings tensor.bytes handle else pure false
  if retained then
    change handle ({ · with dirty := false })
  else do
    let blocks ← writeBacking settings tensor.bytes handle
    change handle fun entry => { entry with
      dirty := false
      transferCost := if tensor.device = .cuda then
        transferCost blocks entry.size else entry.transferCost }

def offload (tensor : Tensor) (expectedNextUse : Option NextUse)
    (remainingConsumers : Int) (allowVram : Bool) : Storing Handle := do
  check
  if tensor.dense then
    requireCuda settings tensor.device
    let handle ← register tensor expectedNextUse remainingConsumers
    tryCatch (upload settings tensor allowVram handle) fun failure => do
      suppress (free handle)
      throw failure
    pure handle
  else
    throw (.error
      "Only dense strided, non-quantized tensors are supported")

/-! `restore`, in the parts between which another thread may run. -/

def sampleResident (handle : Handle) (device : Option Device) :
    Storing (Device × Option (List UInt8)) := do
  check
  let current ← entry handle
  if current.dirty then
    throw (.error "Tensor upload is not complete")
  let target := device.getD current.device
  requireCuda settings target
  if target = .other then
    throw (.error
      "Only explicit CPU tensors and CUDA tensors are supported")
  change handle fun entry => { entry with
    reuseCount := entry.reuseCount + 1 }
  let index := (← get).store.accessIndex
  change handle ({ · with accessIndex := index })
  pure (target, (← entry handle).resident)

def prepareRegion (handle : Handle) (target : Device) :
    Storing (List UInt8) := do
  let size := (← entry handle).size
  if target = .cuda then
    ensureCudaCapacity settings size [handle] none
  empty size

def copyBlock (block : BackingBlock) (offset : Nat) (region : List UInt8) :
    Storing (Nat × List UInt8) := do
  let bytes ← readBlock block
  if offset + bytes.length ≤ region.length then
    pure (offset + bytes.length, Slice.overwrite region offset bytes)
  else
    throw (.error "The size of the source exceeds the region")

def fill : List BackingBlock → Nat → List UInt8 → Storing (List UInt8)
  | [], _, region => pure region
  | block :: rest, offset, region => do
      let (offset, region) ← copyBlock block offset region
      fill rest offset region

/-- Promotion, under the lock: the blocks go once the copy is resident. -/
def promote (handle : Handle) (target : Device) (retain : Bool)
    (result : List UInt8) : Storing (List UInt8) := do
  if target = .cuda then
    change handle fun entry =>
      { entry with transferCost := transferCost entry.blocks entry.size }
    if retain then
      let size := (← entry handle).size
      let capacity ← effectiveVramCapacity settings
      if (← get).store.residentBytes + size ≤ capacity then
        change handle ({ · with resident := some result })
        addResident size
        dropBlocks handle
        call
  pure result

def restore (handle : Handle) (device : Option Device) (retain : Bool) :
    Storing (List UInt8) := do
  let (target, resident) ← sampleResident settings handle device
  match resident with
  | some bytes => do
      call
      pure bytes
  | none => do
      let region ← prepareRegion settings handle target
      let result ← fill (← entry handle).blocks 0 region
      promote settings handle target retain result

end

end TensorStore

end TrainPool
