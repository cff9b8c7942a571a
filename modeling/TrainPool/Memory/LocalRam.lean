import TrainPool.Memory.Block
import TrainPool.Library.Table

namespace TrainPool

/-- A reference to the mutex of a block.  A handler that looked a block up
keeps its reference even when the block leaves the map. -/
abbrev Arc := Nat

/-- A mutex that is held across several steps, and by whom. -/
inductive Guard where
  | writing (chunk : Chunk) (arrived : Nat)
  | reading
  deriving DecidableEq, Repr

structure Cell where
  block : RamBlock
  guard : Option Guard
  deriving DecidableEq, Repr

/-- The blocks of a daemon.  The heap holds every block ever allocated, the map
those that can still be looked up. -/
structure LocalRam where
  blocks : Table Uuid Arc
  heap : List Cell
  deriving DecidableEq

def outOfCapacity (bytes : Nat) : String :=
  s!"TRAINPOOL_OUT_OF_CAPACITY: RAM budget cannot satisfy {bytes} bytes"

namespace LocalRam

def empty : LocalRam := ⟨∅, []⟩

/-- `reserved` is the outcome of the reservation of the payload bytes. -/
def allocate (handle : MemoryBlockHandle) (reserved : Bool)
    (ram : LocalRam) : Result LocalRam := do
  ensure (handle.id ∉ ram.blocks) "block already exists"
  ensure (ram.blocks.size < 100000) "block count limit reached"
  ensure reserved (outOfCapacity handle.size)
  pure {
    blocks := ram.blocks.insert handle.id ram.heap.length
    heap := ram.heap ++ [⟨RamBlock.allocated handle, none⟩] }

def get (id : Uuid) (ram : LocalRam) : Result Arc :=
  match ram.blocks.lookup id with
  | some arc => .ok arc
  | none => .error (.error
      s!"TRAINPOOL_DATA_LOST: block {id} is absent on this node")

def lock? (arc : Arc) (ram : LocalRam) : Option RamBlock :=
  match ram.heap[arc]? with
  | some ⟨block, none⟩ => some block
  | _ => none

def put (arc : Arc) (cell : Cell) (ram : LocalRam) : LocalRam :=
  { ram with heap := ram.heap.set arc cell }

/-- The end of a critical section: a failed one leaves the block as it was. -/
def conclude (arc : Arc) (result : Result RamBlock) (ram : LocalRam) :
    LocalRam :=
  match result with
  | .ok block => ram.put arc ⟨block, none⟩
  | .error _ => ram

/-- The last step of `free`, which removes the block it looked up only if it is
still the one in the map. -/
def remove (id : Uuid) (arc : Arc) (ram : LocalRam) : LocalRam :=
  if ram.blocks.lookup id = some arc then
    { ram with blocks := ram.blocks.erase id }
  else
    ram

/-- What an inventory says of a block: its handle, if its mutex is free and it
is published. -/
def listed (ram : LocalRam) (arc : Arc) : Option MemoryBlockHandle :=
  match ram.lock? arc with
  | some block => if block.published then some block.handle else none
  | none => none

def keeps (now : Nat) (ram : LocalRam) (arc : Arc) : Bool :=
  match ram.lock? arc with
  | some block =>
      now < block.handle.leaseExpiresMs || block.handle.state = .migrating
  | none => true

def expire (now : Nat) (ram : LocalRam) : LocalRam :=
  { ram with blocks := ram.blocks.retain fun _ arc => ram.keeps now arc }

end LocalRam

structure Identity where
  nodeId : Uuid
  incarnation : Uuid
  deriving DecidableEq, Repr

/-- `AllocateLocal`, past its check of the leadership; `headroom` is the
outcome of the comparison with the budget. -/
def allocateLocal (self : Identity) (handle : MemoryBlockHandle)
    (headroom reserved : Bool) (ram : LocalRam) : Result LocalRam := do
  ensure (handle.ownerNode = self.nodeId ∧
      handle.ownerIncarnation = self.incarnation) "wrong allocation owner"
  ensure (handle.locationType = .ram self.nodeId)
    "only RAM allocations are supported"
  ensure (handle.state = .writing ∧ handle.checksum = none)
    "allocation must start in writing state"
  handle.tensor.elim (pure ()) (·.validate handle.size)
  ensure headroom
    "TRAINPOOL_OUT_OF_CAPACITY: allocation must leave 256 KiB relay headroom"
  ram.allocate handle reserved

/-- The critical sections of the requests on the blocks of one daemon.  A
request looks its block up and locks it in two steps, so that what it locks is
named by reference.  `beginDirect` to `finishDirect` is a direct `WriteChunk`,
which keeps the mutex while its bytes arrive; `pin` is the lock of `migrate`,
`hold` that of a direct read; `release` drops a guard, at the end of its
handler or because the handler is interrupted. -/
inductive RamEvent where
  | allocateLocal (handle : MemoryBlockHandle) (headroom reserved : Bool)
  | writeLocal (arc : Arc) (handle : MemoryBlockHandle) (transferId : Uuid)
      (offset : Nat) (payload : List UInt8)
  | beginDirect (arc : Arc) (handle : MemoryBlockHandle) (chunk : Chunk)
  | stream (arc : Arc) (piece : List UInt8)
  | finishDirect (arc : Arc)
  | commit (arc : Arc) (handle : MemoryBlockHandle) (checksum : String)
  | renew (arc : Arc) (handle : MemoryBlockHandle)
  | publish (arc : Arc) (handle : MemoryBlockHandle)
  | pin (arc : Arc) (handle : MemoryBlockHandle)
  | hold (arc : Arc) (handle : MemoryBlockHandle) (offset length : Nat)
  | release (arc : Arc)
  | remove (id : Uuid) (arc : Arc) (token : Uuid)
  | expire
  deriving DecidableEq

namespace LocalRam

variable (blake3 : List UInt8 → Digest) (self : Identity)
  (leaseSeconds now : Nat)

/-- One critical section; `none` when a mutex it needs is held. -/
def step (ram : LocalRam) : RamEvent → Option LocalRam
  | .allocateLocal handle headroom reserved =>
      match allocateLocal self handle headroom reserved ram with
      | .ok next => some next
      | .error _ => some ram
  | .writeLocal arc handle transferId offset payload => do
      let block ← ram.lock? arc
      some (ram.conclude arc
        (block.writeLocal now handle transferId offset payload))
  | .beginDirect arc handle chunk => do
      let block ← ram.lock? arc
      match block.admitDirect now handle chunk with
      | .ok _ => some (ram.put arc ⟨block, some (.writing chunk 0)⟩)
      | .error _ => some ram
  | .stream arc piece =>
      match ram.heap[arc]? with
      | some ⟨block, some (.writing chunk arrived)⟩ =>
          if arrived + piece.length ≤ chunk.length then
            some (ram.put arc ⟨block.stream chunk arrived piece,
              some (.writing chunk (arrived + piece.length))⟩)
          else
            none
      | _ => none
  | .finishDirect arc =>
      match ram.heap[arc]? with
      | some ⟨block, some (.writing chunk arrived)⟩ =>
          if arrived = chunk.length then
            match block.finishDirect blake3 chunk with
            | .ok next => some (ram.put arc ⟨next, none⟩)
            | .error _ => some (ram.put arc ⟨block, none⟩)
          else
            none
      | _ => none
  | .commit arc handle checksum => do
      let block ← ram.lock? arc
      some (ram.conclude arc (block.commit blake3 now handle checksum))
  | .renew arc handle => do
      let block ← ram.lock? arc
      some (ram.conclude arc (block.renew now leaseSeconds handle))
  | .publish arc handle => do
      let block ← ram.lock? arc
      some (ram.conclude arc (block.publish now handle))
  | .pin arc handle => do
      let block ← ram.lock? arc
      match block.admitMigration now handle with
      | .ok _ => some (ram.put arc ⟨block, some .reading⟩)
      | .error _ => some ram
  | .hold arc handle offset length => do
      let block ← ram.lock? arc
      match block.read now handle offset length with
      | .ok _ => some (ram.put arc ⟨block, some .reading⟩)
      | .error _ => some ram
  | .release arc => do
      let cell ← ram.heap[arc]?
      some (ram.put arc ⟨cell.block, none⟩)
  | .remove id arc token => do
      -- The token of a block never changes, so that the check made under its
      -- mutex earlier reads the same now.
      let cell ← ram.heap[arc]?
      if cell.block.handle.leaseToken = token then
        some (ram.remove id arc)
      else
        some ram
  | .expire => some (ram.expire now)

end LocalRam

/-! What a critical section can do to the blocks, said once. -/

def Cell.Guarded (cell : Cell) : Prop :=
  match cell.guard with
  | some (.writing chunk arrived) =>
      cell.block.handle.state = .writing ∧
        cell.block.written = chunk.offset ∧
        chunk.offset + chunk.length ≤ cell.block.bytes.length ∧
        arrived ≤ chunk.length
  | _ => True

theorem Cell.guarded_writing {block : RamBlock} {chunk : Chunk}
    {arrived : Nat} :
    Cell.Guarded ⟨block, some (.writing chunk arrived)⟩ ↔
      block.handle.state = .writing ∧ block.written = chunk.offset ∧
        chunk.offset + chunk.length ≤ block.bytes.length ∧
        arrived ≤ chunk.length := Iff.rfl

@[simp] theorem Cell.guarded_none (block : RamBlock) :
    Cell.Guarded ⟨block, none⟩ := trivial

@[simp] theorem Cell.guarded_reading (block : RamBlock) :
    Cell.Guarded ⟨block, some .reading⟩ := trivial

namespace LocalRam

variable {blake3 : List UInt8 → Digest}

inductive Change (blake3 : List UInt8 → Digest) (ram : LocalRam) :
    LocalRam → Prop
  | same : Change blake3 ram ram
  | allocate (handle : MemoryBlockHandle) (writing : handle.state = .writing)
      (absent : handle.id ∉ ram.blocks) :
      Change blake3 ram {
        blocks := ram.blocks.insert handle.id ram.heap.length
        heap := ram.heap ++ [⟨RamBlock.allocated handle, none⟩] }
  | cell (arc : Arc) (before after : Cell)
      (stored : ram.heap[arc]? = some before)
      (changed : before.Guarded →
        RamBlock.Change blake3 before.block after.block ∧ after.Guarded) :
      Change blake3 ram (ram.put arc after)
  | forget (blocks : Table Uuid Arc)
      (kept : ∀ id arc, blocks.lookup id = some arc →
        ram.blocks.lookup id = some arc) :
      Change blake3 ram { ram with blocks := blocks }

theorem lock?_eq_some {ram : LocalRam} {arc : Arc} {block : RamBlock} :
    ram.lock? arc = some block ↔ ram.heap[arc]? = some ⟨block, none⟩ := by
  unfold lock?
  split
  · rename_i found
    simp [found]
  · rename_i absent
    simp only [reduceCtorEq, false_iff]
    exact absent block

theorem get_ok {id : Uuid} {arc : Arc} {ram : LocalRam} :
    ram.get id = .ok arc ↔ ram.blocks.lookup id = some arc := by
  unfold LocalRam.get
  split
  · rename_i found
    simp [found]
  · rename_i absent
    simp [absent]

theorem conclude_change {ram : LocalRam} {arc : Arc} {block : RamBlock}
    {result : Result RamBlock} (free : ram.lock? arc = some block)
    (changes : ∀ next, result = .ok next →
      RamBlock.Change blake3 block next) :
    Change blake3 ram (ram.conclude arc result) := by
  cases result with
  | error fault => exact .same
  | ok next =>
      exact .cell arc ⟨block, none⟩ ⟨next, none⟩ (lock?_eq_some.mp free)
        fun _ => ⟨changes next rfl, trivial⟩

theorem guard_change {ram : LocalRam} {arc : Arc} {block : RamBlock}
    {guard : Option Guard} (free : ram.lock? arc = some block)
    (guarded : Cell.Guarded ⟨block, guard⟩) :
    Change blake3 ram (ram.put arc ⟨block, guard⟩) :=
  .cell arc ⟨block, none⟩ ⟨block, guard⟩ (lock?_eq_some.mp free)
    fun _ => ⟨.same block, guarded⟩

theorem allocateLocal_ok {self : Identity} {handle : MemoryBlockHandle}
    {headroom reserved : Bool} {ram next : LocalRam}
    (allocated : allocateLocal self handle headroom reserved ram =
      .ok next) :
    handle.ownerNode = self.nodeId ∧ handle.state = .writing ∧
      handle.id ∉ ram.blocks ∧
      next = {
        blocks := ram.blocks.insert handle.id ram.heap.length
        heap := ram.heap ++ [⟨RamBlock.allocated handle, none⟩] } := by
  simp only [allocateLocal, ensure_bind_ok] at allocated
  obtain ⟨⟨owned, _⟩, _, ⟨writing, _⟩, allocated⟩ := allocated
  obtain ⟨_, _, allocated⟩ := bind_ok.mp allocated
  simp only [allocate, ensure_bind_ok, pure_ok] at allocated
  obtain ⟨_, absent, _, _, rfl⟩ := allocated
  exact ⟨owned, writing, absent, rfl⟩

theorem allocateLocal_change {self : Identity} {handle : MemoryBlockHandle}
    {headroom reserved : Bool} {ram next : LocalRam}
    (allocated : allocateLocal self handle headroom reserved ram =
      .ok next) : Change blake3 ram next := by
  obtain ⟨_, writing, absent, rfl⟩ := allocateLocal_ok allocated
  exact .allocate handle writing absent

theorem remove_change (id : Uuid) (arc : Arc) (ram : LocalRam) :
    Change blake3 ram (ram.remove id arc) := by
  unfold remove
  split
  · refine .forget _ ?_
    intro other found
    rw [Table.lookup_erase_eq]
    split <;> simp
  · exact .same

theorem expire_change (now : Nat) (ram : LocalRam) :
    Change blake3 ram (ram.expire now) := by
  refine .forget _ ?_
  intro id arc found
  exact (Table.lookup_retain.mp found).1

theorem step_change {self : Identity} {leaseSeconds now : Nat}
    {ram next : LocalRam} {event : RamEvent}
    (stepped : ram.step blake3 self leaseSeconds now event = some next) :
    Change blake3 ram next := by
  cases event with
  | allocateLocal handle headroom reserved =>
      simp only [step] at stepped
      split at stepped
      · rename_i allocated
        cases stepped
        exact allocateLocal_change allocated
      · cases stepped
        exact .same
  | writeLocal arc handle transferId offset payload =>
      obtain ⟨block, free, stepped⟩ := Option.bind_eq_some_iff.mp stepped
      cases stepped
      exact conclude_change free fun _ => RamBlock.writeLocal_change
  | beginDirect arc handle chunk =>
      obtain ⟨block, free, stepped⟩ := Option.bind_eq_some_iff.mp stepped
      split at stepped
      · rename_i admitted
        cases stepped
        obtain ⟨writing, sequential, fits⟩ :=
          RamBlock.admitDirect_ok admitted
        exact guard_change free
          ⟨writing, sequential, fits, Nat.zero_le _⟩
      · cases stepped
        exact .same
  | stream arc piece =>
      simp only [step] at stepped
      split at stepped
      · rename_i block chunk arrived stored
        split at stepped
        · rename_i fits
          cases stepped
          refine .cell arc _ _ stored ?_
          intro guarded
          obtain ⟨writing, sequential, bounded, _⟩ :=
            Cell.guarded_writing.mp guarded
          refine ⟨.scribble block _ piece writing ?_ ?_, writing,
            sequential, ?_, fits⟩
          · omega
          · omega
          · rw [RamBlock.stream, Slice.length_overwrite (by omega)]
            exact bounded
        · cases stepped
      · cases stepped
  | finishDirect arc =>
      simp only [step] at stepped
      split at stepped
      · rename_i block chunk arrived stored
        split at stepped
        · split at stepped
          · rename_i finished
            cases stepped
            refine .cell arc _ _ stored ?_
            intro guarded
            obtain ⟨writing, sequential, bounded, _⟩ :=
              Cell.guarded_writing.mp guarded
            exact ⟨RamBlock.finishDirect_change writing sequential bounded
              finished, trivial⟩
          · cases stepped
            exact .cell arc _ _ stored fun _ => ⟨.same block, trivial⟩
        · cases stepped
      · cases stepped
  | commit arc handle checksum =>
      obtain ⟨block, free, stepped⟩ := Option.bind_eq_some_iff.mp stepped
      cases stepped
      exact conclude_change free fun _ => RamBlock.commit_change
  | renew arc handle =>
      obtain ⟨block, free, stepped⟩ := Option.bind_eq_some_iff.mp stepped
      cases stepped
      exact conclude_change free fun _ => RamBlock.renew_change
  | publish arc handle =>
      obtain ⟨block, free, stepped⟩ := Option.bind_eq_some_iff.mp stepped
      cases stepped
      exact conclude_change free fun _ => RamBlock.publish_change
  | pin arc handle =>
      obtain ⟨block, free, stepped⟩ := Option.bind_eq_some_iff.mp stepped
      split at stepped
      · cases stepped
        exact guard_change free trivial
      · cases stepped
        exact .same
  | hold arc handle offset length =>
      obtain ⟨block, free, stepped⟩ := Option.bind_eq_some_iff.mp stepped
      split at stepped
      · cases stepped
        exact guard_change free trivial
      · cases stepped
        exact .same
  | release arc =>
      obtain ⟨cell, stored, stepped⟩ := Option.bind_eq_some_iff.mp stepped
      cases stepped
      exact .cell arc cell _ stored fun _ => ⟨.same _, trivial⟩
  | remove id arc token =>
      obtain ⟨cell, stored, stepped⟩ := Option.bind_eq_some_iff.mp stepped
      split at stepped
      · cases stepped
        exact remove_change id arc ram
      · cases stepped
        exact .same
  | expire =>
      cases stepped
      exact expire_change now ram

structure Sound (blake3 : List UInt8 → Digest) (ram : LocalRam) : Prop where
  intact : ∀ (arc : Arc) (cell : Cell), ram.heap[arc]? = some cell →
    cell.block.Intact blake3 ∧ cell.Guarded
  keyed : ∀ id arc, ram.blocks.lookup id = some arc →
    ∃ cell : Cell, ram.heap[arc]? = some cell ∧ cell.block.handle.id = id

/-- Every block of the earlier state is still there and has only grown. -/
def Grows (earlier later : LocalRam) : Prop :=
  ∀ (arc : Arc) (cell : Cell), earlier.heap[arc]? = some cell →
    ∃ next : Cell, later.heap[arc]? = some next ∧
      RamBlock.Grows cell.block next.block

theorem Grows.refl (ram : LocalRam) : Grows ram ram := by
  intro arc cell stored
  exact ⟨cell, stored, RamBlock.Grows.refl _⟩

theorem Grows.trans {first second third : LocalRam}
    (early : Grows first second) (late : Grows second third) :
    Grows first third := by
  intro arc cell stored
  obtain ⟨middle, stored, grown⟩ := early arc cell stored
  obtain ⟨final, stored, grownMore⟩ := late arc middle stored
  exact ⟨final, stored, grown.trans grownMore⟩

theorem empty_sound : Sound blake3 empty where
  intact := by simp [empty]
  keyed := by simp [empty]

theorem Change.grows {ram next : LocalRam} (change : Change blake3 ram next)
    (sound : Sound blake3 ram) : Grows ram next := by
  cases change with
  | same => exact Grows.refl ram
  | allocate handle writing absent =>
      intro arc cell stored
      refine ⟨cell, ?_, RamBlock.Grows.refl _⟩
      have bound := (List.getElem?_eq_some_iff.mp stored).1
      rw [← stored]
      exact List.getElem?_append_left bound
  | cell arc before after stored changed =>
      intro other cell found
      obtain ⟨intact, guarded⟩ := sound.intact arc before stored
      have bound := (List.getElem?_eq_some_iff.mp stored).1
      by_cases same : arc = other
      · subst same
        cases stored.symm.trans found
        exact ⟨after, by simp [put, bound],
          (changed guarded).1.grows intact⟩
      · exact ⟨cell, by simp [put, same, found], RamBlock.Grows.refl _⟩
  | forget blocks kept => exact Grows.refl ram

theorem Change.sound {ram next : LocalRam} (change : Change blake3 ram next)
    (sound : Sound blake3 ram) : Sound blake3 next := by
  have grown := change.grows sound
  cases change with
  | same => exact sound
  | allocate handle writing absent =>
      refine ⟨?_, ?_⟩
      · intro arc cell stored
        rw [List.getElem?_append] at stored
        split at stored
        · exact sound.intact arc cell stored
        · obtain rfl := List.mem_singleton.mp (List.mem_of_getElem? stored)
          exact ⟨RamBlock.allocated_intact blake3 writing, trivial⟩
      · intro id arc found
        rw [Table.lookup_insert_eq] at found
        split at found
        · rename_i same
          cases found
          exact ⟨⟨RamBlock.allocated handle, none⟩, by simp, same.symm⟩
        · obtain ⟨cell, stored, same⟩ := sound.keyed id arc found
          obtain ⟨next, stored, grown⟩ := grown arc cell stored
          exact ⟨next, stored, grown.identity.1.trans same⟩
  | cell arc before after stored changed =>
      obtain ⟨intact, guarded⟩ := sound.intact arc before stored
      have bound := (List.getElem?_eq_some_iff.mp stored).1
      refine ⟨?_, ?_⟩
      · intro other cell found
        by_cases same : arc = other
        · subst same
          simp only [put, List.getElem?_set_self bound,
            Option.some.injEq] at found
          subst found
          exact ⟨(changed guarded).1.intact intact, (changed guarded).2⟩
        · simp only [put, List.getElem?_set_ne same] at found
          exact sound.intact other cell found
      · intro id other found
        obtain ⟨cell, stored, same⟩ := sound.keyed id other found
        obtain ⟨next, stored, grown⟩ := grown other cell stored
        exact ⟨next, stored, grown.identity.1.trans same⟩
  | forget blocks kept =>
      exact ⟨sound.intact, fun id arc found =>
        sound.keyed id arc (kept id arc found)⟩

end LocalRam

end TrainPool
