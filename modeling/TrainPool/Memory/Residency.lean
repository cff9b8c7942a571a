import TrainPool.Memory.Block
import TrainPool.Library.Table

namespace TrainPool

abbrev ResidencyTable := Table Uuid MemoryBlockHandle

namespace ResidencyTable

def register (handle : MemoryBlockHandle) (table : ResidencyTable) :
    ResidencyTable :=
  match table.lookup handle.id with
  | none => table.insert handle.id handle
  | some old =>
      if old.leaseExpiresMs = 0 then
        table
      else if handle.generation = old.generation ∧
          handle.leaseExpiresMs ≠ 0 then
        let lease := max old.leaseExpiresMs handle.leaseExpiresMs
        if old.state = .ready ∧ handle.state = .writing then
          table.insert handle.id { old with leaseExpiresMs := lease }
        else
          table.insert handle.id { handle with leaseExpiresMs := lease }
      else if old.generation ≤ handle.generation then
        table.insert handle.id handle
      else
        table

def loseNode (node : Uuid) (table : ResidencyTable) :
    ResidencyTable × List Uuid :=
  (table.mapValues fun _ handle =>
      if handle.ownerNode = node then { handle with state := .lost }
      else handle,
    (table.entries.filter fun entry => entry.2.ownerNode = node).map
      fun entry => entry.2.jobId)

inductive Merges (old handle : MemoryBlockHandle) :
    MemoryBlockHandle → Prop
  | freed (freed : old.leaseExpiresMs = 0) : Merges old handle old
  | stale (alive : old.leaseExpiresMs ≠ 0)
      (stale : handle.generation < old.generation) : Merges old handle old
  | kept (alive : old.leaseExpiresMs ≠ 0)
      (same : handle.generation = old.generation)
      (leased : handle.leaseExpiresMs ≠ 0)
      (ready : old.state = .ready) (writing : handle.state = .writing) :
      Merges old handle { old with
        leaseExpiresMs := max old.leaseExpiresMs handle.leaseExpiresMs }
  | renewed (alive : old.leaseExpiresMs ≠ 0)
      (same : handle.generation = old.generation)
      (leased : handle.leaseExpiresMs ≠ 0)
      (differs : old.state = .ready → handle.state ≠ .writing) :
      Merges old handle { handle with
        leaseExpiresMs := max old.leaseExpiresMs handle.leaseExpiresMs }
  | buried (alive : old.leaseExpiresMs ≠ 0)
      (same : handle.generation = old.generation)
      (freed : handle.leaseExpiresMs = 0) : Merges old handle handle
  | newer (alive : old.leaseExpiresMs ≠ 0)
      (newer : old.generation < handle.generation) :
      Merges old handle handle

theorem lookup_register_ne {handle : MemoryBlockHandle}
    {table : ResidencyTable} {id : Uuid} (other : id ≠ handle.id) :
    (table.register handle).lookup id = table.lookup id := by
  unfold register
  split
  · exact AList.lookup_insert_ne other
  · split
    · rfl
    · split
      · dsimp only
        split
        · exact AList.lookup_insert_ne other
        · exact AList.lookup_insert_ne other
      · split
        · exact AList.lookup_insert_ne other
        · rfl

theorem lookup_register_new {handle : MemoryBlockHandle}
    {table : ResidencyTable} (absent : table.lookup handle.id = none) :
    (table.register handle).lookup handle.id = some handle := by
  simp [register, absent]

theorem lookup_register {handle old : MemoryBlockHandle}
    {table : ResidencyTable} (found : table.lookup handle.id = some old) :
    ∃ merged, Merges old handle merged ∧
      (table.register handle).lookup handle.id = some merged := by
  simp only [register, found]
  split
  · rename_i freed
    exact ⟨old, .freed freed, found⟩
  · rename_i alive
    split
    · rename_i same
      split
      · rename_i states
        exact ⟨_, .kept alive same.1 same.2 states.1 states.2,
          AList.lookup_insert _⟩
      · rename_i differs
        exact ⟨_, .renewed alive same.1 same.2 (by tauto),
          AList.lookup_insert _⟩
    · rename_i differs
      split
      · rename_i reached
        refine ⟨handle, ?_, AList.lookup_insert _⟩
        rcases Nat.lt_or_eq_of_le reached with newer | same
        · exact .newer alive newer
        · exact .buried alive same.symm (by tauto)
      · rename_i stale
        exact ⟨old, .stale alive (by omega), found⟩

/-- An entry after a registration is the handle registered up to its lease, or
the entry before it up to its lease. -/
theorem register_cases {handle entry : MemoryBlockHandle}
    {table : ResidencyTable} {id : Uuid}
    (found : (table.register handle).lookup id = some entry) :
    (id = handle.id ∧
        entry = { handle with leaseExpiresMs := entry.leaseExpiresMs }) ∨
      ∃ old, table.lookup id = some old ∧
        entry = { old with leaseExpiresMs := entry.leaseExpiresMs } := by
  by_cases same : id = handle.id
  · subst same
    cases before : table.lookup handle.id with
    | none =>
        rw [lookup_register_new before] at found
        cases found
        exact .inl ⟨rfl, rfl⟩
    | some old =>
        obtain ⟨merged, merges, after⟩ := lookup_register before
        cases after.symm.trans found
        cases merges with
        | freed _ => exact .inr ⟨_, rfl, rfl⟩
        | stale _ _ => exact .inr ⟨_, rfl, rfl⟩
        | kept _ _ _ _ _ => exact .inr ⟨old, rfl, rfl⟩
        | renewed _ _ _ _ => exact .inl ⟨rfl, rfl⟩
        | buried _ _ _ => exact .inl ⟨rfl, rfl⟩
        | newer _ _ => exact .inl ⟨rfl, rfl⟩
  · rw [lookup_register_ne same] at found
    exact .inr ⟨entry, found, rfl⟩

def Keyed (table : ResidencyTable) : Prop :=
  ∀ id entry, table.lookup id = some entry → entry.id = id

theorem Keyed.register {table : ResidencyTable} (keyed : table.Keyed)
    (handle : MemoryBlockHandle) : (table.register handle).Keyed := by
  intro id entry found
  rcases register_cases found with ⟨same, new⟩ | ⟨old, before, kept⟩
  · rw [new]
    exact same.symm
  · rw [kept]
    exact keyed id old before

theorem lookup_loseNode (node id : Uuid) (table : ResidencyTable) :
    (table.loseNode node).1.lookup id =
      (table.lookup id).map fun handle =>
        if handle.ownerNode = node then { handle with state := .lost }
        else handle :=
  Table.lookup_mapValues _ table id

theorem mem_loseNode {node id : Uuid} {table : ResidencyTable}
    {handle : MemoryBlockHandle} (found : table.lookup id = some handle)
    (owned : handle.ownerNode = node) :
    handle.jobId ∈ (table.loseNode node).2 := by
  simp only [loseNode, List.mem_map, List.mem_filter]
  exact ⟨⟨id, handle⟩, ⟨Table.mem_entries.mpr found, by simpa using owned⟩,
    rfl⟩

end ResidencyTable

end TrainPool
