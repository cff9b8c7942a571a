import TrainPool.Runtime.TcpData

namespace TrainPool

namespace TcpData

open Execution Wire

/-! The blocks under the connections: a handler that holds a mutex finds its
block as it left it. -/

def Keyed (ram : LocalRam) : Prop :=
  ∀ id arc, ram.blocks.lookup id = some arc →
    ∃ cell, ram.heap[arc]? = some cell ∧ cell.block.handle.id = id

def Cell.Writes (cell : Cell) : Prop :=
  ∃ chunk arrived, cell.guard = some (.writing chunk arrived)

/-- A step keeps every block under its id, and leaves alone those of the direct
writes other than its `own`. -/
def Leaves (own : Option Arc) (ram next : LocalRam) : Prop :=
  ∀ arc cell, ram.heap[arc]? = some cell →
    ∃ after, next.heap[arc]? = some after ∧
      after.block.handle.id = cell.block.handle.id ∧
      (own ≠ some arc → Cell.Writes cell → after = cell)

theorem Leaves.refl (own : Option Arc) (ram : LocalRam) :
    Leaves own ram ram :=
  fun _ cell stored => ⟨cell, stored, rfl, fun _ _ => rfl⟩

theorem Keyed.empty : Keyed .empty := by
  intro id arc found
  exact absurd found (by simp [LocalRam.empty])

section

variable {ram next : LocalRam} {arc : Arc} {before after : Cell}
  {own : Option Arc}

theorem heap_put (ram : LocalRam) (arc other : Arc) (cell : Cell) :
    (ram.put arc cell).heap[other]? =
      if arc = other then
        (if arc < ram.heap.length then some cell else none)
      else ram.heap[other]? := by
  unfold LocalRam.put
  rw [List.getElem?_set]

theorem put_stored (stored : ram.heap[arc]? = some before) :
    (ram.put arc after).heap[arc]? = some after := by
  obtain ⟨inside, _⟩ := List.getElem?_eq_some_iff.mp stored
  rw [heap_put, if_pos rfl, if_pos inside]

theorem put_leaves (stored : ram.heap[arc]? = some before)
    (same : after.block.handle.id = before.block.handle.id)
    (allowed : own = some arc ∨ ¬ Cell.Writes before) :
    Leaves own ram (ram.put arc after) := by
  intro other cell found
  by_cases met : arc = other
  · subst met
    rw [stored] at found
    cases found
    refine ⟨after, put_stored stored, same, ?_⟩
    intro apart writes
    rcases allowed with mine | idle
    · exact absurd mine apart
    · exact absurd writes idle
  · refine ⟨cell, ?_, rfl, fun _ _ => rfl⟩
    rw [heap_put, if_neg met]
    exact found

theorem Leaves.keyed (leaves : Leaves own ram next) (keyed : Keyed ram)
    (kept : ∀ id arc, next.blocks.lookup id = some arc →
      ram.blocks.lookup id = some arc) : Keyed next := by
  intro id arc found
  obtain ⟨cell, stored, same⟩ := keyed id arc (kept id arc found)
  obtain ⟨after, later, identity, _⟩ := leaves arc cell stored
  exact ⟨after, later, identity.trans same⟩

theorem put_keyed (stored : ram.heap[arc]? = some before)
    (same : after.block.handle.id = before.block.handle.id)
    (keyed : Keyed ram) : Keyed (ram.put arc after) := by
  have leaves : Leaves (some arc) ram (ram.put arc after) :=
    put_leaves stored same (.inl rfl)
  exact leaves.keyed keyed fun _ _ found => found

theorem change_id (blake3 : List UInt8 → Digest) {block next : RamBlock}
    (change : RamBlock.Change blake3 block next) :
    next.handle.id = block.handle.id := by
  cases change with
  | same => rfl
  | extend => rfl
  | scribble => rfl
  | absorb => rfl
  | commit => rfl
  | renew => rfl
  | publish => rfl

theorem free_idle {block : RamBlock} (free : ram.lock? arc = some block) :
    ram.heap[arc]? = some ⟨block, none⟩ ∧
      ¬ Cell.Writes ⟨block, none⟩ := by
  refine ⟨LocalRam.lock?_eq_some.mp free, ?_⟩
  rintro ⟨_, _, writes⟩
  cases writes

theorem conclude_leaves {block : RamBlock} {result : Result RamBlock}
    (free : ram.lock? arc = some block)
    (same : ∀ next, result = .ok next → next.handle.id = block.handle.id)
    (keyed : Keyed ram) :
    Leaves none ram (ram.conclude arc result) ∧
      Keyed (ram.conclude arc result) := by
  cases result with
  | error fault => exact ⟨.refl _ _, keyed⟩
  | ok next =>
      obtain ⟨stored, idle⟩ := free_idle free
      exact ⟨put_leaves stored (same next rfl) (.inr idle),
        put_keyed stored (same next rfl) keyed⟩

theorem guard_leaves {block : RamBlock} {guard : Option Guard}
    (free : ram.lock? arc = some block) (keyed : Keyed ram) :
    Leaves none ram (ram.put arc ⟨block, guard⟩) ∧
      Keyed (ram.put arc ⟨block, guard⟩) := by
  obtain ⟨stored, idle⟩ := free_idle free
  exact ⟨put_leaves stored rfl (.inr idle), put_keyed stored rfl keyed⟩

theorem allocate_leaves {handle : MemoryBlockHandle} (keyed : Keyed ram) :
    let next : LocalRam := {
      blocks := ram.blocks.insert handle.id ram.heap.length
      heap := ram.heap ++ [⟨RamBlock.allocated handle, none⟩] }
    Leaves none ram next ∧ Keyed next := by
  have kept : ∀ (arc : Arc) (cell : Cell), ram.heap[arc]? = some cell →
      (ram.heap ++ [⟨RamBlock.allocated handle, none⟩])[arc]? =
        some cell := by
    intro arc cell stored
    obtain ⟨inside, _⟩ := List.getElem?_eq_some_iff.mp stored
    rw [List.getElem?_append_left inside]
    exact stored
  refine ⟨?_, ?_⟩
  · intro arc cell stored
    exact ⟨cell, kept arc cell stored, rfl, fun _ _ => rfl⟩
  · intro id arc found
    rw [Table.lookup_insert_eq] at found
    split at found
    · rename_i same
      cases found
      refine ⟨⟨RamBlock.allocated handle, none⟩, ?_, same.symm⟩
      exact List.getElem?_concat_length
    · obtain ⟨cell, stored, same⟩ := keyed id arc found
      exact ⟨cell, kept arc cell stored, same⟩

theorem forget_leaves {blocks : Table Uuid Arc}
    (kept : ∀ id arc, blocks.lookup id = some arc →
      ram.blocks.lookup id = some arc) (keyed : Keyed ram) :
    Leaves none ram { ram with blocks := blocks } ∧
      Keyed { ram with blocks := blocks } :=
  ⟨.refl none ram, fun id arc found => keyed id arc (kept id arc found)⟩

theorem foreign_leaves {blake3 : List UInt8 → Digest} {self : Identity}
    {leaseSeconds now : Nat} {event : RamEvent}
    (others : foreign ram event = true)
    (stepped : ram.step blake3 self leaseSeconds now event = some next)
    (keyed : Keyed ram) : Leaves none ram next ∧ Keyed next := by
  cases event with
  | beginDirect => cases others
  | stream => cases others
  | finishDirect => cases others
  | allocateLocal handle headroom reserved =>
      simp only [LocalRam.step] at stepped
      split at stepped
      · rename_i allocated
        cases stepped
        obtain ⟨_, _, _, rfl⟩ := LocalRam.allocateLocal_ok allocated
        exact allocate_leaves keyed
      · cases stepped
        exact ⟨.refl _ _, keyed⟩
  | writeLocal arc handle transferId offset payload =>
      obtain ⟨block, free, stepped⟩ := Option.bind_eq_some_iff.mp stepped
      cases stepped
      exact conclude_leaves free (fun _ written =>
        change_id blake3 (RamBlock.writeLocal_change written))
          keyed
  | commit arc handle checksum =>
      obtain ⟨block, free, stepped⟩ := Option.bind_eq_some_iff.mp stepped
      cases stepped
      exact conclude_leaves free (fun _ committed =>
        change_id _ (RamBlock.commit_change committed)) keyed
  | renew arc handle =>
      obtain ⟨block, free, stepped⟩ := Option.bind_eq_some_iff.mp stepped
      cases stepped
      exact conclude_leaves free (fun _ renewed =>
        change_id blake3 (RamBlock.renew_change renewed)) keyed
  | publish arc handle =>
      obtain ⟨block, free, stepped⟩ := Option.bind_eq_some_iff.mp stepped
      cases stepped
      exact conclude_leaves free (fun _ published =>
        change_id blake3 (RamBlock.publish_change published))
          keyed
  | pin arc handle =>
      obtain ⟨block, free, stepped⟩ := Option.bind_eq_some_iff.mp stepped
      split at stepped
      · cases stepped
        exact guard_leaves free keyed
      · cases stepped
        exact ⟨.refl _ _, keyed⟩
  | hold arc handle offset length =>
      obtain ⟨block, free, stepped⟩ := Option.bind_eq_some_iff.mp stepped
      split at stepped
      · cases stepped
        exact guard_leaves free keyed
      · cases stepped
        exact ⟨.refl _ _, keyed⟩
  | release arc =>
      obtain ⟨cell, stored, stepped⟩ := Option.bind_eq_some_iff.mp stepped
      cases stepped
      have idle : ¬ Cell.Writes cell := by
        rintro ⟨chunk, arrived, writes⟩
        obtain ⟨block, guard⟩ := cell
        cases writes
        simp [foreign, stored] at others
      exact ⟨put_leaves stored rfl (.inr idle), put_keyed stored rfl keyed⟩
  | remove id arc token =>
      obtain ⟨cell, stored, stepped⟩ := Option.bind_eq_some_iff.mp stepped
      split at stepped
      · cases stepped
        unfold LocalRam.remove
        split
        · refine forget_leaves ?_ keyed
          intro other found
          rw [Table.lookup_erase_eq]
          split <;> simp
        · exact ⟨.refl _ _, keyed⟩
      · cases stepped
        exact ⟨.refl _ _, keyed⟩
  | expire =>
      cases stepped
      exact forget_leaves (fun _ _ found => (Table.lookup_retain.mp found).1)
        keyed

end

end TcpData

end TrainPool
