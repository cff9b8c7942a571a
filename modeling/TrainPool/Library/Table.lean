import Mathlib.Algebra.BigOperators.Group.List.Basic
import Mathlib.Data.List.AList

/-- Finite maps: the association lists without repeated keys of Mathlib. -/
abbrev Table (κ : Type*) (ν : Type*) := AList fun _ : κ => ν

namespace Table

variable {κ ν : Type*}

def size (table : Table κ ν) : Nat := table.entries.length

/-- Keep the entries that satisfy a test of their key and value. -/
def retain (keep : κ → ν → Bool) (table : Table κ ν) : Table κ ν where
  entries := table.entries.filter fun entry => keep entry.1 entry.2
  nodupKeys := table.nodupKeys.sublist List.filter_sublist

def mapValues (change : κ → ν → ν) (table : Table κ ν) : Table κ ν where
  entries := table.entries.map fun entry => ⟨entry.1, change entry.1 entry.2⟩
  nodupKeys := List.NodupKeys.map₂ change table.entries table.nodupKeys

def sum {M : Type*} [AddCommMonoid M] (weight : ν → M) (table : Table κ ν) :
    M :=
  (table.entries.map fun entry => weight entry.2).sum

def count (test : ν → Bool) (table : Table κ ν) : Nat :=
  table.entries.countP (test ·.2)

theorem count_retain (test : ν → Bool) (keep : κ → ν → Bool)
    (table : Table κ ν) :
    count test table = count test (table.retain keep) +
      (table.entries.filter fun entry => !keep entry.1 entry.2).countP
        (test ·.2) := by
  have split := List.countP_eq_countP_filter_add table.entries (test ·.2)
    fun entry => keep entry.1 entry.2
  simpa [count, retain] using split

variable [DecidableEq κ]

theorem sum_insert {M : Type*} [AddCommMonoid M] {weight : ν → M}
    {table : Table κ ν} {key : κ} (absent : key ∉ table) (value : ν) :
    sum weight (table.insert key value) =
      weight value + sum weight table := by
  simp [sum, AList.insert, List.kinsert,
    List.kerase_of_notMem_keys (AList.mem_keys.not.mp absent)]

theorem entries_of_lookup {table : Table κ ν} {key : κ} {value : ν}
    (found : table.lookup key = some value) :
    ∃ front back, table.entries = front ++ ⟨key, value⟩ :: back ∧
      (table.erase key).entries = front ++ back := by
  have member : key ∈ table.entries.keys :=
    AList.mem_keys.mp (AList.lookup_isSome.mp (by simp [found]))
  obtain ⟨other, front, back, absent, whole, erased⟩ :=
    List.exists_of_kerase member
  have same : other = value := by
    have looked : table.entries.dlookup key = some other := by
      rw [whole, List.dlookup_append, List.dlookup_eq_none.mpr absent]
      simp
    exact Option.some.inj (looked.symm.trans found)
  exact ⟨front, back, same ▸ whole, erased⟩

theorem sum_erase {M : Type*} [AddCommMonoid M] {weight : ν → M}
    {table : Table κ ν} {key : κ} {value : ν}
    (found : table.lookup key = some value) :
    sum weight table =
      weight value + sum weight (table.erase key) := by
  obtain ⟨front, back, whole, rest⟩ := entries_of_lookup found
  simp only [sum, rest, whole, List.map_append, List.map_cons,
    List.sum_append, List.sum_cons]
  rw [← add_assoc, ← add_assoc, add_comm (weight value)]

theorem count_erase (test : ν → Bool) {table : Table κ ν} {key : κ}
    {value : ν} (found : table.lookup key = some value) :
    count test table =
      count test (table.erase key) + if test value then 1 else 0 := by
  obtain ⟨front, back, whole, rest⟩ := entries_of_lookup found
  simp only [count, rest, whole, List.countP_append, List.countP_cons]
  omega

theorem count_insert (test : ν → Bool) (table : Table κ ν) (key : κ)
    (value : ν) :
    count test (table.insert key value) =
      count test (table.erase key) + if test value then 1 else 0 :=
  List.countP_cons

theorem erase_of_lookup {table : Table κ ν} {key : κ}
    (absent : table.lookup key = none) : table.erase key = table := by
  have outside := AList.mem_keys.not.mp (AList.lookup_eq_none.mp absent)
  exact AList.ext (List.kerase_of_notMem_keys outside)

theorem lookup_retain {keep : κ → ν → Bool} {table : Table κ ν}
    {key : κ} {value : ν} :
    (table.retain keep).lookup key = some value ↔
      table.lookup key = some value ∧ keep key value = true := by
  have stored := AList.mem_lookup_iff (a := key) (b := value)
    (s := table.retain keep)
  have source := AList.mem_lookup_iff (a := key) (b := value) (s := table)
  rw [Option.mem_def] at stored source
  rw [stored, source]
  simp [retain]

theorem lookup_retain_none {keep : κ → ν → Bool} {table : Table κ ν}
    {key : κ} (absent : table.lookup key = none) :
    (table.retain keep).lookup key = none := by
  rw [Option.eq_none_iff_forall_not_mem]
  intro value found
  have present := (lookup_retain.mp (Option.mem_def.mp found)).1
  simp [absent] at present

theorem lookup_mapValues (change : κ → ν → ν) (table : Table κ ν)
    (key : κ) :
    (table.mapValues change).lookup key =
      (table.lookup key).map (change key) := by
  cases found : table.lookup key with
  | none =>
      rw [Option.map_none, AList.lookup_eq_none, AList.mem_keys]
      have absent := AList.lookup_eq_none.mp found
      rw [AList.mem_keys] at absent
      simpa [mapValues, AList.keys, List.keys, Function.comp_def] using absent
  | some value =>
      have source := AList.mem_lookup_iff.mp (Option.mem_def.mpr found)
      refine Option.mem_def.mp (AList.mem_lookup_iff.mpr ?_)
      simp only [mapValues, List.mem_map]
      exact ⟨⟨key, value⟩, source, rfl⟩

theorem mem_entries {table : Table κ ν} {key : κ} {value : ν} :
    (⟨key, value⟩ : Σ _ : κ, ν) ∈ table.entries ↔
      table.lookup key = some value :=
  AList.mem_lookup_iff.symm

theorem lookup_insert_eq (key other : κ) (value : ν) (table : Table κ ν) :
    (table.insert key value).lookup other =
      if other = key then some value else table.lookup other := by
  by_cases same : other = key
  · subst same
    simp
  · simp [AList.lookup_insert_ne same, same]

theorem lookup_erase_eq (key other : κ) (table : Table κ ν) :
    (table.erase key).lookup other =
      if other = key then none else table.lookup other := by
  by_cases same : other = key
  · subst same
    simp
  · simp [AList.lookup_erase_ne same, same]

end Table
