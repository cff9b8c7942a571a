import Mathlib.Algebra.BigOperators.Group.List.Basic
import Mathlib.Algebra.GroupWithZero.Nat
import Mathlib.Order.Lattice

/-! Counters that several parties change and whose highest value is recorded a
little later. -/

namespace Gauge

variable {σ α κ : Type}

structure Marks (level : σ → Nat) (seen : List σ) (peak : Nat)
    (pending : List Nat) : Prop where
  bounded : ∀ state ∈ seen,
    level state ≤ peak ∨ ∃ value ∈ pending, level state ≤ value
  reached : ∃ state ∈ seen, level state = peak
  reaching : ∀ value ∈ pending, ∃ state ∈ seen, level state = value

variable {level : σ → Nat} {seen : List σ} {peak : Nat} {pending : List Nat}
  {next : σ}

theorem Marks.exact (marks : Marks level seen peak []) :
    (∀ state ∈ seen, level state ≤ peak) ∧
      ∃ state ∈ seen, level state = peak := by
  refine ⟨?_, marks.reached⟩
  intro state member
  rcases marks.bounded state member with low | ⟨value, listed, _⟩
  · exact low
  · cases listed

theorem Marks.single (state : σ) : Marks level [state] (level state) [] where
  bounded := by simp
  reached := ⟨state, by simp⟩
  reaching := nofun

theorem Marks.stay (marks : Marks level seen peak pending)
    {state : σ} (member : state ∈ seen) (low : level next ≤ level state)
    {later : List Nat} (same : ∀ value, value ∈ later ↔ value ∈ pending) :
    Marks level (seen ++ [next]) peak later where
  bounded := by
    intro other listed
    simp only [same]
    rcases List.mem_append.mp listed with listed | listed
    · exact marks.bounded other listed
    · obtain rfl := List.mem_singleton.mp listed
      rcases marks.bounded state member with recorded | ⟨value, kept, high⟩
      · exact .inl (low.trans recorded)
      · exact .inr ⟨value, kept, low.trans high⟩
  reached := by
    obtain ⟨other, listed, exact⟩ := marks.reached
    exact ⟨other, List.mem_append_left _ listed, exact⟩
  reaching := by
    intro value kept
    obtain ⟨other, listed, exact⟩ := marks.reaching value ((same value).mp kept)
    exact ⟨other, List.mem_append_left _ listed, exact⟩

theorem Marks.rise (marks : Marks level seen peak pending)
    {later : List Nat}
    (same : ∀ value, value ∈ later ↔ value = level next ∨ value ∈ pending) :
    Marks level (seen ++ [next]) peak later where
  bounded := by
    intro other listed
    simp only [same]
    rcases List.mem_append.mp listed with listed | listed
    · rcases marks.bounded other listed with recorded | ⟨value, kept, high⟩
      · exact .inl recorded
      · exact .inr ⟨value, .inr kept, high⟩
    · obtain rfl := List.mem_singleton.mp listed
      exact .inr ⟨_, .inl rfl, Nat.le_refl _⟩
  reached := by
    obtain ⟨other, listed, exact⟩ := marks.reached
    exact ⟨other, List.mem_append_left _ listed, exact⟩
  reaching := by
    intro value kept
    rcases (same value).mp kept with rfl | kept
    · exact ⟨next, by simp, rfl⟩
    · obtain ⟨other, listed, exact⟩ := marks.reaching value kept
      exact ⟨other, List.mem_append_left _ listed, exact⟩

theorem Marks.record (marks : Marks level seen peak pending)
    {state : σ} (member : state ∈ seen) (low : level next ≤ level state)
    {later : List Nat} {current : Nat}
    (same : ∀ value, value ∈ pending ↔ value = current ∨ value ∈ later) :
    Marks level (seen ++ [next]) (max peak current) later := by
  have bounded : ∀ other ∈ seen, level other ≤ max peak current ∨
      ∃ value ∈ later, level other ≤ value := by
    intro other listed
    rcases marks.bounded other listed with recorded | ⟨value, kept, high⟩
    · exact .inl (recorded.trans (Nat.le_max_left _ _))
    · rcases (same value).mp kept with rfl | kept
      · exact .inl (high.trans (Nat.le_max_right _ _))
      · exact .inr ⟨value, kept, high⟩
  refine ⟨?_, ?_, ?_⟩
  · intro other listed
    rcases List.mem_append.mp listed with listed | listed
    · exact bounded other listed
    · obtain rfl := List.mem_singleton.mp listed
      rcases bounded state member with recorded | ⟨value, kept, high⟩
      · exact .inl (low.trans recorded)
      · exact .inr ⟨value, kept, low.trans high⟩
  · rcases Nat.le_total peak current with lower | higher
    · obtain ⟨other, listed, exact⟩ :=
        marks.reaching current ((same current).mpr (.inl rfl))
      exact ⟨other, List.mem_append_left _ listed, by omega⟩
    · obtain ⟨other, listed, exact⟩ := marks.reached
      exact ⟨other, List.mem_append_left _ listed, by omega⟩
  · intro value kept
    obtain ⟨other, listed, exact⟩ :=
      marks.reaching value ((same value).mpr (.inr kept))
    exact ⟨other, List.mem_append_left _ listed, exact⟩

/-! Sums over parties. -/

def total (weight : α → Nat) (items : List α) : Nat :=
  (items.map weight).sum

@[simp] theorem total_nil (weight : α → Nat) : total weight [] = 0 := rfl

@[simp] theorem total_cons (weight : α → Nat) (item : α) (items : List α) :
    total weight (item :: items) = weight item + total weight items := by
  simp [total]

@[simp] theorem total_append (weight : α → Nat) (front back : List α) :
    total weight (front ++ back) = total weight front + total weight back := by
  simp [total]

theorem total_mono {part weight : α → Nat} {items : List α}
    (fits : ∀ item ∈ items, part item ≤ weight item) :
    total part items ≤ total weight items := by
  induction items with
  | nil => exact Nat.le_refl _
  | cons item items ih =>
      rw [total_cons, total_cons]
      exact Nat.add_le_add (fits item (by simp))
        (ih fun other member => fits other (List.mem_cons_of_mem _ member))

theorem total_eraseIdx {weight : α → Nat} {items : List α} {index : Nat}
    {item : α} (found : items[index]? = some item) :
    total weight items = weight item + total weight (items.eraseIdx index) := by
  obtain ⟨inside, rfl⟩ := List.getElem?_eq_some_iff.mp found
  have perm := List.getElem_cons_eraseIdx_perm inside
  have sums := (perm.map weight).sum_eq
  simpa [total] using sums.symm

theorem total_set {weight : α → Nat} {items : List α} {index : Nat}
    {item : α} (found : items[index]? = some item) (other : α) :
    total weight (items.set index other) + weight item =
      total weight items + weight other := by
  induction items generalizing index with
  | nil => cases found
  | cons head rest ih =>
      cases index with
      | zero =>
          cases found
          simp only [List.set_cons_zero, total_cons]
          omega
      | succ index =>
          have later := ih found
          simp only [List.set_cons_succ, total_cons]
          omega

theorem countP_eraseIdx {test : α → Bool} {items : List α} {index : Nat}
    {item : α} (found : items[index]? = some item) :
    items.countP test =
      (items.eraseIdx index).countP test + if test item then 1 else 0 := by
  obtain ⟨inside, rfl⟩ := List.getElem?_eq_some_iff.mp found
  have perm := List.getElem_cons_eraseIdx_perm inside
  rw [← perm.countP_eq test, List.countP_cons]

theorem total_filter (weight : α → Nat) (test : α → Bool) (items : List α) :
    total weight items = total weight (items.filter test) +
      total weight (items.filter (!test ·)) := by
  induction items with
  | nil => rfl
  | cons item items ih =>
      cases passes : test item <;> simp [passes, ih] <;> omega

theorem mem_filterMap_eraseIdx {β : Type} {pick : α → Option β}
    {items : List α} {index : Nat} {item : α}
    (found : items[index]? = some item) (value : β) :
    value ∈ items.filterMap pick ↔
      pick item = some value ∨ value ∈ (items.eraseIdx index).filterMap pick := by
  obtain ⟨inside, rfl⟩ := List.getElem?_eq_some_iff.mp found
  have perm := (List.getElem_cons_eraseIdx_perm inside).filterMap pick
  rw [← perm.mem_iff, List.mem_filterMap, List.mem_filterMap]
  simp only [List.mem_cons, exists_eq_or_imp]

theorem total_eq_zero {weight : α → Nat} {items : List α}
    (none : ∀ item ∈ items, weight item = 0) : total weight items = 0 := by
  induction items with
  | nil => rfl
  | cons item items ih =>
      rw [total_cons, none item (by simp),
        ih fun other member => none other (List.mem_cons_of_mem _ member)]

theorem total_indicator_le [DecidableEq κ] {keys : List κ}
    (distinct : keys.Nodup) (owner : Option κ) (weight : Nat) :
    total (fun key => if owner = some key then weight else 0) keys ≤
      weight := by
  induction keys with
  | nil => exact Nat.zero_le _
  | cons key keys ih =>
      obtain ⟨fresh, distinct⟩ := List.nodup_cons.mp distinct
      rw [total_cons]
      by_cases owned : owner = some key
      · rw [if_pos owned, total_eq_zero]
        · exact Nat.le_refl _
        · intro other member
          refine if_neg ?_
          intro owns
          cases owned.symm.trans owns
          exact fresh member
      · rw [if_neg owned, Nat.zero_add]
        exact ih distinct

/-- Parts of the items that belong to different keys do not exceed the
items. -/
theorem total_parts_le {part : κ → α → Nat} {weight : α → Nat}
    {keys : List κ}
    (fits : ∀ item, total (fun key => part key item) keys ≤ weight item)
    (items : List α) :
    total (fun key => total (part key) items) keys ≤ total weight items := by
  induction items with
  | nil => simp [total]
  | cons item items ih =>
      have split : total (fun key => total (part key) (item :: items)) keys =
          total (fun key => part key item) keys +
            total (fun key => total (part key) items) keys := by
        simp [total, List.sum_map_add]
      rw [split, total_cons]
      exact Nat.add_le_add (fits item) ih

end Gauge
