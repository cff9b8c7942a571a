import Mathlib.Algebra.BigOperators.Group.Finset.Basic
import Mathlib.Algebra.GroupWithZero.Nat
import Mathlib.Algebra.Order.BigOperators.Group.Finset
import Mathlib.Data.List.Basic
import Mathlib.Data.List.Nodup
import Mathlib.Order.Lattice.Nat

/-! The values of a straight-line program that are live at each of its steps,
and the peak of what they take together. -/

namespace Liveness

variable {κ : Type} [DecidableEq κ]

structure Step (κ : Type) where
  defines : Option κ
  reads : List κ

def names (steps : List (Step κ)) : List κ := steps.filterMap Step.defines

def positions (program : List (Step κ)) (name : κ) : List Nat :=
  (program.zipIdx.filter fun entry => name ∈ entry.1.reads).map Prod.snd

/-- The last position that reads a name; one that nothing reads is used where
it is defined. -/
def lastUse (program : List (Step κ)) (name : κ) : Nat :=
  (positions program name).max?.getD
    (program.findIdx fun step => step.defines = some name)

structure State (κ : Type) where
  live : List κ := []
  peak : Nat := 0

def define (name : Option κ) (live : List κ) : List κ :=
  match name with
  | none => live
  | some name => if name ∈ live then live else live ++ [name]

/-- One step makes its own value live, is measured, and drops the values that
are not used again. -/
def visit (size : κ → Nat) (program : List (Step κ)) (state : State κ)
    (entry : Step κ × Nat) : State κ :=
  let live := define entry.1.defines state.live
  { live := live.filter fun name => entry.2 < lastUse program name
    peak := max state.peak (live.map size).sum }

def peak (size : κ → Nat) (program : List (Step κ)) : Nat :=
  (program.zipIdx.foldl (visit size program) {}).peak

def Read (steps : List (Step κ)) (name : κ) : Prop :=
  ∃ step ∈ steps, name ∈ step.reads

instance Read.decidable (steps : List (Step κ)) (name : κ) :
    Decidable (Read steps name) :=
  inferInstanceAs (Decidable (∃ step ∈ steps, name ∈ step.reads))

/-- What is live at a step: its own value, and the earlier values that it or a
later step reads. -/
def liveAt (front : List (Step κ)) (step : Step κ) (back : List (Step κ)) :
    Finset κ :=
  (names (front ++ [step])).toFinset.filter fun name =>
    step.defines = some name ∨ Read (step :: back) name

variable {size : κ → Nat} {program front back : List (Step κ)} {step : Step κ}
  {name : κ}

omit [DecidableEq κ] in
@[simp] theorem names_append :
    names (front ++ back) = names front ++ names back :=
  List.filterMap_append

omit [DecidableEq κ] in
theorem mem_names : name ∈ names program ↔
    ∃ step ∈ program, step.defines = some name :=
  List.mem_filterMap

theorem mem_liveAt : name ∈ liveAt front step back ↔
    step.defines = some name ∨
      (name ∈ names front ∧ Read (step :: back) name) := by
  simp only [liveAt, Finset.mem_filter, List.mem_toFinset, names_append,
    List.mem_append]
  have own : name ∈ names [step] ↔ step.defines = some name := by
    simp [mem_names]
  rw [own]
  tauto

theorem mem_positions {position : Nat} :
    position ∈ positions program name ↔
      ∃ step, program[position]? = some step ∧ name ∈ step.reads := by
  simp only [positions, List.mem_map, List.mem_filter, decide_eq_true_eq]
  constructor
  · intro found
    obtain ⟨entry, ⟨listed, read⟩, rfl⟩ := found
    exact ⟨entry.1, List.mk_mem_zipIdx_iff_getElem?.mp listed, read⟩
  · intro found
    obtain ⟨step, listed, read⟩ := found
    exact ⟨(step, position),
      ⟨List.mk_mem_zipIdx_iff_getElem?.mpr listed, read⟩, rfl⟩

/-- A value that is defined by then is used from a position on just when
something there reads it. -/
theorem lastUse_iff (defined : name ∈ names front) :
    front.length ≤ lastUse (front ++ back) name ↔ Read back name := by
  obtain ⟨definer, listed, defines⟩ := mem_names.mp defined
  have own : (front ++ back).findIdx
      (fun step => step.defines = some name) < front.length := by
    rw [List.findIdx_append, if_pos]
    all_goals exact List.findIdx_lt_length_of_exists ⟨definer, listed, by simp [defines]⟩
  unfold lastUse
  cases kind : (positions (front ++ back) name).max? with
  | none =>
      rw [List.max?_eq_none_iff] at kind
      simp only [Option.getD_none]
      constructor
      · intro inside
        omega
      · intro read
        obtain ⟨step, member, read⟩ := read
        obtain ⟨index, inside, rfl⟩ := List.getElem_of_mem member
        have found : front.length + index ∈ positions (front ++ back) name :=
          mem_positions.mpr ⟨back[index], by simp [inside], read⟩
        rw [kind] at found
        cases found
  | some last =>
      obtain ⟨found, bound⟩ := List.max?_eq_some_iff.mp kind
      simp only [Option.getD_some]
      constructor
      · intro inside
        obtain ⟨step, placed, read⟩ := mem_positions.mp found
        rw [List.getElem?_append_right inside] at placed
        exact ⟨step, List.mem_of_getElem? placed, read⟩
      · intro read
        obtain ⟨step, member, read⟩ := read
        obtain ⟨index, inside, rfl⟩ := List.getElem_of_mem member
        have found : front.length + index ∈ positions (front ++ back) name :=
          mem_positions.mpr ⟨back[index], by simp [inside], read⟩
        have := bound _ found
        omega

/-- The table before a step holds the earlier values that are used from there
on. -/
structure Tracks (program : List (Step κ)) (front : List (Step κ))
    (state : State κ) : Prop where
  nodup : state.live.Nodup
  live : ∀ name, name ∈ state.live ↔
    name ∈ names front ∧ front.length ≤ lastUse program name

theorem mem_define {own : Option κ} {live : List κ} :
    name ∈ define own live ↔ own = some name ∨ name ∈ live := by
  cases own with
  | none => simp [define]
  | some own =>
      unfold define
      by_cases known : own ∈ live
      · simp only [known, if_true, Option.some.injEq]
        constructor
        · exact .inr
        · rintro (rfl | listed)
          · exact known
          · exact listed
      · simp only [known, if_false, List.mem_append, List.mem_singleton,
          Option.some.injEq]
        rw [eq_comm, or_comm]

theorem define_nodup {own : Option κ} {live : List κ} (nodup : live.Nodup) :
    (define own live).Nodup := by
  cases own with
  | none => exact nodup
  | some own =>
      unfold define
      by_cases known : own ∈ live
      · simpa [known] using nodup
      · simp only [known, if_false]
        exact nodup.append (List.nodup_singleton own) (by simpa using known)

theorem Tracks.visited {state : State κ} (tracks : Tracks program front state)
    (split : program = front ++ step :: back) :
    Tracks program (front ++ [step])
        (visit size program state (step, front.length)) ∧
      (visit size program state (step, front.length)).peak =
        max state.peak (∑ name ∈ liveAt front step back, size name) := by
  have nodup : (define step.defines state.live).Nodup :=
    define_nodup tracks.nodup
  constructor
  · refine ⟨nodup.filter _, ?_⟩
    intro name
    simp only [visit, List.mem_filter, decide_eq_true_eq, mem_define,
      tracks.live, names_append, List.mem_append, List.length_append,
      List.length_singleton]
    have own : name ∈ names [step] ↔ step.defines = some name := by
      simp [mem_names]
    rw [own]
    constructor
    · rintro ⟨defined | ⟨earlier, _⟩, used⟩
      · exact ⟨.inr defined, used⟩
      · exact ⟨.inl earlier, used⟩
    · rintro ⟨earlier | defined, used⟩
      · exact ⟨.inr ⟨earlier, by omega⟩, by omega⟩
      · exact ⟨.inl defined, by omega⟩
  · have same : (define step.defines state.live).toFinset =
        liveAt front step back := by
      ext name
      rw [List.mem_toFinset, mem_define, tracks.live, mem_liveAt]
      apply or_congr_right
      apply and_congr_right
      intro earlier
      rw [split, lastUse_iff earlier]
    change max state.peak ((define step.defines state.live).map size).sum = _
    rw [← same, List.sum_toFinset _ nodup]

theorem peak_le {bound : Nat} : peak size program ≤ bound ↔
    ∀ front step back, program = front ++ step :: back →
      ∑ name ∈ liveAt front step back, size name ≤ bound := by
  have folded : ∀ (back front : List (Step κ)) (state : State κ),
      program = front ++ back → Tracks program front state →
      (((back.zipIdx front.length).foldl (visit size program) state).peak ≤
          bound ↔
        state.peak ≤ bound ∧ ∀ before step after,
          program = front ++ before ++ step :: after →
          ∑ name ∈ liveAt (front ++ before) step after, size name ≤
            bound) := by
    intro back
    induction back with
    | nil =>
        intro front state split tracks
        simp only [List.zipIdx_nil, List.foldl_nil]
        constructor
        · intro below
          refine ⟨below, ?_⟩
          intro before step after same
          rw [split, List.append_nil] at same
          have longer := congrArg List.length same
          simp only [List.length_append, List.length_cons] at longer
          omega
        · exact And.left
    | cons step back ih =>
        intro front state split tracks
        obtain ⟨next, peak⟩ := @Tracks.visited κ _ size _ _ _ _ _ tracks split
        rw [List.zipIdx_cons, List.foldl_cons]
        have rest := ih (front ++ [step]) _ (by simpa using split) next
        rw [List.length_append, List.length_singleton] at rest
        rw [rest, peak, max_le_iff, and_assoc]
        apply and_congr_right
        intro _
        constructor
        · rintro ⟨first, later⟩ before other after same
          cases before with
          | nil =>
              rw [List.append_nil] at same ⊢
              rw [split] at same
              obtain ⟨_, rest⟩ := List.append_inj same rfl
              cases rest
              exact first
          | cons earlier before =>
              have shift : front ++ earlier :: before =
                  front ++ [step] ++ before := by
                rw [split, List.append_assoc] at same
                obtain ⟨_, rest⟩ := List.append_inj same rfl
                cases rest
                simp
              rw [shift] at same ⊢
              exact later before other after same
        · intro all
          constructor
          · have first := all [] step back (by simpa using split)
            rwa [List.append_nil] at first
          · intro before other after same
            have shift : front ++ [step] ++ before =
                front ++ ([step] ++ before) := List.append_assoc ..
            rw [shift] at same ⊢
            exact all ([step] ++ before) other after same
  have whole := folded program [] {} rfl ⟨List.nodup_nil, by simp [names]⟩
  simpa [peak] using whole

theorem sum_le_peak (split : program = front ++ step :: back) :
    ∑ name ∈ liveAt front step back, size name ≤ peak size program :=
  peak_le.mp le_rfl front step back split

/-- A program all of whose live sets are within live sets of another needs no
more than it. -/
theorem peak_mono {other : List (Step κ)}
    (within : ∀ front step back, program = front ++ step :: back →
      ∃ before wider after, other = before ++ wider :: after ∧
        liveAt front step back ⊆ liveAt before wider after) :
    peak size program ≤ peak size other := by
  rw [peak_le]
  intro front step back split
  obtain ⟨before, wider, after, same, subset⟩ := within front step back split
  exact (Finset.sum_le_sum_of_subset subset).trans (sum_le_peak same)

/-! The same peak by the intervals in which the values are live. -/

def definedAt (program : List (Step κ)) (name : κ) : Nat :=
  program.findIdx fun step => step.defines = some name

/-- The names that are live at a position: they are defined by then, and last
used there or later. -/
def live (program : List (Step κ)) (position : Nat) : Finset κ :=
  (names program).toFinset.filter fun name =>
    definedAt program name ≤ position ∧ position ≤ lastUse program name

structure Causal (program : List (Step κ)) : Prop where
  distinct : (names program).Nodup
  reads : ∀ front step back, program = front ++ step :: back →
    ∀ name ∈ step.reads, name ∈ names program → name ∈ names front

theorem mem_live {position : Nat} : name ∈ live program position ↔
    name ∈ names program ∧ definedAt program name ≤ position ∧
      position ≤ lastUse program name := by
  simp only [live, Finset.mem_filter, List.mem_toFinset]

theorem definedAt_lt : definedAt (front ++ back) name < front.length ↔
    name ∈ names front := by
  unfold definedAt
  rw [List.findIdx_append, mem_names]
  constructor
  · intro early
    split at early
    · rename_i found
      obtain ⟨step, listed, defines⟩ := List.findIdx_lt_length.mp found
      exact ⟨step, listed, by simpa using defines⟩
    · omega
  · intro given
    obtain ⟨step, listed, defines⟩ := given
    have found := List.findIdx_lt_length_of_exists
      (p := fun step : Step κ => decide (step.defines = some name))
      ⟨step, listed, by simp [defines]⟩
    rw [if_pos found]
    exact found

theorem definedAt_of_defines (fresh : name ∉ names front)
    (defines : step.defines = some name) :
    definedAt (front ++ step :: back) name = front.length := by
  have late : ¬definedAt (front ++ step :: back) name < front.length :=
    mt definedAt_lt.mp fresh
  have split : front ++ step :: back = (front ++ [step]) ++ back := by simp
  have soon : definedAt (front ++ step :: back) name <
      (front ++ [step]).length := by
    rw [split, definedAt_lt, names_append, List.mem_append]
    exact .inr (mem_names.mpr ⟨step, by simp, defines⟩)
  rw [List.length_append, List.length_singleton] at soon
  omega

theorem mem_names_of_le (defined : name ∈ names (front ++ step :: back))
    (early : definedAt (front ++ step :: back) name ≤ front.length) :
    step.defines = some name ∨ name ∈ names front := by
  rcases Nat.lt_or_eq_of_le early with before | here
  · exact .inr (definedAt_lt.mp before)
  · left
    obtain ⟨definer, listed, defines⟩ := mem_names.mp defined
    have inside := List.findIdx_lt_length_of_exists
      (p := fun step : Step κ => decide (step.defines = some name))
      ⟨definer, listed, by simp [defines]⟩
    have found := List.findIdx_getElem (w := inside)
    unfold definedAt at here
    simpa [here] using found

theorem definedAt_le_lastUse (causal : Causal program)
    (defined : name ∈ names program) :
    definedAt program name ≤ lastUse program name := by
  unfold lastUse
  cases kind : (positions program name).max? with
  | none => exact Nat.le_refl _
  | some last =>
      obtain ⟨found, _⟩ := List.max?_eq_some_iff.mp kind
      obtain ⟨step, placed, read⟩ := mem_positions.mp found
      obtain ⟨inside, rfl⟩ := List.getElem?_eq_some_iff.mp placed
      have split : program = program.take last ++
          program[last] :: program.drop (last + 1) := by simp
      have before : definedAt (program.take last ++
          program[last] :: program.drop (last + 1)) name <
            (program.take last).length :=
        definedAt_lt.mpr (causal.reads _ _ _ split name read defined)
      rw [← split, List.length_take] at before
      simp only [Option.getD_some]
      omega

/-- In a causal program, what is live at a step is what is live at its
position. -/
theorem liveAt_eq (causal : Causal program)
    (split : program = front ++ step :: back) :
    liveAt front step back = live program front.length := by
  ext name
  rw [mem_liveAt, mem_live]
  have defined : name ∈ names program ↔
      name ∈ names front ∨ step.defines = some name ∨ name ∈ names back := by
    have tail : name ∈ names (step :: back) ↔
        step.defines = some name ∨ name ∈ names back := by
      simp [mem_names]
    rw [split, names_append, List.mem_append, tail]
  constructor
  · rintro (own | ⟨earlier, read⟩)
    · have known := defined.mpr (.inr (.inl own))
      have fresh : name ∉ names front := by
        have distinct := causal.distinct
        rw [split, names_append, List.nodup_append'] at distinct
        exact fun earlier => distinct.2.2 earlier
          (mem_names.mpr ⟨step, List.mem_cons_self, own⟩)
      have here : definedAt program name = front.length := by
        rw [split]
        exact definedAt_of_defines fresh own
      exact ⟨known, here.le, here ▸ definedAt_le_lastUse causal known⟩
    · refine ⟨defined.mpr (.inl earlier), ?_, ?_⟩
      · rw [split]
        exact (definedAt_lt.mpr earlier).le
      · rw [split]
        exact (lastUse_iff earlier).mpr read
  · rintro ⟨known, early, used⟩
    rw [split] at known early used
    refine (mem_names_of_le known early).imp_right ?_
    intro earlier
    exact ⟨earlier, (lastUse_iff earlier).mp used⟩

/-- The peak of a causal program is the largest total of what is live at a
position. -/
theorem peak_eq_sup (causal : Causal program) :
    peak size program = (Finset.range program.length).sup fun position =>
      ∑ name ∈ live program position, size name := by
  apply le_antisymm
  · rw [peak_le]
    intro front step back split
    rw [liveAt_eq causal split]
    apply Finset.le_sup (f := fun position =>
      ∑ name ∈ live program position, size name)
    simp [split]
  · apply Finset.sup_le
    intro position member
    have inside : position < program.length := Finset.mem_range.mp member
    have split : program = program.take position ++
        program[position] :: program.drop (position + 1) := by simp
    have here := liveAt_eq causal split
    rw [List.length_take, Nat.min_eq_left inside.le] at here
    rw [← here]
    exact sum_le_peak split

end Liveness
