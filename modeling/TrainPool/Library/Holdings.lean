import Mathlib.Data.List.Nodup
import Mathlib.Logic.Function.Basic

/-! Keys that are held by owners: what exists is held exactly once, and keys
from a bound on are not drawn yet. -/

variable {ι : Type}

structure Holdings (held : ι → List Nat) (exist : Nat → Prop)
    (drawn : Nat) : Prop where
  nodup : ∀ owner, (held owner).Nodup
  apart : ∀ owner other key, key ∈ held owner → key ∈ held other →
    owner = other
  existing : ∀ key, exist key ↔ ∃ owner, key ∈ held owner
  below : ∀ key, exist key → key < drawn

namespace Holdings

variable {held : ι → List Nat} {exist : Nat → Prop} {drawn : Nat}

theorem held_exists (holdings : Holdings held exist drawn) {owner : ι}
    {key : Nat} (member : key ∈ held owner) : exist key :=
  (holdings.existing key).mpr ⟨owner, member⟩

theorem held_below (holdings : Holdings held exist drawn) (owner : ι)
    {key : Nat} (member : key ∈ held owner) : key < drawn :=
  holdings.below key (holdings.held_exists member)

theorem empty : Holdings (fun _ : ι => []) (fun _ => False) drawn where
  nodup _ := List.nodup_nil
  apart _ _ _ member := absurd member List.not_mem_nil
  existing key := by simp
  below _ absent := absent.elim

theorem raise (holdings : Holdings held exist drawn) {later : Nat}
    (ordered : drawn ≤ later) : Holdings held exist later where
  nodup := holdings.nodup
  apart := holdings.apart
  existing := holdings.existing
  below key present :=
    Nat.lt_of_lt_of_le (holdings.below key present) ordered

variable [DecidableEq ι]

theorem grow (holdings : Holdings held exist drawn) (owner : ι)
    {fresh : List Nat} {later : Nat} {exist' : Nat → Prop}
    (ordered : drawn ≤ later) (nodup : fresh.Nodup)
    (between : ∀ key ∈ fresh, drawn ≤ key ∧ key < later)
    (after : ∀ key, exist' key ↔ exist key ∨ key ∈ fresh) :
    Holdings (Function.update held owner (held owner ++ fresh)) exist'
      later where
  nodup other := by
    by_cases same : other = owner
    · subst same
      rw [Function.update_self]
      refine (holdings.nodup other).append nodup fun key old new => ?_
      have := holdings.held_below _ old
      have := (between key new).1
      omega
    · rw [Function.update_of_ne same]
      exact holdings.nodup other
  apart := by
    have split : ∀ other key,
        key ∈ Function.update held owner (held owner ++ fresh) other →
          key ∈ held other ∨ other = owner ∧ key ∈ fresh := by
      intro other key member
      by_cases same : other = owner
      · subst same
        rw [Function.update_self, List.mem_append] at member
        exact member.imp id fun new => ⟨rfl, new⟩
      · rw [Function.update_of_ne same] at member
        exact .inl member
    intro one two key first second
    rcases split one key first with old | ⟨rfl, new⟩ <;>
      rcases split two key second with old' | ⟨rfl, new'⟩
    · exact holdings.apart one two key old old'
    · have := holdings.held_below _ old
      have := (between key new').1
      omega
    · have := holdings.held_below _ old'
      have := (between key new).1
      omega
    · rfl
  existing key := by
    rw [after, holdings.existing]
    constructor
    · intro here
      rcases here with ⟨other, member⟩ | new
      · by_cases same : other = owner
        · subst same
          exact ⟨other, by simp [member]⟩
        · exact ⟨other, by rwa [Function.update_of_ne same]⟩
      · exact ⟨owner, by simp [new]⟩
    · intro given
      obtain ⟨other, member⟩ := given
      by_cases same : other = owner
      · subst same
        rw [Function.update_self, List.mem_append] at member
        exact member.imp (⟨other, ·⟩) id
      · rw [Function.update_of_ne same] at member
        exact .inl ⟨other, member⟩
  below key present := by
    rcases (after key).mp present with old | new
    · exact Nat.lt_of_lt_of_le (holdings.below key old) ordered
    · exact (between key new).2

theorem drop (holdings : Holdings held exist drawn) (owner : ι)
    {exist' : Nat → Prop}
    (after : ∀ key, exist' key ↔ exist key ∧ key ∉ held owner) :
    Holdings (Function.update held owner []) exist' drawn where
  nodup other := by
    by_cases same : other = owner
    · subst same
      rw [Function.update_self]
      exact List.nodup_nil
    · rw [Function.update_of_ne same]
      exact holdings.nodup other
  apart one two key first second := by
    by_cases same : one = owner
    · subst same
      rw [Function.update_self] at first
      exact absurd first List.not_mem_nil
    · by_cases same' : two = owner
      · subst same'
        rw [Function.update_self] at second
        exact absurd second List.not_mem_nil
      · rw [Function.update_of_ne same] at first
        rw [Function.update_of_ne same'] at second
        exact holdings.apart one two key first second
  existing key := by
    rw [after, holdings.existing]
    constructor
    · intro given
      obtain ⟨⟨other, member⟩, lost⟩ := given
      have differ : other ≠ owner := by
        intro same
        exact lost (same ▸ member)
      exact ⟨other, by rwa [Function.update_of_ne differ]⟩
    · intro given
      obtain ⟨other, member⟩ := given
      by_cases same : other = owner
      · subst same
        rw [Function.update_self] at member
        exact absurd member List.not_mem_nil
      · rw [Function.update_of_ne same] at member
        refine ⟨⟨other, member⟩, fun mine => same ?_⟩
        exact holdings.apart other owner key member mine
  below key present := holdings.below key ((after key).mp present).1

end Holdings
