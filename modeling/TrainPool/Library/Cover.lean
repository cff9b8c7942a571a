import Mathlib.Algebra.BigOperators.Group.List.Basic
import Mathlib.Algebra.Order.Ring.Int
import Mathlib.Data.Multiset.AddSub
import Mathlib.Order.Basic

/-! Choosing items until their weights cover what is needed. -/

namespace Cover

variable {α κ : Type}

def total (weight : α → Nat) (items : List α) : Nat :=
  (items.map weight).sum

variable {key : α → κ} {weight : α → Nat} {needed : Int}
  {items front back : List α} {last : α}

theorem total_append : total weight (front ++ back) =
    total weight front + total weight back := by
  simp [total]

theorem total_perm {others : List α} (perm : items.Perm others) :
    total weight items = total weight others :=
  (perm.map weight).sum_eq

variable [DecidableEq α]

theorem erase_last : ((front ++ [last]).erase last).Perm front := by
  have moved := (List.perm_append_singleton last front).erase last
  rwa [List.erase_cons_head] at moved

theorem diff_front (perm : items.Perm (front ++ back)) :
    (items.diff front).Perm back := by
  rw [← Multiset.coe_eq_coe, ← Multiset.coe_sub,
    Multiset.coe_eq_coe.mpr perm, ← Multiset.coe_add,
    Multiset.add_comm, Multiset.add_sub_cancel_right]

variable [LinearOrder κ]

/-- A choice that covers what is needed, prefers the items with the larger
keys, and would not cover it without its item with the least. -/
structure Minimal (key : α → κ) (weight : α → Nat) (needed : Int)
    (items chosen : List α) : Prop where
  among : chosen.Subperm items
  covers : needed ≤ total weight chosen
  least : ∃ last ∈ chosen, (∀ other ∈ chosen, key last ≤ key other) ∧
    total weight (chosen.erase last) < needed
  sole : ∀ last ∈ chosen,
    (∀ other ∈ chosen.erase last, key last < key other) →
      total weight (chosen.erase last) < needed
  prefers : ∀ item ∈ chosen, ∀ other ∈ items.diff chosen,
    key other ≤ key item

theorem Minimal.of_descending
    (perm : items.Perm (front ++ last :: back))
    (descending : (front ++ last :: back).Pairwise
      fun left right => key right ≤ key left)
    (short : total weight front < needed)
    (enough : needed ≤ total weight (front ++ [last])) :
    Minimal key weight needed items (front ++ [last]) := by
  have whole : front ++ last :: back = (front ++ [last]) ++ back := by simp
  rw [whole] at perm descending
  obtain ⟨within, _, across⟩ := List.pairwise_append.mp descending
  have least : ∀ other ∈ front ++ [last], key last ≤ key other := by
    intro other member
    rcases List.mem_append.mp member with earlier | same
    · exact (List.pairwise_append.mp within).2.2 other earlier last
        List.mem_cons_self
    · rw [List.mem_singleton.mp same]
  have without : total weight ((front ++ [last]).erase last) < needed := by
    rw [total_perm erase_last]
    exact short
  refine ⟨?_, enough, ⟨last, by simp, least, without⟩, ?_, ?_⟩
  · exact (List.sublist_append_left _ _).subperm.trans perm.symm.subperm
  · intro other member strict
    by_cases same : other = last
    · rw [same]
      exact without
    · have kept : last ∈ (front ++ [last]).erase other :=
        (List.mem_erase_of_ne (Ne.symm same)).mpr (by simp)
      exact absurd (strict last kept) (least other member).not_gt
  · intro item member other rest
    exact across item member other ((diff_front perm).mem_iff.mp rest)

end Cover
