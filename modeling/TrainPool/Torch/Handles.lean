import Mathlib.Data.Multiset.UnionInter
import Mathlib.Tactic.Abel
import TrainPool.Library.Dataflow
import TrainPool.Library.Table
import TrainPool.Torch.Graph

namespace TrainPool

/-! The tensor store as the graph runtime sees it, in runs where none of its
operations fails: handles with their contents. -/

abbrev Handle := Nat

/-- A new handle is never one that was handed out before. -/
structure HandleStore (τ : Type) where
  tensors : Table Handle τ
  next : Handle
  fresh : ∀ handle ∈ tensors, handle < next

/-- A leaf of a value: a tensor, another object, or `None`. -/
inductive Leaf (τ γ : Type) where
  | tensor (value : τ)
  | constant (value : γ)
  | none
  deriving DecidableEq, Repr

abbrev Value (τ γ σ : Type) := Tree (Leaf τ γ) σ

abbrev SavedTree (γ σ : Type) := Tree (Leaf Handle γ) σ

namespace HandleStore

variable {τ : Type}

def offload (value : τ) (store : HandleStore τ) : Handle × HandleStore τ :=
  (store.next, {
    tensors := store.tensors.insert store.next value
    next := store.next + 1
    fresh := by
      intro handle member
      rcases (AList.mem_insert _).mp member with rfl | member
      · exact Nat.lt_succ_self _
      · exact Nat.lt_succ_of_lt (store.fresh handle member) })

def restore (handle : Handle) (store : HandleStore τ) : Option τ :=
  store.tensors.lookup handle

def free (handle : Handle) (store : HandleStore τ) : HandleStore τ where
  tensors := store.tensors.erase handle
  next := store.next
  fresh := fun other member => store.fresh other (AList.mem_erase.mp member).2

def handles (store : HandleStore τ) : Multiset Handle := store.tensors.keys

variable {store next : HandleStore τ} {handle : Handle} {value : τ}

theorem mem_handles : handle ∈ store.handles ↔ handle ∈ store.tensors :=
  AList.mem_keys.symm

theorem handles_nodup : store.handles.Nodup :=
  Multiset.coe_nodup.mpr store.tensors.keys_nodup

theorem restore_total (live : handle ∈ store.handles) :
    ∃ value, store.restore handle = some value :=
  Option.isSome_iff_exists.mp
    (AList.lookup_isSome.mpr (mem_handles.mp live))

theorem next_not_live : store.next ∉ store.handles := by
  intro live
  exact Nat.lt_irrefl _ (store.fresh _ (mem_handles.mp live))

theorem handles_offload :
    (store.offload value).2.handles =
      (store.offload value).1 ::ₘ store.handles := by
  have absent : store.next ∉ store.tensors.keys := by
    rw [AList.mem_keys.symm.not]
    exact fun member => Nat.lt_irrefl _ (store.fresh _ member)
  simp only [handles, offload, AList.keys_insert,
    List.erase_of_not_mem absent, Multiset.cons_coe]

theorem restore_offload_self :
    (store.offload value).2.restore (store.offload value).1 = some value := by
  simp [restore, offload]

theorem restore_offload_of_live (live : handle ∈ store.handles) :
    (store.offload value).2.restore handle = store.restore handle := by
  have other : handle ≠ store.next := by
    rintro rfl
    exact next_not_live live
  simp [restore, offload, AList.lookup_insert_ne other]

theorem handles_free : (store.free handle).handles =
    store.handles.erase handle := by
  simp [handles, free, AList.keys_erase, Multiset.coe_erase]

theorem restore_free_of_ne {other : Handle} (distinct : other ≠ handle) :
    (store.free handle).restore other = store.restore other := by
  simp [restore, free, AList.lookup_erase_ne distinct]

/-- What `kept` names has its contents in `next` too, and handles that were
handed out are not handed out again. -/
structure Keeps (kept : Multiset Handle) (store next : HandleStore τ) :
    Prop where
  grows : store.next ≤ next.next
  same : ∀ handle ∈ kept, next.restore handle = store.restore handle

namespace Keeps

variable {kept few : Multiset Handle} {first second third : HandleStore τ}

theorem refl (kept : Multiset Handle) (store : HandleStore τ) :
    Keeps kept store store :=
  ⟨Nat.le_refl _, fun _ _ => rfl⟩

theorem trans (early : Keeps kept first second)
    (late : Keeps kept second third) : Keeps kept first third :=
  ⟨early.grows.trans late.grows, fun handle member =>
    (late.same handle member).trans (early.same handle member)⟩

theorem mono (keeps : Keeps kept first second)
    (fewer : ∀ handle ∈ few, handle ∈ kept) : Keeps few first second :=
  ⟨keeps.grows, fun handle member => keeps.same handle (fewer handle member)⟩

end Keeps

theorem offload_keeps :
    Keeps store.handles store (store.offload value).2 :=
  ⟨Nat.le_succ _, fun _ live => restore_offload_of_live live⟩

theorem free_keeps {rest : Multiset Handle}
    (owned : store.handles = handle ::ₘ rest) :
    (store.free handle).handles = rest ∧
      Keeps rest store (store.free handle) := by
  refine ⟨by rw [handles_free, owned, Multiset.erase_cons_head],
    Nat.le_refl _, ?_⟩
  intro other member
  apply restore_free_of_ne
  rintro rfl
  have distinct := owned ▸ store.handles_nodup
  exact (Multiset.nodup_cons.mp distinct).1 member

end HandleStore

def Leaf.handle? {γ : Type} : Leaf Handle γ → Option Handle
  | .tensor handle => some handle
  | .constant _ => Option.none
  | .none => Option.none

namespace SavedTree

open HandleStore

variable {τ γ σ : Type}

def saveLeaves : List (Leaf τ γ) → HandleStore τ →
    List (Leaf Handle γ) × HandleStore τ
  | [], store => ([], store)
  | .tensor value :: rest, store =>
      let (handle, store) := store.offload value
      let (saved, store) := saveLeaves rest store
      (.tensor handle :: saved, store)
  | .constant value :: rest, store =>
      let (saved, store) := saveLeaves rest store
      (.constant value :: saved, store)
  | .none :: rest, store =>
      let (saved, store) := saveLeaves rest store
      (.none :: saved, store)

def save (value : Value τ γ σ) (store : HandleStore τ) :
    SavedTree γ σ × HandleStore τ :=
  let (leaves, store) := saveLeaves value.leaves store
  (⟨leaves, value.spec⟩, store)

def restoreLeaf (store : HandleStore τ) :
    Leaf Handle γ → Option (Leaf τ γ)
  | .tensor handle => (store.restore handle).map .tensor
  | .constant value => some (.constant value)
  | .none => some .none

def restore (saved : SavedTree γ σ) (store : HandleStore τ) :
    Option (Value τ γ σ) := do
  let leaves ← saved.leaves.mapM (restoreLeaf store)
  some ⟨leaves, saved.spec⟩

def handleList (saved : SavedTree γ σ) : List Handle :=
  saved.leaves.filterMap Leaf.handle?

def handles (saved : SavedTree γ σ) : Multiset Handle := saved.handleList

def free (saved : SavedTree γ σ) (store : HandleStore τ) : HandleStore τ :=
  saved.handleList.foldl (fun store handle => store.free handle) store

variable {saved : SavedTree γ σ} {value : Value τ γ σ}
  {store next : HandleStore τ}

theorem saveLeaves_spec (leaves : List (Leaf τ γ)) (store : HandleStore τ) :
    (saveLeaves leaves store).2.handles =
        ((saveLeaves leaves store).1.filterMap Leaf.handle? :
          Multiset Handle) + store.handles ∧
      Keeps store.handles store (saveLeaves leaves store).2 ∧
      (saveLeaves leaves store).1.mapM
          (restoreLeaf (saveLeaves leaves store).2) = some leaves := by
  induction leaves generalizing store with
  | nil => exact ⟨by simp [saveLeaves], Keeps.refl _ _, rfl⟩
  | cons leaf rest ih =>
      cases leaf with
      | tensor value =>
          obtain ⟨grown, keeps, restored⟩ := ih (store.offload value).2
          have live : (store.offload value).1 ∈
              (store.offload value).2.handles := by
            rw [handles_offload]
            exact Multiset.mem_cons_self _ _
          refine ⟨?_, ?_, ?_⟩
          · simp only [saveLeaves, grown, handles_offload]
            simp [Leaf.handle?, ← Multiset.cons_coe]
          · refine offload_keeps.trans (keeps.mono ?_)
            intro handle member
            rw [handles_offload]
            exact Multiset.mem_cons_of_mem member
          · simp only [saveLeaves, List.mapM_cons, restored, restoreLeaf,
              keeps.same _ live, restore_offload_self]
            rfl
      | constant value =>
          obtain ⟨grown, keeps, restored⟩ := ih store
          refine ⟨grown, keeps, ?_⟩
          · simp only [saveLeaves, List.mapM_cons, restored, restoreLeaf]
            rfl
      | none =>
          obtain ⟨grown, keeps, restored⟩ := ih store
          refine ⟨grown, keeps, ?_⟩
          · simp only [saveLeaves, List.mapM_cons, restored, restoreLeaf]
            rfl

theorem save_spec (value : Value τ γ σ) (store : HandleStore τ) :
    (save value store).2.handles =
        (save value store).1.handles + store.handles ∧
      Keeps store.handles store (save value store).2 ∧
      (save value store).1.restore (save value store).2 = some value := by
  obtain ⟨grown, keeps, restored⟩ := saveLeaves_spec value.leaves store
  refine ⟨grown, keeps, ?_⟩
  simp only [restore, save, restored]
  rfl

theorem restore_keeps (keeps : Keeps saved.handles store next) :
    saved.restore next = saved.restore store := by
  have same : saved.leaves.mapM (restoreLeaf next) =
      saved.leaves.mapM (@restoreLeaf τ γ store) := by
    apply Dataflow.mapM_congr
    intro leaf member
    cases leaf with
    | tensor handle =>
        have listed : handle ∈ saved.handles :=
          Multiset.mem_coe.mpr (List.mem_filterMap.mpr ⟨_, member, rfl⟩)
        simp [restoreLeaf, keeps.same handle listed]
    | constant value => rfl
    | none => rfl
  simp [restore, same]

theorem freeList_keeps {rest : Multiset Handle} {list : List Handle}
    (owned : store.handles = (list : Multiset Handle) + rest) :
    (list.foldl (fun store handle => store.free handle) store).handles =
        rest ∧
      Keeps rest store
        (list.foldl (fun store handle => store.free handle) store) := by
  induction list generalizing store with
  | nil => exact ⟨by simpa using owned, Keeps.refl _ _⟩
  | cons first list ih =>
      rw [← Multiset.cons_coe, Multiset.cons_add] at owned
      obtain ⟨shrunk, kept⟩ := free_keeps owned
      obtain ⟨exact, keeps⟩ := ih shrunk
      refine ⟨exact, (kept.mono ?_).trans keeps⟩
      intro handle member
      exact Multiset.mem_add.mpr (.inr member)

theorem free_spec {rest : Multiset Handle}
    (owned : store.handles = saved.handles + rest) :
    (saved.free store).handles = rest ∧
      Keeps rest store (saved.free store) :=
  freeList_keeps owned

end SavedTree

end TrainPool
