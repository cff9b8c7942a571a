import Mathlib.Algebra.BigOperators.Group.List.Basic
import Mathlib.Algebra.Group.Hom.Defs
import Mathlib.Algebra.Group.Pi.Lemmas
import Mathlib.Data.List.Forall2
import Mathlib.Logic.Function.Basic

/-! Straight-line programs over named values, in which every node reads the
values of some names and defines its own: their evaluation, and the accumulation
of cotangents in the other direction.  A region of such a program runs in an
environment that holds its inputs only. -/

namespace Dataflow

variable {ν κ V : Type}

theorem exists_left_of_forall₂ {α β : Type*} {R : α → β → Prop}
    {lefts : List α} {rights : List β} (related : List.Forall₂ R lefts rights)
    {right : β} (member : right ∈ rights) : ∃ left ∈ lefts, R left right := by
  induction related with
  | nil => cases member
  | cons first _ ih =>
      rcases List.mem_cons.mp member with rfl | member
      · exact ⟨_, by simp, first⟩
      · obtain ⟨left, listed, holds⟩ := ih member
        exact ⟨left, List.mem_cons_of_mem _ listed, holds⟩

theorem exists_right_of_forall₂ {α β : Type*} {R : α → β → Prop}
    {lefts : List α} {rights : List β} (related : List.Forall₂ R lefts rights)
    {left : α} (member : left ∈ lefts) : ∃ right ∈ rights, R left right :=
  exists_left_of_forall₂ related.flip member

theorem mapM_eq_some {α β : Type} {f : α → Option β} {items : List α}
    {results : List β} :
    items.mapM f = some results ↔
      List.Forall₂ (fun item result => f item = some result) items results := by
  induction items generalizing results with
  | nil =>
      cases results with
      | nil => simp
      | cons result results => simp
  | cons item items ih =>
      rw [List.mapM_cons]
      constructor
      · intro collected
        obtain ⟨result, found, collected⟩ := Option.bind_eq_some_iff.mp collected
        obtain ⟨rest, others, same⟩ := Option.bind_eq_some_iff.mp collected
        cases same
        exact .cons found (ih.mp others)
      · intro matched
        cases matched with
        | cons found matched => simp [found, ih.mpr matched]

theorem mapM_congr {α β : Type} {f g : α → Option β} {items : List α}
    (same : ∀ item ∈ items, f item = g item) : items.mapM f = items.mapM g := by
  induction items with
  | nil => rfl
  | cons item items ih =>
      rw [List.mapM_cons, List.mapM_cons, same item (by simp),
        ih fun other member => same other (List.mem_cons_of_mem _ member)]

theorem mapM_total {α β : Type} {f : α → Option β} {items : List α}
    (found : ∀ item ∈ items, ∃ result, f item = some result) :
    ∃ results, items.mapM f = some results := by
  induction items with
  | nil => exact ⟨[], rfl⟩
  | cons item items ih =>
      obtain ⟨result, first⟩ := found item (by simp)
      obtain ⟨results, rest⟩ :=
        ih fun other member => found other (List.mem_cons_of_mem _ member)
      exact ⟨result :: results, by simp [List.mapM_cons, first, rest]⟩

theorem defined_of_mapM {α β : Type} {f : α → Option β} {items : List α}
    {results : List β} (collected : items.mapM f = some results) :
    ∀ item ∈ items, ∃ result, f item = some result := by
  have matched := mapM_eq_some.mp collected
  clear collected
  induction matched with
  | nil => exact nofun
  | cons found _ ih =>
      intro other listed
      rcases List.mem_cons.mp listed with rfl | listed
      · exact ⟨_, found⟩
      · exact ih other listed

theorem nodup_eraseDups {α : Type} [BEq α] [LawfulBEq α] :
    ∀ items : List α, items.eraseDups.Nodup
  | [] => by simp
  | item :: items => by
      rw [List.eraseDups_cons, List.nodup_cons]
      refine ⟨?_, nodup_eraseDups _⟩
      simp [List.mem_eraseDups]
  termination_by items => items.length
  decreasing_by
    exact Nat.lt_succ_of_le (List.length_filter_le _ _)

section Forward

variable (name : ν → κ) (inputs : ν → List κ)

/-- Every node reads names that are known by then and defines a new one. -/
def Ordered : List κ → List ν → Prop
  | _, [] => True
  | known, node :: rest =>
      (∀ input ∈ inputs node, input ∈ known) ∧ name node ∉ known ∧
        Ordered (known ++ [name node]) rest

instance Ordered.decidable [DecidableEq κ] : (known : List κ) → (nodes : List ν) →
    Decidable (Ordered name inputs known nodes)
  | _, [] => isTrue trivial
  | known, node :: rest =>
      have := Ordered.decidable (known ++ [name node]) rest
      inferInstanceAs (Decidable (_ ∧ _ ∧ _))

section Order

variable {name inputs} {known : List κ} {nodes front back : List ν}

theorem ordered_append :
    Ordered name inputs known (front ++ back) ↔
      Ordered name inputs known front ∧
        Ordered name inputs (known ++ front.map name) back := by
  induction front generalizing known with
  | nil => simp [Ordered]
  | cons node front ih =>
      simp only [List.cons_append, Ordered, ih, List.map_cons]
      rw [List.append_assoc, List.singleton_append]
      tauto

theorem ordered_map {μ : Type} {node : μ → ν} {labelled : List μ} :
    Ordered name inputs known (labelled.map node) ↔
      Ordered (fun label => name (node label))
        (fun label => inputs (node label)) known labelled := by
  induction labelled generalizing known with
  | nil => exact Iff.rfl
  | cons label labelled ih => simp only [List.map_cons, Ordered, ih]

theorem Ordered.names (ordered : Ordered name inputs known nodes) :
    (nodes.map name).Nodup ∧ ∀ node ∈ nodes, name node ∉ known := by
  induction nodes generalizing known with
  | nil => simp
  | cons node nodes ih =>
      obtain ⟨_, fresh, ordered⟩ := ordered
      obtain ⟨distinct, unknown⟩ := ih ordered
      refine ⟨?_, ?_⟩
      · rw [List.map_cons, List.nodup_cons]
        refine ⟨?_, distinct⟩
        intro repeated
        obtain ⟨other, member, same⟩ := List.mem_map.mp repeated
        apply unknown other member
        simp [same]
      · intro other member
        rcases List.mem_cons.mp member with rfl | member
        · exact fresh
        · intro defined
          exact unknown other member (List.mem_append_left _ defined)

theorem Ordered.reads (ordered : Ordered name inputs known nodes)
    {node : ν} (member : node ∈ nodes) {input : κ}
    (read : input ∈ inputs node) : input ∈ known ++ nodes.map name := by
  induction nodes generalizing known with
  | nil => cases member
  | cons first nodes ih =>
      obtain ⟨available, _, ordered⟩ := ordered
      rcases List.mem_cons.mp member with rfl | member
      · exact List.mem_append_left _ (available input read)
      · simpa using ih ordered member

theorem Ordered.rebase {base extra : List κ}
    (ordered : Ordered name inputs (known ++ extra) nodes)
    (reads : ∀ node ∈ nodes, ∀ input ∈ inputs node,
      input ∈ known → input ∈ base)
    (fresh : ∀ node ∈ nodes, name node ∉ base) :
    Ordered name inputs (base ++ extra) nodes := by
  induction nodes generalizing extra with
  | nil => trivial
  | cons node nodes ih =>
      obtain ⟨available, unknown, ordered⟩ := ordered
      rw [List.append_assoc] at ordered
      refine ⟨?_, ?_, ?_⟩
      · intro input read
        rcases List.mem_append.mp (available input read) with old | new
        · exact List.mem_append_left _ (reads node (by simp) input read old)
        · exact List.mem_append_right _ new
      · intro defined
        rcases List.mem_append.mp defined with old | new
        · exact fresh node (by simp) old
        · exact unknown (List.mem_append_right _ new)
      · rw [List.append_assoc]
        exact ih ordered
          (fun other member => reads other (List.mem_cons_of_mem _ member))
          (fun other member => fresh other (List.mem_cons_of_mem _ member))

end Order

variable [DecidableEq κ] (apply : ν → List V → V)

def eval : List ν → (κ → Option V) → Option (κ → Option V)
  | [], env => some env
  | node :: rest, env => do
      let arguments ← (inputs node).mapM env
      eval rest (Function.update env (name node) (some (apply node arguments)))

/-- An environment in which every node has the value of its function at the
values of its inputs. -/
def Solves (env : κ → Option V) (nodes : List ν) : Prop :=
  ∀ node ∈ nodes, ∃ arguments, (inputs node).mapM env = some arguments ∧
    env (name node) = some (apply node arguments)

variable {name inputs apply} {known : List κ} {nodes : List ν}
  {env final : κ → Option V}

theorem eval_frame (ran : eval name inputs apply nodes env = some final)
    {key : κ} (other : key ∉ nodes.map name) : final key = env key := by
  induction nodes generalizing env with
  | nil =>
      cases ran
      rfl
  | cons node nodes ih =>
      rw [List.map_cons, List.mem_cons, not_or] at other
      obtain ⟨arguments, _, ran⟩ := Option.bind_eq_some_iff.mp ran
      rw [ih ran other.2, Function.update_of_ne other.1]

/-- An ordered program runs wherever its inputs are known, and its result solves
it. -/
theorem eval_ordered (ordered : Ordered name inputs known nodes)
    (defined : ∀ key ∈ known, ∃ value, env key = some value) :
    ∃ final, eval name inputs apply nodes env = some final ∧
      Solves name inputs apply final nodes := by
  induction nodes generalizing known env with
  | nil => exact ⟨env, rfl, nofun⟩
  | cons node nodes ih =>
      obtain ⟨reads, fresh, ordered⟩ := ordered
      obtain ⟨arguments, collected⟩ := mapM_total fun input member =>
        defined input (reads input member)
      let next := Function.update env (name node) (some (apply node arguments))
      have definedNext : ∀ key ∈ known ++ [name node],
          ∃ value, next key = some value := by
        intro key member
        by_cases own : key = name node
        · exact ⟨_, by rw [own]; exact Function.update_self ..⟩
        · obtain ⟨value, found⟩ := defined key (by simpa [own] using member)
          exact ⟨value, by rw [← found]; exact Function.update_of_ne own ..⟩
      obtain ⟨final, ran, solves⟩ := ih ordered definedNext
      have kept : ∀ key ∈ known ++ [name node], final key = next key := by
        intro key member
        apply eval_frame ran
        intro redefined
        obtain ⟨other, listed, same⟩ := List.mem_map.mp redefined
        exact ordered.names.2 other listed (same ▸ member)
      refine ⟨final, ?_, ?_⟩
      · simp only [eval, collected, Option.bind_eq_bind, Option.bind_some]
        exact ran
      · intro other member
        rcases List.mem_cons.mp member with rfl | member
        · refine ⟨arguments, ?_, ?_⟩
          · rw [← collected]
            apply mapM_congr
            intro input read
            have before := reads input read
            rw [kept input (List.mem_append_left _ before)]
            apply Function.update_of_ne
            intro same
            exact fresh (same ▸ before)
          · rw [kept (name other) (by simp)]
            exact Function.update_self ..
        · exact solves other member

/-- A region whose inputs have the values of a solution computes that
solution. -/
theorem eval_agrees (ordered : Ordered name inputs known nodes)
    (solves : Solves name inputs apply final nodes)
    (agrees : ∀ key ∈ known, env key = final key) :
    ∃ result, eval name inputs apply nodes env = some result ∧
      ∀ key ∈ known ++ nodes.map name, result key = final key := by
  induction nodes generalizing known env with
  | nil => exact ⟨env, rfl, by simpa using agrees⟩
  | cons node nodes ih =>
      obtain ⟨reads, fresh, ordered⟩ := ordered
      obtain ⟨arguments, collected, value⟩ := solves node (by simp)
      have same : (inputs node).mapM env = some arguments := by
        rw [← collected]
        exact mapM_congr fun input read => agrees input (reads input read)
      have agreesNext : ∀ key ∈ known ++ [name node],
          Function.update env (name node) (some (apply node arguments)) key =
            final key := by
        intro key member
        by_cases own : key = name node
        · rw [own, Function.update_self, value]
        · rw [Function.update_of_ne own]
          exact agrees key (by simpa [own] using member)
      obtain ⟨result, ran, equal⟩ := ih ordered
        (fun other member => solves other (List.mem_cons_of_mem _ member))
        agreesNext
      refine ⟨result, ?_, ?_⟩
      · simp only [eval, same, Option.bind_eq_bind, Option.bind_some]
        exact ran
      · simpa using equal

end Forward

section Backward

variable {C : Type} [AddCommMonoid C] (name : ν → κ)
  (pull : ν → C →+ (κ → C))

def push (node : ν) : (κ → C) →+ (κ → C) :=
  AddMonoidHom.id _ +
    (pull node).comp (Pi.evalAddMonoidHom (fun _ => C) (name node))

def backprop : List ν → (κ → C) →+ (κ → C)
  | [] => AddMonoidHom.id _
  | node :: nodes => (push name pull node).comp (backprop nodes)

variable {name pull} {nodes : List ν}

@[simp] theorem backprop_nil (cotangents : κ → C) :
    backprop name pull [] cotangents = cotangents :=
  rfl

theorem backprop_cons (node : ν) (nodes : List ν) (cotangents : κ → C) :
    backprop name pull (node :: nodes) cotangents =
      backprop name pull nodes cotangents +
        pull node (backprop name pull nodes cotangents (name node)) :=
  rfl

theorem backprop_append (front back : List ν) (cotangents : κ → C) :
    backprop name pull (front ++ back) cotangents =
      backprop name pull front (backprop name pull back cotangents) := by
  induction front with
  | nil => rfl
  | cons node front ih =>
      rw [List.cons_append, backprop_cons, backprop_cons, ih]

theorem backprop_congr {other : ν → C →+ (κ → C)}
    (same : ∀ node ∈ nodes, pull node = other node) :
    backprop name pull nodes = backprop name other nodes := by
  induction nodes with
  | nil => rfl
  | cons node nodes ih =>
      have later := ih fun other member =>
        same other (List.mem_cons_of_mem _ member)
      simp only [backprop, push, later, same node (by simp)]

theorem backprop_of_zero {cotangents : κ → C}
    (zero : ∀ node ∈ nodes, cotangents (name node) = 0) :
    backprop name pull nodes cotangents = cotangents := by
  induction nodes with
  | nil => rfl
  | cons node nodes ih =>
      rw [backprop_cons, ih fun other member =>
        zero other (List.mem_cons_of_mem _ member), zero node (by simp),
        map_zero, add_zero]

/-- What no node reads gets no contribution, as far as `part` can tell. -/
theorem backprop_of_unread {M : Type} [AddCommMonoid M] (part : C →+ M)
    {cotangents : κ → C} {key : κ}
    (unread : ∀ node ∈ nodes, ∀ cotangent, part (pull node cotangent key) = 0) :
    part (backprop name pull nodes cotangents key) =
      part (cotangents key) := by
  induction nodes with
  | nil => rfl
  | cons node nodes ih =>
      rw [backprop_cons, Pi.add_apply, map_add, unread node (by simp),
        add_zero]
      exact ih fun other member =>
        unread other (List.mem_cons_of_mem _ member)

variable (inside : κ → Prop) [DecidablePred inside]

def within (cotangents : κ → C) : κ → C :=
  fun key => if inside key then cotangents key else 0

theorem backprop_within (covers : ∀ node ∈ nodes, inside (name node))
    (cotangents : κ → C) {key : κ} (outside : ¬ inside key) :
    backprop name pull nodes cotangents key =
      cotangents key +
        backprop name pull nodes (within inside cotangents) key := by
  have split : cotangents = within inside cotangents +
      within (fun key => ¬ inside key) cotangents := by
    funext other
    by_cases member : inside other <;> simp [within, member]
  have rest : backprop name pull nodes
      (within (fun key => ¬ inside key) cotangents) =
        within (fun key => ¬ inside key) cotangents := by
    apply backprop_of_zero
    intro node member
    simp [within, covers node member]
  have whole := congrArg (fun map => backprop name pull nodes map key) split
  simp only [map_add, rest, Pi.add_apply] at whole
  rw [whole, add_comm]
  simp [within, outside]

end Backward

end Dataflow
