import Mathlib.Algebra.Group.Equiv.TypeTags
import TrainPool.Torch.Backward

namespace TrainPool

open HandleStore GraphRuntime

/-! The grouped backward pass against reverse accumulation over the graph, with
`None` read as zero. -/

/-- What has cotangents: the leaves of the values of nodes, and parameters,
which have one leaf. -/
abbrev Cotangents (τ : Type) := NodeName ⊕ Nat → Nat → τ

namespace Target

def key : Target → NodeName ⊕ Nat
  | .argument name _ => .inl name
  | .parameter name => .inr name

def leaf : Target → Nat
  | .argument _ leaf => leaf
  | .parameter _ => 0

end Target

variable {τ γ σ : Type} [AddCommMonoid τ]

def Cotangents.spot (key : NodeName ⊕ Nat) (leaf : Nat) (value : τ) :
    Cotangents τ :=
  fun other index => if other = key ∧ index = leaf then value else 0

namespace Gradient

def leafCotangent : Leaf τ Empty → τ
  | .tensor value => value
  | .none => 0

def cotangent (grad : Gradient τ σ) (leaf : Nat) : τ :=
  ((grad.leaves[leaf]?).map leafCotangent).getD 0

end Gradient

def Value.floatingAt (floating : τ → Bool) (value : Value τ γ σ)
    (leaf : Nat) : Bool :=
  (value.leaves[leaf]?).any (requiresLeaf floating)

/-- The vector-Jacobian products of the nodes, each at the values it reads.  A
node contributes to what it reads, and there to leaves that have gradients. -/
structure Vjp (τ γ σ : Type) [AddCommMonoid τ] (floating : τ → Bool) where
  pull : FxNode → List (Value τ γ σ) → (Nat → τ) →+ Cotangents τ
  reads : ∀ node arguments cotangent name, name ∉ node.inputs →
    pull node arguments cotangent (.inl name) = 0
  floats : ∀ node arguments cotangent name value leaf,
    (name, value) ∈ node.inputs.zip arguments →
      Value.floatingAt floating value leaf = false →
        pull node arguments cotangent (.inl name) leaf = 0

namespace Vjp

variable {floating : τ → Bool} (vjp : Vjp τ γ σ floating)

/-- Reverse accumulation over nodes, whose values are those of `env`. -/
def backprop (env : NodeName → Option (Value τ γ σ)) (nodes : List FxNode) :
    Cotangents τ →+ Cotangents τ :=
  Dataflow.backprop (fun node => .inl node.name)
    (fun node => vjp.pull node (valuesOf env node.inputs)) nodes

end Vjp

/-- The places of the tensors among leaves that start at `start`. -/
def tensorLeaves (name : NodeName) : Nat → List (Leaf τ γ) →
    List (NodeName × Nat)
  | _, [] => []
  | start, .tensor _ :: rest =>
      (name, start) :: tensorLeaves name (start + 1) rest
  | start, .constant _ :: rest => tensorLeaves name (start + 1) rest
  | start, .none :: rest => tensorLeaves name (start + 1) rest

/-- The tensors of the output structure, in the order of their gradients. -/
def publicLeaves (final : NodeName → Option (Value τ γ σ)) :
    List (OutputLeaf γ) → List (NodeName × Nat)
  | [] => []
  | .constant _ :: rest => publicLeaves final rest
  | .node name :: rest =>
      ((valuesOf final [name]).flatMap fun value =>
        tensorLeaves name 0 value.leaves) ++ publicLeaves final rest

def Cotangents.total (entries : List ((NodeName × Nat) × τ)) : Cotangents τ :=
  (entries.map fun entry => spot (.inl entry.1.1) entry.1.2 entry.2).sum

def matched (places : List (NodeName × Nat)) (gradOutputs : List (Option τ)) :
    Cotangents τ :=
  Cotangents.total ((places.zip gradOutputs).map fun entry =>
    (entry.1, entry.2.getD 0))

/-- The cotangents of the output structure; a tensor that is returned several
times has the sum of its gradients. -/
def outputCotangents (final : NodeName → Option (Value τ γ σ))
    (output : Tree (OutputLeaf γ) σ) (gradOutputs : List (Option τ)) :
    Cotangents τ :=
  matched (publicLeaves final output.leaves) gradOutputs

/-- Differentiation by reverse accumulation over the nodes of a group. -/
def Vjp.autograd {floating : τ → Bool} (vjp : Vjp τ γ σ floating)
    (apply : FxNode → List (Value τ γ σ) → Value τ γ σ)
    (graph : FxGraph γ σ) (chunks : List (List FxNode)) :
    Autograd τ γ σ where
  isFloatingPoint := floating
  requiresGrad := fun _ _ _ _ _ _ => true
  grad := fun index _ arguments outputs target => do
    let chunk ← chunks[index]?
    let env ← Dataflow.eval FxNode.name FxNode.inputs apply chunk
      (bind (graph.makeGroup chunk).inputs arguments)
    some (vjp.backprop env chunk (Cotangents.total outputs) target.key
      target.leaf)
  add := (· + ·)

/-- What a group with these arguments and parameters is differentiated by. -/
def targetsOf (floating : τ → Bool) (group : Group)
    (arguments : List (Value τ γ σ)) (names : List Nat) : List Target :=
  argumentTargets floating (group.inputs.zip arguments) ++
    names.map Target.parameter

/-- PyTorch differentiates the groups by the products of their nodes: `grad` is
reverse accumulation over the group, and an output leaf that requires no
gradient has none to hand on. -/
structure Differentiates (apply : FxNode → List (Value τ γ σ) → Value τ γ σ)
    (autograd : Autograd τ γ σ) (vjp : Vjp τ γ σ autograd.isFloatingPoint)
    (graph : FxGraph γ σ) (chunks : List (List FxNode)) : Prop where
  add : ∀ left right, autograd.add left right = left + right
  grad : ∀ index chunk state arguments env names outputs target,
    chunks[index]? = some chunk →
    Dataflow.eval FxNode.name FxNode.inputs apply chunk
      (bind (graph.makeGroup chunk).inputs arguments) = some env →
    (∀ output ∈ outputs, output.1.1 ∈ (graph.makeGroup chunk).outputs ∧
      autograd.requiresGrad index state arguments
        (targetsOf autograd.isFloatingPoint (graph.makeGroup chunk) arguments
          names) output.1.1 output.1.2 = true) →
    target ∈ targetsOf autograd.isFloatingPoint (graph.makeGroup chunk)
      arguments names →
    (autograd.grad index state arguments outputs target).getD 0 =
      vjp.backprop env chunk (Cotangents.total outputs) target.key target.leaf
  requires : ∀ index chunk state arguments env names name leaf value target,
    chunks[index]? = some chunk →
    Dataflow.eval FxNode.name FxNode.inputs apply chunk
      (bind (graph.makeGroup chunk).inputs arguments) = some env →
    name ∈ (graph.makeGroup chunk).outputs →
    autograd.requiresGrad index state arguments
      (targetsOf autograd.isFloatingPoint (graph.makeGroup chunk) arguments
        names) name leaf = false →
    target ∈ targetsOf autograd.isFloatingPoint (graph.makeGroup chunk)
      arguments names →
    vjp.backprop env chunk (Cotangents.spot (.inl name) leaf value)
      target.key target.leaf = 0

theorem Vjp.differentiates {floating : τ → Bool} (vjp : Vjp τ γ σ floating)
    (apply : FxNode → List (Value τ γ σ) → Value τ γ σ)
    (graph : FxGraph γ σ) (chunks : List (List FxNode)) :
    Differentiates apply (vjp.autograd apply graph chunks) vjp graph
      chunks where
  add := fun _ _ => rfl
  grad := by
    intro index chunk state arguments env names outputs target found ran _ _
    simp [Vjp.autograd, found, ran]
  requires := by
    intro index chunk state arguments env names name leaf value target found
      ran output unasked
    cases unasked

namespace Cotangents

theorem total_append (first second : List ((NodeName × Nat) × τ)) :
    total (first ++ second) = total first + total second := by
  simp [total]

theorem total_cons (entry : (NodeName × Nat) × τ)
    (entries : List ((NodeName × Nat) × τ)) :
    total (entry :: entries) =
      spot (.inl entry.1.1) entry.1.2 entry.2 + total entries := by
  simp [total]

@[simp] theorem spot_zero (key : NodeName ⊕ Nat) (leaf : Nat) :
    spot key leaf (0 : τ) = 0 := by
  funext other index
  simp [spot]

@[simp] theorem total_nil : total ([] : List ((NodeName × Nat) × τ)) = 0 :=
  rfl

theorem total_filter {M : Type} [AddCommMonoid M] (map : Cotangents τ →+ M)
    (keep : (NodeName × Nat) × τ → Bool)
    {entries : List ((NodeName × Nat) × τ)}
    (zero : ∀ entry ∈ entries, keep entry = false →
      map (spot (.inl entry.1.1) entry.1.2 entry.2) = 0) :
    map (total (entries.filter keep)) = map (total entries) := by
  induction entries with
  | nil => rfl
  | cons entry entries ih =>
      have later := ih fun other member =>
        zero other (List.mem_cons_of_mem _ member)
      rw [total_cons, map_add, ← later]
      cases kept : keep entry with
      | true => rw [List.filter_cons_of_pos kept, total_cons, map_add]
      | false =>
          rw [List.filter_cons_of_neg (by simp [kept]),
            zero entry (by simp) kept, zero_add]

theorem total_apply_ne {entries : List ((NodeName × Nat) × τ)}
    {key : NodeName ⊕ Nat}
    (other : ∀ entry ∈ entries, key ≠ .inl entry.1.1) :
    total entries key = 0 := by
  induction entries with
  | nil => rfl
  | cons entry entries ih =>
      rw [total_cons, Pi.add_apply, ih fun entry member =>
        other entry (List.mem_cons_of_mem _ member), add_zero]
      funext leaf
      exact if_neg fun same => other entry (by simp) same.1

end Cotangents

/-- The leaves of a gradient are `None` where the value has no tensor. -/
def Typed (final : NodeName → Option (Value τ γ σ)) (name : NodeName)
    (grad : Gradient τ σ) : Prop :=
  ∃ value, final name = some value ∧
    List.Forall₂ (fun (gradient : Leaf τ Empty) (leaf : Leaf τ γ) =>
      gradient = .none ∨ Leaf.isTensor leaf = true) grad.leaves value.leaves

namespace Gradient

/-- The cotangents of leaves that start at `start`. -/
def leavesFrom (name : NodeName) (start : Nat) (grads : List (Leaf τ Empty)) :
    Cotangents τ :=
  fun key leaf => if key = .inl name ∧ start ≤ leaf then
    ((grads[leaf - start]?).map leafCotangent).getD 0 else 0

theorem leavesFrom_nil (name : NodeName) (start : Nat) :
    leavesFrom name start ([] : List (Leaf τ Empty)) = 0 := by
  funext key leaf
  simp [leavesFrom]

theorem leavesFrom_zero (name : NodeName) (grad : Gradient τ σ) :
    leavesFrom name 0 grad.leaves =
      fun key leaf => if key = .inl name then grad.cotangent leaf else 0 := by
  funext key leaf
  simp [leavesFrom, cotangent]

theorem leavesFrom_cons (name : NodeName) (start : Nat)
    (gradient : Leaf τ Empty) (grads : List (Leaf τ Empty)) :
    leavesFrom name start (gradient :: grads) =
      Cotangents.spot (.inl name) start (leafCotangent gradient) +
        leavesFrom name (start + 1) grads := by
  funext key leaf
  simp only [leavesFrom, Cotangents.spot, Pi.add_apply]
  by_cases own : key = .inl name
  · rcases Nat.lt_trichotomy leaf start with less | same | more
    · rw [if_neg (by omega), if_neg (by omega), if_neg (by omega), add_zero]
    · subst same
      have past : ¬ leaf + 1 ≤ leaf := by omega
      simp [own, past]
    · have shift : leaf - start = leaf - (start + 1) + 1 := by omega
      simp [own, Nat.le_of_lt more, Nat.succ_le_of_lt more, shift,
        Nat.ne_of_gt more]
  · simp [own]

theorem cotangent_sum {add : τ → τ → τ}
    (addition : ∀ left right, add left right = left + right)
    {left right : Gradient τ σ}
    (lengths : left.leaves.length = right.leaves.length) (leaf : Nat) :
    (Gradient.sum add left right).cotangent leaf =
      left.cotangent leaf + right.cotangent leaf := by
  simp only [cotangent, Gradient.sum, List.getElem?_zipWith]
  cases first : left.leaves[leaf]? with
  | none =>
      have beyond := List.getElem?_eq_none_iff.mp first
      rw [lengths] at beyond
      simp [List.getElem?_eq_none beyond]
  | some one =>
      obtain ⟨inside, _⟩ := List.getElem?_eq_some_iff.mp first
      rw [lengths] at inside
      rw [List.getElem?_eq_getElem inside]
      generalize right.leaves[leaf] = other
      cases one with
      | none => cases other <;> simp [addLeaf, leafCotangent]
      | constant impossible => exact impossible.elim
      | tensor value =>
          cases other with
          | none => simp [addLeaf, leafCotangent]
          | constant impossible => exact impossible.elim
          | tensor other => simp [addLeaf, leafCotangent, addition]

omit [AddCommMonoid τ] in
theorem typed_sum {add : τ → τ → τ}
    {final : NodeName → Option (Value τ γ σ)} {name : NodeName}
    {left right : Gradient τ σ} (first : Typed final name left)
    (second : Typed final name right) :
    Typed final name (Gradient.sum add left right) := by
  obtain ⟨value, found, leaves⟩ := first
  obtain ⟨_, same, others⟩ := second
  rw [found] at same
  cases same
  refine ⟨value, found, ?_⟩
  simp only [Gradient.sum]
  generalize value.leaves = values at leaves others
  generalize left.leaves = lefts at leaves
  generalize right.leaves = rights at others
  induction leaves generalizing rights with
  | nil => cases others; exact .nil
  | @cons one leaf lefts values typed _ ih =>
      cases others with
      | @cons two _ rights _ other rest =>
          refine .cons ?_ (ih _ rest)
          rcases typed with rfl | tensor
          · exact other.imp_left fun none => by simp [none, addLeaf]
          · exact .inr tensor

end Gradient

namespace Pending

def cotangent (pending : Pending τ σ) (name : NodeName) (leaf : Nat) : τ :=
  ((pending name).map fun grad => grad.cotangent leaf).getD 0

def AllTyped (final : NodeName → Option (Value τ γ σ))
    (pending : Pending τ σ) : Prop :=
  ∀ name grad, pending name = some grad → Typed final name grad

variable {final : NodeName → Option (Value τ γ σ)} {pending : Pending τ σ}
  {add : τ → τ → τ}

omit [AddCommMonoid τ] in
theorem AllTyped.accumulate (typed : pending.AllTyped final)
    {entry : NodeName × Gradient τ σ} (new : Typed final entry.1 entry.2) :
    (pending.accumulate add entry).AllTyped final := by
  intro name grad waiting
  by_cases same : name = entry.1
  · subst same
    rw [Pending.accumulate, Function.update_self] at waiting
    cases old : pending entry.1 with
    | none =>
        simp only [old] at waiting
        cases waiting
        exact new
    | some before =>
        simp only [old] at waiting
        cases waiting
        exact Gradient.typed_sum (typed _ _ old) new
  · rw [Pending.accumulate, Function.update_of_ne same] at waiting
    exact typed name grad waiting

theorem cotangent_accumulate
    (addition : ∀ left right, add left right = left + right)
    (typed : pending.AllTyped final) {entry : NodeName × Gradient τ σ}
    (new : Typed final entry.1 entry.2) (name : NodeName) (leaf : Nat) :
    (pending.accumulate add entry).cotangent name leaf =
      pending.cotangent name leaf +
        if entry.1 = name then entry.2.cotangent leaf else 0 := by
  by_cases same : entry.1 = name
  · subst same
    rw [if_pos rfl]
    unfold cotangent
    rw [Pending.accumulate, Function.update_self]
    cases old : pending entry.1 with
    | none => simp
    | some before =>
        obtain ⟨value, found, leaves⟩ := typed _ _ old
        obtain ⟨_, again, others⟩ := new
        rw [found] at again
        cases again
        simp only [Option.map_some, Option.getD_some]
        exact Gradient.cotangent_sum addition
          (leaves.length_eq.trans others.length_eq.symm) leaf
  · rw [if_neg same, add_zero]
    unfold cotangent
    rw [Pending.accumulate, Function.update_of_ne (Ne.symm same)]

theorem cotangent_foldl
    (addition : ∀ left right, add left right = left + right)
    {entries : List (NodeName × Gradient τ σ)}
    (typed : pending.AllTyped final)
    (new : ∀ entry ∈ entries, Typed final entry.1 entry.2) :
    (entries.foldl (Pending.accumulate add) pending).AllTyped final ∧
      ∀ name leaf,
        (entries.foldl (Pending.accumulate add) pending).cotangent name leaf =
          pending.cotangent name leaf +
            (entries.map fun entry =>
              if entry.1 = name then entry.2.cotangent leaf else 0).sum := by
  induction entries generalizing pending with
  | nil => exact ⟨typed, by simp⟩
  | cons entry entries ih =>
      have first := new entry (by simp)
      obtain ⟨after, sums⟩ := ih (typed.accumulate first)
        fun other member => new other (List.mem_cons_of_mem _ member)
      refine ⟨after, ?_⟩
      intro name leaf
      rw [List.foldl_cons, sums, cotangent_accumulate addition typed first,
        List.map_cons, List.sum_cons, add_assoc]

omit [AddCommMonoid τ] in
theorem upstreamLeaf_eq (requires : NodeName → Nat → Bool) (name : NodeName)
    (leaf : Leaf τ γ) (gradient : Leaf τ Empty) (index : Nat) :
    upstreamLeaf requires name ((leaf, gradient), index) =
      match gradient with
      | .tensor gradient =>
          if Leaf.isTensor leaf && requires name index then
            some ((name, index), gradient) else none
      | .none => none := by
  cases gradient with
  | constant impossible => exact impossible.elim
  | none => cases leaf <;> rfl
  | tensor gradient =>
      cases leaf with
      | tensor value => simp [upstreamLeaf, Leaf.isTensor]
      | constant value => rfl
      | none => rfl

theorem total_upstream {name : NodeName} {value : Value τ γ σ}
    {grad : Gradient τ σ}
    (typed : List.Forall₂ (fun (gradient : Leaf τ Empty) (leaf : Leaf τ γ) =>
      gradient = .none ∨ Leaf.isTensor leaf = true) grad.leaves value.leaves) :
    Cotangents.total (upstream (fun _ _ => true) name value grad) =
      fun key leaf => if key = .inl name then grad.cotangent leaf else 0 := by
  have shifted : ∀ start, Cotangents.total
      (((value.leaves.zip grad.leaves).zipIdx start).filterMap
        (upstreamLeaf (fun _ _ => true) name)) =
      Gradient.leavesFrom name start grad.leaves := by
    generalize value.leaves = values at typed
    generalize grad.leaves = grads at typed
    induction typed with
    | nil =>
        intro start
        exact (Gradient.leavesFrom_nil name start).symm
    | @cons gradient leaf grads values first _ ih =>
        intro start
        rw [List.zip_cons_cons, List.zipIdx_cons, List.filterMap_cons,
          upstreamLeaf_eq, Gradient.leavesFrom_cons, ← ih (start + 1)]
        cases gradient with
        | none => rw [Gradient.leafCotangent, Cotangents.spot_zero, zero_add]
        | tensor gradient =>
            have tensor : Leaf.isTensor leaf = true := by
              rcases first with impossible | tensor
              · cases impossible
              · exact tensor
            simp only [tensor, Bool.and_self, if_true]
            rw [Cotangents.total_cons]
            rfl
        | constant impossible => exact impossible.elim
  rw [← Gradient.leavesFrom_zero]
  exact shifted 0

omit [AddCommMonoid τ] in
theorem outputs_filter (requires : NodeName → Nat → Bool)
    (entries : List (NodeName × Value τ γ σ)) :
    pending.outputs requires entries =
      (pending.outputs (fun _ _ => true) entries).filter fun entry =>
        requires entry.1.1 entry.1.2 := by
  unfold Pending.outputs
  rw [List.filter_flatMap]
  refine List.flatMap_congr ?_
  intro entry _
  cases pending entry.1 with
  | none => rfl
  | some grad =>
      simp only [upstream, List.filter_filterMap]
      congr 1
      funext leaf
      obtain ⟨⟨value, gradient⟩, index⟩ := leaf
      rw [upstreamLeaf_eq, upstreamLeaf_eq]
      cases gradient with
      | constant impossible => exact impossible.elim
      | none => rfl
      | tensor gradient =>
          cases Leaf.isTensor value <;> cases asked : requires entry.1 index <;>
            simp [asked, Option.filter]

omit [AddCommMonoid τ] in
theorem outputs_eq_nil {requires : NodeName → Nat → Bool}
    {entries : List (NodeName × Value τ γ σ)}
    (silent : ∀ entry ∈ entries, pending entry.1 = none) :
    pending.outputs requires entries = [] := by
  rw [Pending.outputs, List.flatMap_eq_nil_iff]
  intro entry member
  rw [silent entry member]

omit [AddCommMonoid τ] in
theorem mem_outputs {requires : NodeName → Nat → Bool}
    {entries : List (NodeName × Value τ γ σ)} {output : (NodeName × Nat) × τ}
    (member : output ∈ pending.outputs requires entries) :
    output.1.1 ∈ entries.map Prod.fst := by
  obtain ⟨entry, listed, inside⟩ := List.mem_flatMap.mp member
  refine List.mem_map.mpr ⟨entry, listed, ?_⟩
  cases waiting : pending entry.1 with
  | none => simp [waiting] at inside
  | some grad =>
      simp only [waiting] at inside
      obtain ⟨⟨⟨value, gradient⟩, index⟩, _, same⟩ :=
        List.mem_filterMap.mp inside
      rw [upstreamLeaf_eq] at same
      cases gradient with
      | constant impossible => exact impossible.elim
      | none => cases same
      | tensor gradient =>
          dsimp only at same
          split at same
          · cases same
            rfl
          · cases same

theorem total_outputs (typed : pending.AllTyped final)
    {entries : List (NodeName × Value τ γ σ)}
    (distinct : (entries.map Prod.fst).Nodup)
    (values : ∀ entry ∈ entries, final entry.1 = some entry.2)
    {name : NodeName} (listed : name ∈ entries.map Prod.fst) :
    Cotangents.total (pending.outputs (fun _ _ => true) entries) (.inl name) =
      pending.cotangent name := by
  induction entries with
  | nil => cases listed
  | cons entry entries ih =>
      rw [List.map_cons, List.nodup_cons] at distinct
      have unfolded : pending.outputs (fun _ _ => true) (entry :: entries) =
          pending.outputs (fun _ _ => true) [entry] ++
            pending.outputs (fun _ _ => true) entries := by
        simp [outputs]
      have first : Cotangents.total
          (pending.outputs (fun _ _ => true) [entry]) =
            fun key leaf => if key = .inl entry.1 then
              pending.cotangent entry.1 leaf else 0 := by
        unfold cotangent
        cases waiting : pending entry.1 with
        | none =>
            funext key leaf
            simp [outputs, waiting]
        | some grad =>
            obtain ⟨value, found, leaves⟩ := typed _ _ waiting
            rw [values entry (by simp)] at found
            cases found
            simp [outputs, waiting, total_upstream leaves]
      rw [unfolded, Cotangents.total_append, Pi.add_apply, first]
      rcases List.mem_cons.mp listed with rfl | later
      · rw [Cotangents.total_apply_ne, add_zero]
        · simp
        · intro output member same
          obtain same := Sum.inl.inj same
          exact distinct.1 (same ▸ mem_outputs member)
      · rw [ih distinct.2 (fun other member =>
          values other (List.mem_cons_of_mem _ member)) later]
        funext leaf
        have other : name ≠ entry.1 := by
          intro same
          exact distinct.1 (same ▸ later)
        simp [other]

end Pending

namespace Sweep

variable {final : NodeName → Option (Value τ γ σ)}

theorem matched_cons (place : NodeName × Nat) (places : List (NodeName × Nat))
    (grad : Option τ) (gradOutputs : List (Option τ)) :
    matched (place :: places) (grad :: gradOutputs) =
      Cotangents.spot (.inl place.1) place.2 (grad.getD 0) +
        matched places gradOutputs := by
  rw [matched, List.zip_cons_cons, List.map_cons, Cotangents.total_cons,
    matched]

theorem takeGradients_spec {name : NodeName} {leaves : List (Leaf τ γ)}
    {gradOutputs left : List (Option τ)} {taken : List (Leaf τ Empty)}
    (took : takeGradients leaves gradOutputs = some (taken, left))
    (start : Nat) (others : List (NodeName × Nat)) :
    List.Forall₂ (fun (gradient : Leaf τ Empty) (leaf : Leaf τ γ) =>
        gradient = .none ∨ Leaf.isTensor leaf = true) taken leaves ∧
      matched (tensorLeaves name start leaves ++ others) gradOutputs =
        Gradient.leavesFrom name start taken + matched others left := by
  induction leaves generalizing gradOutputs taken start with
  | nil =>
      cases took
      rw [Gradient.leavesFrom_nil, zero_add]
      exact ⟨.nil, rfl⟩
  | cons leaf leaves ih =>
      rcases leaf with value | value | _
      case tensor =>
        cases gradOutputs with
        | nil => cases took
        | cons grad gradOutputs =>
            simp only [takeGradients, Option.bind_eq_bind,
              Option.bind_eq_some_iff] at took
            obtain ⟨⟨rest, _⟩, took, same⟩ := took
            cases same
            obtain ⟨typed, totals⟩ := ih took (start + 1)
            refine ⟨.cons (.inr rfl) typed, ?_⟩
            rw [tensorLeaves, List.cons_append, matched_cons, totals,
              Gradient.leavesFrom_cons, add_assoc]
            cases grad <;> rfl
      all_goals
        simp only [takeGradients, Option.bind_eq_bind,
          Option.bind_eq_some_iff] at took
        obtain ⟨⟨rest, _⟩, took, same⟩ := took
        cases same
        obtain ⟨typed, totals⟩ := ih took (start + 1)
        refine ⟨.cons (.inl rfl) typed, ?_⟩
        rw [Gradient.leavesFrom_cons, Gradient.leafCotangent,
          Cotangents.spot_zero, zero_add, ← totals, tensorLeaves]

theorem seeds_spec {leaves : List (OutputLeaf γ)}
    {results : List (ResultLeaf τ γ σ)} {spec : σ}
    (read : leaves.mapM (resultLeaf final) = some results)
    {gradOutputs : List (Option τ)}
    (enough : outputLeaves ⟨results, spec⟩ ≤ gradOutputs.length) :
    (∀ entry ∈ seeds final leaves gradOutputs,
        Typed final entry.1 entry.2 ∧ .node entry.1 ∈ leaves) ∧
      ∀ name leaf,
        ((seeds final leaves gradOutputs).map fun entry =>
          if entry.1 = name then entry.2.cotangent leaf else 0).sum =
        matched (publicLeaves final leaves) gradOutputs (.inl name) leaf := by
  have related := Dataflow.mapM_eq_some.mp read
  clear read
  induction related generalizing gradOutputs with
  | nil => exact ⟨nofun, fun _ _ => rfl⟩
  | @cons leaf result leaves results same _ ih =>
      cases leaf with
      | constant value =>
          cases same
          obtain ⟨typed, sums⟩ := ih (by simpa [outputLeaves] using enough)
          refine ⟨?_, sums⟩
          intro entry member
          exact ⟨(typed entry member).1,
            List.mem_cons_of_mem _ (typed entry member).2⟩
      | node name =>
          obtain ⟨value, found, rfl⟩ := Option.map_eq_some_iff.mp same
          simp only [outputLeaves, List.map_cons, List.sum_cons] at enough
          obtain ⟨taken, took, width⟩ := takeGradients_total value.leaves
            (Nat.le_of_add_right_le enough)
          have left : outputLeaves ⟨results, spec⟩ ≤ (gradOutputs.drop
              (value.leaves.countP Leaf.isTensor)).length := by
            rw [List.length_drop]
            simp only [outputLeaves]
            omega
          obtain ⟨typed, sums⟩ := ih left
          have first := @takeGradients_spec _ _ _ name _ _ _ _ took 0
            (publicLeaves final leaves)
          have seeded : seeds final (.node name :: leaves) gradOutputs =
              (name, ⟨taken, value.spec⟩) :: seeds final leaves
                (gradOutputs.drop (value.leaves.countP Leaf.isTensor)) := by
            simp [seeds, found, took]
          have places : publicLeaves final (.node name :: leaves) =
              tensorLeaves name 0 value.leaves ++
                publicLeaves final leaves := by
            simp [publicLeaves, valuesOf, found]
          rw [seeded, places, first.2]
          refine ⟨?_, ?_⟩
          · intro entry member
            rcases List.mem_cons.mp member with rfl | member
            · exact ⟨⟨value, found, first.1⟩, by simp⟩
            · exact ⟨(typed entry member).1,
                List.mem_cons_of_mem _ (typed entry member).2⟩
          · intro other leaf
            rw [List.map_cons, List.sum_cons, sums, Pi.add_apply,
              Pi.add_apply]
            refine congrArg (· + _) ?_
            have own := Gradient.leavesFrom_zero name
              (⟨taken, value.spec⟩ : Gradient τ σ)
            rw [own]
            simp [eq_comm]

end Sweep

/-! One group after another, from the last. -/

section Groups

variable {apply : FxNode → List (Value τ γ σ) → Value τ γ σ}
  {autograd : Autograd τ γ σ} {vjp : Vjp τ γ σ autograd.isFloatingPoint}
  {graph : FxGraph γ σ} {chunks front back : List (List FxNode)}
  {chunk : List FxNode} {final : NodeName → Option (Value τ γ σ)}
  {states : Nat → ModuleState τ} {stages : List ModuleStage}
  {seeds : Cotangents τ} {sweep : Sweep τ σ}

def parameterCotangent (parameters : List ((Nat × Nat) × Option τ))
    (index name : Nat) : τ :=
  ((parameters.lookup (index, name)).join).getD 0

/-- What the backward pass has accumulated when the chunks `back` are done: the
cotangents of the names that are left, and those of the parameters of the groups
that are done. -/
structure Tracks (vjp : Vjp τ γ σ autograd.isFloatingPoint)
    (graph : FxGraph γ σ) (final : NodeName → Option (Value τ γ σ))
    (stages : List ModuleStage) (seeds : Cotangents τ)
    (front back : List (List FxNode)) (sweep : Sweep τ σ) : Prop where
  typed : sweep.pending.AllTyped final
  waits : ∀ name grad, sweep.pending name = some grad →
    name ∈ graph.placeholders ++ graph.outputsOf front
  equal : ∀ name, name ∉ back.flatten.map FxNode.name →
    sweep.pending.cotangent name =
      vjp.backprop final back.flatten seeds (.inl name)
  later : ∀ entry ∈ sweep.parameters, front.length ≤ entry.1.1
  parameters : ∀ index stage, front.length ≤ index →
    stages[index]? = some stage → ∀ name ∈ trainableNames stage,
      parameterCotangent sweep.parameters index name =
        vjp.backprop final back.flatten seeds (.inr name) 0

def definedIn (chunk : List FxNode) : NodeName ⊕ Nat → Prop
  | .inl name => name ∈ chunk.map FxNode.name
  | .inr _ => False

instance (chunk : List FxNode) : DecidablePred (definedIn chunk)
  | .inl name => inferInstanceAs (Decidable (name ∈ chunk.map FxNode.name))
  | .inr _ => inferInstanceAs (Decidable False)

theorem definedIn_iff {name : NodeName} :
    definedIn chunk (.inl name) ↔ name ∈ chunk.map FxNode.name :=
  Iff.rfl

theorem chunk_apart (chunking : graph.Chunking chunks)
    (split : chunks = front ++ chunk :: back) {name : NodeName}
    (defined : name ∈ chunk.map FxNode.name) :
    name ∉ graph.placeholders ++ graph.outputsOf front ∧
      name ∉ back.flatten.map FxNode.name := by
  have distinct := graph.known_nodup
  rw [← chunking, split, List.flatten_append, List.flatten_cons,
    List.map_append, List.map_append, ← List.append_assoc] at distinct
  obtain ⟨_, rest, apart⟩ := List.nodup_append.mp distinct
  obtain ⟨_, _, later⟩ := List.nodup_append.mp rest
  refine ⟨?_, fun listed => later name defined name listed rfl⟩
  intro listed
  refine apart name ?_ name (List.mem_append_left _ defined) rfl
  rcases List.mem_append.mp listed with placed | before
  · exact List.mem_append_left _ placed
  · exact List.mem_append_right _
      ((FxGraph.outputsOf_sublist front).subset before)

/-- A group recomputes the values of the forward pass, so its products are
those of the graph. -/
theorem group_env
    (chunking : graph.Chunking chunks)
    (split : chunks = front ++ chunk :: back)
    (solves : Dataflow.Solves FxNode.name FxNode.inputs apply final chunk)
    {arguments : List (Value τ γ σ)}
    (given : (graph.makeGroup chunk).inputs.mapM final = some arguments) :
    ∃ env, Dataflow.eval FxNode.name FxNode.inputs apply chunk
        (bind (graph.makeGroup chunk).inputs arguments) = some env ∧
      vjp.backprop env chunk = vjp.backprop final chunk := by
  have ordered := FxGraph.group_ordered chunking split
  obtain ⟨env, ran, agrees⟩ := Dataflow.eval_agrees ordered solves
    (fun name listed => bind_eq given listed)
  refine ⟨env, ran, ?_⟩
  apply Dataflow.backprop_congr
  intro node member
  have same : node.inputs.mapM env = node.inputs.mapM final :=
    Dataflow.mapM_congr fun input read =>
      agrees input (ordered.reads member read)
  simp only [valuesOf, same]

theorem Tracks.outputs (chunking : graph.Chunking chunks)
    (split : chunks = front ++ chunk :: back)
    (tracks : Tracks vjp graph final stages seeds (front ++ [chunk]) back
      sweep)
    {results : List (Value τ γ σ)}
    (produced : (graph.makeGroup chunk).outputs.mapM final = some results) :
    Cotangents.total (sweep.pending.outputs (fun _ _ => true)
        ((graph.makeGroup chunk).outputs.zip results)) =
      Dataflow.within (definedIn chunk)
        (vjp.backprop final back.flatten seeds) := by
  obtain ⟨names, values⟩ := zip_spec produced
  have distinct := (outputs_apart chunking split).1
  rw [← names] at distinct
  funext key
  rcases key with name | parameter
  · by_cases output : name ∈ (graph.makeGroup chunk).outputs
    · have defined := (FxGraph.mem_outputs.mp output).1
      rw [Pending.total_outputs tracks.typed distinct values
        (by rwa [names]), tracks.equal name
          (chunk_apart chunking split defined).2]
      simp [Dataflow.within, definedIn_iff, defined]
    · rw [Cotangents.total_apply_ne]
      · by_cases defined : name ∈ chunk.map FxNode.name
        · obtain ⟨before, after⟩ := chunk_apart chunking split defined
          have missing : sweep.pending name = none := by
            rw [Option.eq_none_iff_forall_not_mem]
            intro grad waiting
            have listed := tracks.waits name grad waiting
            rw [FxGraph.outputsOf, List.flatMap_append, ← List.append_assoc]
              at listed
            rcases List.mem_append.mp listed with early | own
            · exact before early
            · exact output (by simpa using own)
          have zero := tracks.equal name after
          rw [Dataflow.within, if_pos (definedIn_iff.mpr defined), ← zero]
          funext leaf
          simp [Pending.cotangent, missing]
        · rw [Dataflow.within, if_neg (definedIn_iff.not.mpr defined)]
      · intro entry member same
        obtain same := Sum.inl.inj same
        have listed := Pending.mem_outputs member
        rw [names, ← same] at listed
        exact output listed
  · rw [Cotangents.total_apply_ne (by simp)]
    simp [Dataflow.within, definedIn]

/-- What PyTorch yields for a group is what the cotangents of its names hand
on. -/
theorem Tracks.derivative (chunking : graph.Chunking chunks)
    (split : chunks = front ++ chunk :: back)
    (solves : Dataflow.Solves FxNode.name FxNode.inputs apply final chunk)
    (differentiates : Differentiates apply autograd vjp graph chunks)
    {arguments results : List (Value τ γ σ)}
    (given : (graph.makeGroup chunk).inputs.mapM final = some arguments)
    (produced : (graph.makeGroup chunk).outputs.mapM final = some results)
    (tracks : Tracks vjp graph final stages seeds (front ++ [chunk]) back
      sweep)
    (stage : ModuleStage) {target : Target}
    (member : target ∈ targetsOf autograd.isFloatingPoint
      (graph.makeGroup chunk) arguments (trainableNames stage)) :
    (Sweep.derivative autograd final states front.length
        (graph.makeGroup chunk) stage sweep.pending target).getD 0 =
      vjp.backprop final chunk (Dataflow.within (definedIn chunk)
        (vjp.backprop final back.flatten seeds)) target.key target.leaf := by
  obtain ⟨env, ran, same⟩ :=
    @group_env _ _ _ _ _ _ vjp _ _ _ _ _ _ chunking split solves _ given
  have found : chunks[front.length]? = some chunk := by simp [split]
  let targets := targetsOf autograd.isFloatingPoint (graph.makeGroup chunk)
    arguments (trainableNames stage)
  let requires := autograd.requiresGrad front.length (states front.length)
    arguments targets
  let entries := (graph.makeGroup chunk).outputs.zip results
  let handed : Cotangents τ →+ τ :=
    ((Pi.evalAddMonoidHom (fun _ => τ) target.leaf).comp
      (Pi.evalAddMonoidHom (fun _ => Nat → τ) target.key)).comp
        (vjp.backprop final chunk)
  -- Outputs that require no gradient have nothing to hand on.
  have asked : handed (Cotangents.total
      (sweep.pending.outputs requires entries)) =
        handed (Dataflow.within (definedIn chunk)
          (vjp.backprop final back.flatten seeds)) := by
    rw [Pending.outputs_filter, Cotangents.total_filter]
    · rw [tracks.outputs chunking split produced]
    · intro entry listed unasked
      have output := Pending.mem_outputs listed
      rw [(zip_spec produced).1] at output
      have zero := differentiates.requires front.length chunk _ arguments env
        (trainableNames stage) _ _ entry.2 target found ran output unasked
        member
      rw [same] at zero
      exact zero
  have unfolded : Sweep.derivative autograd final states front.length
      (graph.makeGroup chunk) stage sweep.pending =
        derivatives autograd front.length (states front.length) arguments
          targets (sweep.pending.outputs requires entries) := by
    simp only [Sweep.derivative, Sweep.targets, Sweep.arguments,
      valuesOf_eq given, valuesOf_eq produced]
    rfl
  rw [unfolded]
  refine Eq.trans ?_ asked
  unfold derivatives
  split
  · rename_i nothing
    rcases Bool.or_eq_true _ _ ▸ nothing with silent | none
    · rw [List.isEmpty_iff.mp silent, Cotangents.total_nil, map_zero]
      rfl
    · have empty : targets = [] := List.isEmpty_iff.mp none
      rw [show targetsOf _ _ _ _ = targets from rfl, empty] at member
      cases member
  · have listed : ∀ output ∈ sweep.pending.outputs requires entries,
        output.1.1 ∈ (graph.makeGroup chunk).outputs ∧
          requires output.1.1 output.1.2 = true := by
      intro output inside
      have name := Pending.mem_outputs inside
      rw [(zip_spec produced).1] at name
      rw [Pending.outputs_filter] at inside
      exact ⟨name, (List.mem_filter.mp inside).2⟩
    rw [differentiates.grad front.length chunk _ arguments env
      (trainableNames stage) _ target found ran listed member, same]
    rfl

theorem sum_if_mem {β : Type} {entries : List (NodeName × β)}
    (distinct : (entries.map Prod.fst).Nodup) {name : NodeName} {value : β}
    (member : (name, value) ∈ entries) (weigh : β → τ) :
    (entries.map fun entry =>
      if entry.1 = name then weigh entry.2 else 0).sum = weigh value := by
  induction entries with
  | nil => cases member
  | cons entry entries ih =>
      rw [List.map_cons, List.nodup_cons] at distinct
      rw [List.map_cons, List.sum_cons]
      rcases List.mem_cons.mp member with rfl | later
      · have others : (entries.map fun entry =>
            if entry.1 = name then weigh entry.2 else 0).sum = 0 := by
          apply List.sum_eq_zero
          intro term listed
          obtain ⟨entry, inside, rfl⟩ := List.mem_map.mp listed
          refine if_neg fun same => distinct.1 ?_
          exact List.mem_map.mpr ⟨entry, inside, same⟩
        rw [if_pos rfl, others, add_zero]
      · rw [ih distinct.2 later, if_neg, zero_add]
        intro same
        exact distinct.1 (same ▸ List.mem_map_of_mem later)

theorem cotangent_inputGradient (floating : τ → Bool)
    (derivative : Target → Option τ) (argument : NodeName × Value τ γ σ)
    (leaf : Nat) :
    (inputGradient floating derivative argument).2.cotangent leaf =
      if Value.floatingAt floating argument.2 leaf then
        (derivative (.argument argument.1 leaf)).getD 0 else 0 := by
  simp only [Gradient.cotangent, inputGradient, List.getElem?_map,
    List.getElem?_zipIdx, Option.map_map]
  by_cases inside : leaf < argument.2.leaves.length
  · have found : Value.floatingAt floating argument.2 leaf =
        requiresLeaf floating argument.2.leaves[leaf] := by
      simp [Value.floatingAt, List.getElem?_eq_getElem inside]
    rw [found, List.getElem?_eq_getElem inside]
    simp only [Option.map_some, Function.comp_apply, Option.getD_some,
      Nat.zero_add]
    cases requiresLeaf floating argument.2.leaves[leaf] with
    | false => rfl
    | true =>
        simp only [if_true]
        cases derivative (.argument argument.1 leaf) <;> rfl
  · have absent := List.getElem?_eq_none (Nat.le_of_not_lt inside)
    have found : Value.floatingAt floating argument.2 leaf = false := by
      simp [Value.floatingAt, absent]
    rw [found, absent]
    rfl

omit [AddCommMonoid τ] in
theorem typed_inputGradient (floating : τ → Bool)
    (derivative : Target → Option τ) {argument : NodeName × Value τ γ σ}
    (value : final argument.1 = some argument.2) :
    Typed final (inputGradient floating derivative argument).1
      (inputGradient floating derivative argument).2 := by
  refine ⟨argument.2, value, ?_⟩
  rw [List.forall₂_iff_get]
  refine ⟨by simp [inputGradient], ?_⟩
  intro index first second
  simp only [inputGradient, List.get_eq_getElem, List.getElem_map,
    List.getElem_zipIdx]
  cases leaf : argument.2.leaves[index] with
  | tensor tensor => exact .inr rfl
  | constant object => exact .inl rfl
  | none => exact .inl rfl

theorem sum_contributions {group : Group} {arguments : List (Value τ γ σ)}
    (given : group.inputs.mapM final = some arguments) (index : Nat)
    (stage : ModuleStage) (pending : Pending τ σ) (name : NodeName)
    (leaf : Nat) :
    ((Sweep.contributions autograd final states index group stage
        pending).map fun entry =>
      if entry.1 = name then entry.2.cotangent leaf else 0).sum =
      ((group.inputs.zip arguments).map fun argument =>
        if argument.1 = name then
          if Value.floatingAt autograd.isFloatingPoint argument.2 leaf then
            (Sweep.derivative autograd final states index group stage pending
              (.argument name leaf)).getD 0 else 0
        else 0).sum := by
  rw [Sweep.contributions, Sweep.arguments, valuesOf_eq given, List.map_map]
  refine congrArg List.sum (List.map_congr_left ?_)
  intro argument _
  simp only [Function.comp_apply, cotangent_inputGradient]
  by_cases same : argument.1 = name
  · subst same
    rfl
  · rw [if_neg same]
    exact if_neg same

theorem pull_of_not_floating
    (solves : Dataflow.Solves FxNode.name FxNode.inputs apply final chunk)
    {node : FxNode} (inside : node ∈ chunk) {name : NodeName}
    {value : Value τ γ σ} (known : final name = some value) {leaf : Nat}
    (floats : Value.floatingAt autograd.isFloatingPoint value leaf = false)
    (cotangent : Nat → τ) :
    vjp.pull node (valuesOf final node.inputs) cotangent (.inl name) leaf =
      0 := by
  by_cases used : name ∈ node.inputs
  · obtain ⟨arguments, collected, _⟩ := solves node inside
    obtain ⟨places, values⟩ := zip_spec collected
    rw [← places] at used
    obtain ⟨⟨first, other⟩, pair, same⟩ := List.mem_map.mp used
    change first = name at same
    subst first
    have equal : other = value :=
      Option.some.inj ((values _ pair).symm.trans known)
    rw [valuesOf_eq collected]
    exact vjp.floats _ _ _ _ _ _ pair (equal ▸ floats)
  · rw [vjp.reads _ _ _ _ used]
    rfl

theorem Tracks.contributions (chunking : graph.Chunking chunks)
    (split : chunks = front ++ chunk :: back)
    (solves : Dataflow.Solves FxNode.name FxNode.inputs apply final chunk)
    (differentiates : Differentiates apply autograd vjp graph chunks)
    {arguments results : List (Value τ γ σ)}
    (given : (graph.makeGroup chunk).inputs.mapM final = some arguments)
    (produced : (graph.makeGroup chunk).outputs.mapM final = some results)
    (tracks : Tracks vjp graph final stages seeds (front ++ [chunk]) back
      sweep)
    (stage : ModuleStage) {name : NodeName}
    (foreign : name ∉ chunk.map FxNode.name) (leaf : Nat) :
    ((Sweep.contributions autograd final states front.length
        (graph.makeGroup chunk) stage sweep.pending).map fun entry =>
      if entry.1 = name then entry.2.cotangent leaf else 0).sum =
      vjp.backprop final chunk (Dataflow.within (definedIn chunk)
        (vjp.backprop final back.flatten seeds)) (.inl name) leaf := by
  obtain ⟨names, values⟩ := zip_spec given
  have outside : Dataflow.within (definedIn chunk)
      (vjp.backprop final back.flatten seeds) (.inl name) leaf = 0 := by
    rw [Dataflow.within, if_neg (definedIn_iff.not.mpr foreign)]
    rfl
  -- Without a node that contributes to this leaf there is nothing.
  have silent (unread : ∀ node ∈ chunk, ∀ cotangent,
      vjp.pull node (valuesOf final node.inputs) cotangent (.inl name) leaf =
        0) :
      vjp.backprop final chunk (Dataflow.within (definedIn chunk)
        (vjp.backprop final back.flatten seeds)) (.inl name) leaf = 0 := by
    rw [← outside]
    exact Dataflow.backprop_of_unread
      (Pi.evalAddMonoidHom (fun _ => τ) leaf) unread
  rw [sum_contributions given]
  by_cases read : name ∈ (graph.makeGroup chunk).inputs
  · have listed := read
    rw [← names] at listed
    obtain ⟨⟨first, value⟩, member, same⟩ := List.mem_map.mp listed
    change first = name at same
    subst first
    rw [sum_if_mem (names.symm ▸ FxGraph.inputs_nodup) member fun value =>
      if Value.floatingAt autograd.isFloatingPoint value leaf then
        (Sweep.derivative autograd final states front.length
          (graph.makeGroup chunk) stage sweep.pending
            (.argument name leaf)).getD 0 else 0]
    cases floats : Value.floatingAt autograd.isFloatingPoint value leaf with
    | true =>
        rw [if_pos rfl, tracks.derivative chunking split solves
          differentiates given produced stage]
        · rfl
        · refine List.mem_append_left _ (List.mem_flatMap.mpr
            ⟨_, member, List.mem_filterMap.mpr ?_⟩)
          obtain ⟨entry, inside, required⟩ : ∃ entry,
              value.leaves[leaf]? = some entry ∧
                requiresLeaf autograd.isFloatingPoint entry = true := by
            simpa [Value.floatingAt, Option.any_eq_true] using floats
          refine ⟨(entry, leaf), ?_, ?_⟩
          · exact List.mem_zipIdx_iff_getElem?.mpr inside
          · simp [required]
    | false =>
        rw [if_neg (by simp), silent]
        intro node inside cotangent
        exact pull_of_not_floating solves inside (values _ member) floats
          cotangent
  · rw [silent]
    · apply List.sum_eq_zero
      intro term listed
      obtain ⟨argument, inside, rfl⟩ := List.mem_map.mp listed
      refine if_neg fun same => read ?_
      rw [← names, ← same]
      exact List.mem_map_of_mem inside
    · intro node inside cotangent
      rw [vjp.reads]
      · rfl
      · intro used
        exact read (FxGraph.mem_inputs.mpr ⟨⟨node, inside, used⟩, foreign⟩)

/-- A parameter is used by the nodes of its group only. -/
def Unshared {floating : τ → Bool} (vjp : Vjp τ γ σ floating)
    (chunks : List (List FxNode)) (stages : List ModuleStage) : Prop :=
  ∀ (index : Nat) stage chunk, stages[index]? = some stage →
    chunks[index]? = some chunk → ∀ name ∈ trainableNames stage,
      ∀ node ∈ chunks.flatten, node ∉ chunk → ∀ arguments cotangent,
        vjp.pull node arguments cotangent (.inr name) = 0

omit [AddCommMonoid τ] in
theorem lookup_parameterGradients {index name : Nat} {names : List Nat}
    (derivative : Target → Option τ) (member : name ∈ names) :
    (names.filterMap fun name => (derivative (.parameter name)).map
        fun grad => ((index, name), some grad)).lookup (index, name) =
      (derivative (.parameter name)).map some := by
  induction names with
  | nil => cases member
  | cons first names ih =>
      by_cases same : name = first
      · subst same
        cases known : derivative (.parameter name) with
        | some grad => simp [known]
        | none =>
            rw [List.filterMap_cons, known]
            simp only [Option.map_none]
            by_cases more : name ∈ names
            · rw [ih more, known]
              rfl
            · refine List.lookup_eq_none_iff.mpr ?_
              intro entry listed
              obtain ⟨other, inside, found⟩ := List.mem_filterMap.mp listed
              obtain ⟨grad, _, rfl⟩ := Option.map_eq_some_iff.mp found
              rw [bne_iff_ne]
              intro equal
              exact more ((Prod.mk.inj equal).2 ▸ inside)
      · have later := ih ((List.mem_cons.mp member).resolve_left same)
        rw [← later, List.filterMap_cons]
        cases derivative (.parameter first) with
        | none => rfl
        | some grad =>
            simp only [Option.map_some]
            rw [List.lookup_cons, beq_false_of_ne]
            intro equal
            exact same (Prod.mk.inj equal).2

omit [AddCommMonoid τ] in
theorem lookup_other {entries : List ((Nat × Nat) × Option τ)}
    {index name : Nat} (other : ∀ entry ∈ entries, entry.1.1 ≠ index) :
    entries.lookup (index, name) = none := by
  refine List.lookup_eq_none_iff.mpr ?_
  intro entry member
  rw [bne_iff_ne]
  intro same
  exact other entry member (same ▸ rfl)

theorem Unshared.untouched (unshared : Unshared vjp chunks stages)
    {index : Nat} {stage : ModuleStage} {chunk : List FxNode}
    (found : stages[index]? = some stage)
    (located : chunks[index]? = some chunk) {name : Nat}
    (member : name ∈ trainableNames stage) {nodes : List FxNode}
    (others : ∀ node ∈ nodes, node ∈ chunks.flatten ∧ node ∉ chunk)
    (cotangents : Cotangents τ) :
    vjp.backprop final nodes cotangents (.inr name) =
      cotangents (.inr name) := by
  refine Dataflow.backprop_of_unread (AddMonoidHom.id _) ?_
  intro node listed cotangent
  obtain ⟨inside, outside⟩ := others node listed
  exact unshared index stage chunk found located name member node inside
    outside _ _

theorem nodes_apart (chunking : graph.Chunking chunks)
    (split : chunks = front ++ chunk :: back) :
    (∀ node ∈ back.flatten, node ∈ chunks.flatten ∧ node ∉ chunk) ∧
      ∀ other ∈ back, ∀ node ∈ chunk,
        node ∈ chunks.flatten ∧ node ∉ other := by
  have distinct := graph.ordered.names.1
  rw [← chunking, split, List.flatten_append, List.flatten_cons,
    List.map_append, List.map_append] at distinct
  obtain ⟨_, rest, _⟩ := List.nodup_append.mp distinct
  obtain ⟨_, _, apart⟩ := List.nodup_append.mp rest
  refine ⟨?_, ?_⟩
  · intro node listed
    refine ⟨by simp [split, listed], ?_⟩
    intro inside
    exact apart _ (List.mem_map_of_mem inside) _ (List.mem_map_of_mem listed)
      rfl
  · intro other member node inside
    refine ⟨by simp [split, inside], ?_⟩
    intro listed
    exact apart _ (List.mem_map_of_mem inside) _ (List.mem_map_of_mem
      (List.mem_flatten.mpr ⟨other, member, listed⟩)) rfl

theorem backprop_chunk (vjp : Vjp τ γ σ autograd.isFloatingPoint)
    (final : NodeName → Option (Value τ γ σ)) {key : NodeName ⊕ Nat}
    (foreign : ¬ definedIn chunk key) :
    vjp.backprop final (chunk :: back).flatten seeds key =
      vjp.backprop final back.flatten seeds key +
        vjp.backprop final chunk (Dataflow.within (definedIn chunk)
          (vjp.backprop final back.flatten seeds)) key := by
  rw [List.flatten_cons]
  unfold Vjp.backprop
  rw [Dataflow.backprop_append, Dataflow.backprop_within (definedIn chunk)
    (fun node member => definedIn_iff.mpr (List.mem_map_of_mem member)) _
    foreign]

omit [AddCommMonoid τ] in
theorem Pending.foldl_waits {add : τ → τ → τ} {pending : Pending τ σ}
    {entries : List (NodeName × Gradient τ σ)} {name : NodeName}
    {grad : Gradient τ σ}
    (waiting : entries.foldl (Pending.accumulate add) pending name =
      some grad) :
    (∃ before, pending name = some before) ∨
      name ∈ entries.map Prod.fst := by
  induction entries generalizing pending with
  | nil => exact .inl ⟨grad, waiting⟩
  | cons entry entries ih =>
      rw [List.foldl_cons] at waiting
      rcases ih waiting with ⟨before, found⟩ | later
      · by_cases same : name = entry.1
        · exact .inr (by simp [same])
        · rw [Pending.accumulate, Function.update_of_ne same] at found
          exact .inl ⟨before, found⟩
      · exact .inr (List.mem_cons_of_mem _ later)

theorem Tracks.parameters_step (chunking : graph.Chunking chunks)
    (split : chunks = front ++ chunk :: back)
    (lengths : stages.length = chunks.length)
    (unshared : Unshared vjp chunks stages)
    (bare : ∀ name, seeds (.inr name) = 0)
    (tracks : Tracks vjp graph final stages seeds (front ++ [chunk]) back
      sweep)
    {stage : ModuleStage} (found : stages[front.length]? = some stage)
    {produced : List ((Nat × Nat) × Option τ)}
    (own : ∀ entry ∈ produced, entry.1.1 = front.length)
    (values : ∀ name ∈ trainableNames stage,
      parameterCotangent produced front.length name =
        vjp.backprop final chunk (Dataflow.within (definedIn chunk)
          (vjp.backprop final back.flatten seeds)) (.inr name) 0) :
    (∀ entry ∈ sweep.parameters ++ produced, front.length ≤ entry.1.1) ∧
      ∀ index other, front.length ≤ index →
        stages[index]? = some other → ∀ name ∈ trainableNames other,
          parameterCotangent (sweep.parameters ++ produced) index name =
            vjp.backprop final (chunk :: back).flatten seeds
              (.inr name) 0 := by
  have before : ∀ entry ∈ sweep.parameters, front.length < entry.1.1 := by
    intro entry member
    have later := tracks.later entry member
    rwa [List.length_append, List.length_singleton] at later
  obtain ⟨behind, ahead⟩ := nodes_apart chunking split
  refine ⟨?_, ?_⟩
  · intro entry member
    rcases List.mem_append.mp member with old | new
    · exact Nat.le_of_lt (before entry old)
    · exact (own entry new).ge
  · intro index other reached located name member
    rw [parameterCotangent, List.lookup_append]
    rcases Nat.eq_or_lt_of_le reached with same | more
    · subst same
      rw [found] at located
      cases located
      have none := @lookup_other _ sweep.parameters front.length name
        fun entry listed => Nat.ne_of_gt (before entry listed)
      rw [none, Option.none_or, ← parameterCotangent, values name member,
        backprop_chunk vjp final (by simp [definedIn]), Pi.add_apply,
        unshared.untouched found (by simp [split]) member behind, bare]
      simp
    · have none := @lookup_other _ produced index name
        fun entry listed => by rw [own entry listed]; exact Nat.ne_of_lt more
      have inside : index < chunks.length := by
        rw [← lengths]
        exact (List.getElem?_eq_some_iff.mp located).1
      have place : chunks[index]? = some chunks[index] :=
        List.getElem?_eq_getElem inside
      have behindIt : chunks[index] ∈ back := by
        refine List.mem_of_getElem? (i := index - front.length - 1) ?_
        rw [← place, split, List.getElem?_append_right (Nat.le_of_lt more),
          List.getElem?_cons, if_neg (by omega)]
      have past : (front ++ [chunk]).length ≤ index := by
        rw [List.length_append, List.length_singleton]
        exact more
      have kept := tracks.parameters index other past located name member
      rw [none, Option.or_none, ← parameterCotangent, kept,
        List.flatten_cons]
      unfold Vjp.backprop
      rw [Dataflow.backprop_append]
      exact congrFun (unshared.untouched located place member
        (ahead _ behindIt) _).symm 0

theorem mem_outputsOf_front {name : NodeName}
    (listed : name ∈ graph.placeholders ++ graph.outputsOf (front ++ [chunk]))
    (outside : name ∉ (graph.makeGroup chunk).outputs) :
    name ∈ graph.placeholders ++ graph.outputsOf front := by
  rw [FxGraph.outputsOf, List.flatMap_append, ← List.append_assoc] at listed
  rcases List.mem_append.mp listed with early | own
  · exact early
  · exact absurd (by simpa using own) outside

theorem notMem_flatten_cons {name : NodeName}
    (outside : name ∉ (chunk :: back).flatten.map FxNode.name) :
    name ∉ chunk.map FxNode.name ∧ name ∉ back.flatten.map FxNode.name := by
  rw [List.flatten_cons, List.map_append, List.mem_append, not_or] at outside
  exact outside

omit [AddCommMonoid τ] in
/-- A group hands gradients on to its inputs only, in the form of their
values. -/
theorem mem_contributions {group : Group} {arguments : List (Value τ γ σ)}
    (given : group.inputs.mapM final = some arguments) {index : Nat}
    {stage : ModuleStage} {pending : Pending τ σ}
    {entry : NodeName × Gradient τ σ}
    (member : entry ∈ Sweep.contributions autograd final states index group
      stage pending) :
    Typed final entry.1 entry.2 ∧ entry.1 ∈ group.inputs := by
  obtain ⟨names, values⟩ := zip_spec given
  rw [Sweep.contributions, Sweep.arguments, valuesOf_eq given] at member
  obtain ⟨argument, inside, rfl⟩ := List.mem_map.mp member
  refine ⟨typed_inputGradient _ _ (values argument inside), ?_⟩
  rw [← names]
  exact List.mem_map_of_mem inside

theorem Tracks.reverseGroup (chunking : graph.Chunking chunks)
    (split : chunks = front ++ chunk :: back)
    (lengths : stages.length = chunks.length)
    (solves : Dataflow.Solves FxNode.name FxNode.inputs apply final chunk)
    (differentiates : Differentiates apply autograd vjp graph chunks)
    (unshared : Unshared vjp chunks stages)
    (bare : ∀ name, seeds (.inr name) = 0)
    {arguments results : List (Value τ γ σ)}
    (given : (graph.makeGroup chunk).inputs.mapM final = some arguments)
    (produced : (graph.makeGroup chunk).outputs.mapM final = some results)
    (tracks : Tracks vjp graph final stages seeds (front ++ [chunk]) back
      sweep)
    {stage : ModuleStage} (found : stages[front.length]? = some stage) :
    Tracks vjp graph final stages seeds front (chunk :: back)
      (sweep.reverseGroup autograd final states front.length
        (graph.makeGroup chunk) stage) := by
  have typedLeft : (sweep.pending.without
      (graph.makeGroup chunk).outputs).AllTyped final := by
    intro name grad waiting
    unfold Pending.without at waiting
    split at waiting
    · cases waiting
    · exact tracks.typed name grad waiting
  obtain ⟨typed, sums⟩ := Pending.cotangent_foldl differentiates.add typedLeft
    fun entry member => (@mem_contributions _ _ _ autograd final states _ _
      given front.length stage sweep.pending entry member).1
  have own : ∀ entry ∈ Sweep.parameterGradients autograd final states
      front.length (graph.makeGroup chunk) stage sweep.pending,
        entry.1.1 = front.length := by
    intro entry member
    obtain ⟨name, _, same⟩ := List.mem_filterMap.mp member
    obtain ⟨grad, _, rfl⟩ := Option.map_eq_some_iff.mp same
    rfl
  have values : ∀ name ∈ trainableNames stage,
      parameterCotangent (Sweep.parameterGradients autograd final states
        front.length (graph.makeGroup chunk) stage sweep.pending)
          front.length name =
        vjp.backprop final chunk (Dataflow.within (definedIn chunk)
          (vjp.backprop final back.flatten seeds)) (.inr name) 0 := by
    intro name member
    have value : (Sweep.derivative autograd final states front.length
        (graph.makeGroup chunk) stage sweep.pending
          (.parameter name)).getD 0 = _ :=
      tracks.derivative chunking split solves differentiates given produced
        stage (List.mem_append_right _ (List.mem_map_of_mem member))
    rw [parameterCotangent, Sweep.parameterGradients,
      lookup_parameterGradients _ member]
    refine Eq.trans ?_ value
    cases Sweep.derivative autograd final states front.length
      (graph.makeGroup chunk) stage sweep.pending (.parameter name) <;> rfl
  obtain ⟨later, parameters⟩ := tracks.parameters_step chunking split lengths
    unshared bare found own values
  refine ⟨typed, ?_, ?_, later, parameters⟩
  · intro name grad waiting
    rcases Pending.foldl_waits waiting with ⟨before, old⟩ | new
    · unfold Pending.without at old
      split at old
      · cases old
      · rename_i outside
        exact mem_outputsOf_front (tracks.waits name before old) outside
    · obtain ⟨entry, inside, rfl⟩ := List.mem_map.mp new
      exact FxGraph.inputs_available chunking split
        (mem_contributions given inside).2
  · intro name outside
    obtain ⟨foreign, behind⟩ := notMem_flatten_cons outside
    have kept : name ∉ (graph.makeGroup chunk).outputs := fun output =>
      foreign (FxGraph.mem_outputs.mp output).1
    rw [backprop_chunk vjp final (definedIn_iff.not.mpr foreign),
      ← tracks.equal name behind]
    funext leaf
    refine (sums name leaf).trans ?_
    rw [tracks.contributions chunking split solves differentiates given
      produced stage foreign leaf]
    simp [Pending.cotangent, Pending.without, kept]

theorem Tracks.skip (chunking : graph.Chunking chunks)
    (split : chunks = front ++ chunk :: back)
    (lengths : stages.length = chunks.length)
    (unshared : Unshared vjp chunks stages)
    (bare : ∀ name, seeds (.inr name) = 0) {results : List (Value τ γ σ)}
    (produced : (graph.makeGroup chunk).outputs.mapM final = some results)
    (tracks : Tracks vjp graph final stages seeds (front ++ [chunk]) back
      sweep)
    {stage : ModuleStage} (found : stages[front.length]? = some stage)
    (none : ∀ name ∈ (graph.makeGroup chunk).outputs,
      sweep.pending name = none) :
    Tracks vjp graph final stages seeds front (chunk :: back) sweep := by
  have zero : Dataflow.within (definedIn chunk)
      (vjp.backprop final back.flatten seeds) = 0 := by
    rw [← tracks.outputs chunking split produced, Pending.outputs_eq_nil,
      Cotangents.total_nil]
    intro entry member
    exact none entry.1 (List.of_mem_zip member).1
  have own : ∀ entry ∈ ([] : List ((Nat × Nat) × Option τ)),
      entry.1.1 = front.length := (by intros; contradiction)
  obtain ⟨later, parameters⟩ := tracks.parameters_step chunking split lengths
    unshared bare found own
    (by
      intro name _
      rw [zero, map_zero]
      rfl)
  rw [List.append_nil] at later parameters
  refine ⟨tracks.typed, ?_, ?_, later, parameters⟩
  · intro name grad waiting
    refine mem_outputsOf_front (tracks.waits name grad waiting) ?_
    intro output
    rw [none name output] at waiting
    cases waiting
  · intro name outside
    obtain ⟨foreign, behind⟩ := notMem_flatten_cons outside
    rw [backprop_chunk vjp final (definedIn_iff.not.mpr foreign), zero,
      map_zero, Pi.zero_apply, add_zero]
    exact tracks.equal name behind

theorem Tracks.step (chunking : graph.Chunking chunks)
    (split : chunks = front ++ chunk :: back)
    (lengths : stages.length = chunks.length)
    (solves : Dataflow.Solves FxNode.name FxNode.inputs apply final chunk)
    (differentiates : Differentiates apply autograd vjp graph chunks)
    (unshared : Unshared vjp chunks stages)
    (bare : ∀ name, seeds (.inr name) = 0)
    {arguments results : List (Value τ γ σ)}
    (given : (graph.makeGroup chunk).inputs.mapM final = some arguments)
    (produced : (graph.makeGroup chunk).outputs.mapM final = some results)
    (tracks : Tracks vjp graph final stages seeds (front ++ [chunk]) back
      sweep)
    {stage : ModuleStage} (found : stages[front.length]? = some stage) :
    Tracks vjp graph final stages seeds front (chunk :: back)
      (sweep.step autograd final states
        ((graph.makeGroup chunk, stage), front.length)) := by
  unfold Sweep.step
  split
  · exact tracks.reverseGroup chunking split lengths solves differentiates
      unshared bare given produced found
  · rename_i silent
    exact tracks.skip chunking split lengths unshared bare produced found
      (by simpa using silent)

theorem Tracks.run (chunking : graph.Chunking chunks)
    (split : chunks = front ++ back)
    (lengths : stages.length = chunks.length)
    (solves : Dataflow.Solves FxNode.name FxNode.inputs apply final
      graph.nodes)
    (defined : ∀ name ∈ graph.placeholders ++ graph.nodes.map FxNode.name,
      ∃ value, final name = some value)
    (differentiates : Differentiates apply autograd vjp graph chunks)
    (unshared : Unshared vjp chunks stages)
    (bare : ∀ name, seeds (.inr name) = 0)
    (tracks : Tracks vjp graph final stages seeds front back sweep) :
    Tracks vjp graph final stages seeds [] chunks
      ((Sweep.order (front.map graph.makeGroup) stages).foldl
        (Sweep.step autograd final states) sweep) := by
  induction front using List.reverseRecOn generalizing back sweep with
  | nil =>
      rw [List.nil_append] at split
      subst split
      exact tracks
  | append_singleton front chunk ih =>
      have whole : chunks = front ++ chunk :: back := by simp [split]
      obtain ⟨stage, found⟩ :
          ∃ stage, stages[front.length]? = some stage := by
        apply Option.isSome_iff_exists.mp
        simp [lengths, whole]
      have nodes : ∀ node ∈ chunk, node ∈ graph.nodes := by
        intro node member
        rw [← chunking, whole]
        simp [member]
      obtain ⟨arguments, given⟩ : ∃ arguments,
          (graph.makeGroup chunk).inputs.mapM final = some arguments := by
        refine Dataflow.mapM_total fun name declared => defined name ?_
        have available := FxGraph.inputs_available chunking whole declared
        rcases List.mem_append.mp available with placed | before
        · exact List.mem_append_left _ placed
        · refine List.mem_append_right _ ?_
          rw [← chunking, whole, List.flatten_append, List.map_append]
          exact List.mem_append_left _
            ((FxGraph.outputsOf_sublist front).subset before)
      obtain ⟨results, produced⟩ : ∃ results,
          (graph.makeGroup chunk).outputs.mapM final = some results := by
        refine Dataflow.mapM_total fun name declared => defined name ?_
        obtain ⟨node, member, rfl⟩ :=
          List.mem_map.mp (FxGraph.mem_outputs.mp declared).1
        exact List.mem_append_right _ (List.mem_map_of_mem
          (nodes node member))
      rw [Sweep.order_chunks_snoc graph chunk found, List.foldl_cons]
      exact ih whole (tracks.step chunking whole lengths
        (fun node member => solves node (nodes node member)) differentiates
        unshared bare given produced found)

theorem bare_outputs (final : NodeName → Option (Value τ γ σ))
    (output : Tree (OutputLeaf γ) σ) (gradOutputs : List (Option τ))
    (name : Nat) : outputCotangents final output gradOutputs (.inr name) = 0 :=
  Cotangents.total_apply_ne (by simp)

theorem Tracks.start (chunking : graph.Chunking chunks)
    (lengths : stages.length = chunks.length)
    (addition : ∀ left right, autograd.add left right = left + right)
    {result : Tree (ResultLeaf τ γ σ) σ} {gradOutputs : List (Option τ)}
    (output : readOutput graph.output final = some result)
    (enough : outputLeaves result ≤ gradOutputs.length) :
    Tracks vjp graph final stages
      (outputCotangents final graph.output gradOutputs) chunks []
      ⟨(Sweep.seeds final graph.output.leaves gradOutputs).foldl
        (Pending.accumulate autograd.add) fun _ => none, []⟩ := by
  simp only [readOutput, Option.bind_eq_bind, Option.bind_eq_some_iff]
    at output
  obtain ⟨results, read, same⟩ := output
  cases same
  obtain ⟨shaped, sums⟩ := Sweep.seeds_spec read enough
  have empty : Pending.AllTyped final (fun _ => none : Pending τ σ) := by
    intro name gradient found
    cases found
  obtain ⟨typed, totals⟩ := Pending.cotangent_foldl addition empty
    fun entry member => (shaped entry member).1
  refine ⟨typed, ?_, ?_, (by intros; contradiction), ?_⟩
  · intro name grad waiting
    rcases Pending.foldl_waits waiting with ⟨_, impossible⟩ | seeded
    · cases impossible
    · obtain ⟨entry, member, rfl⟩ := List.mem_map.mp seeded
      exact FxGraph.returned_available chunking
        (FxGraph.returns_iff.mpr (shaped entry member).2)
  · intro name _
    funext leaf
    rw [totals name leaf, sums name leaf, Pending.cotangent, Option.map_none,
      Option.getD_none, zero_add]
    rfl
  · intro index stage reached found
    have inside := (List.getElem?_eq_some_iff.mp found).1
    omega

end Groups

/-- The gradient that the backward pass stores for a parameter of a group. -/
def GraphRuntime.Reversed.parameterGradient (reversed : Reversed τ γ σ)
    (index name : Nat) : Option τ :=
  (reversed.produced.lookup (index, name)).bind reversed.store.restore

omit [AddCommMonoid τ] in
theorem lookup_map_snd {β δ : Type} (f : β → δ)
    (entries : List ((Nat × Nat) × β)) (key : Nat × Nat) :
    (entries.map fun entry => (entry.1, f entry.2)).lookup key =
      (entries.lookup key).map f := by
  induction entries with
  | nil => rfl
  | cons entry entries ih =>
      rw [List.map_cons, List.lookup_cons, List.lookup_cons, ih]
      cases key == entry.1 <;> rfl

theorem Sweep.cotangent_result {final : NodeName → Option (Value τ γ σ)}
    {sweep : Sweep τ σ} {name : NodeName} {grad : Gradient τ σ}
    (returned : sweep.result final name = some grad) (leaf : Nat) :
    grad.cotangent leaf = sweep.pending.cotangent name leaf := by
  unfold Sweep.result at returned
  cases waiting : sweep.pending name with
  | some kept =>
      simp only [waiting] at returned
      cases returned
      simp [Pending.cotangent, waiting]
  | none =>
      simp only [waiting] at returned
      obtain ⟨value, _, rfl⟩ := Option.map_eq_some_iff.mp returned
      simp only [Pending.cotangent, waiting, Option.map_none,
        Option.getD_none, Gradient.cotangent, List.getElem?_map,
        Option.map_map]
      by_cases inside : leaf < value.leaves.length
      · rw [List.getElem?_eq_getElem inside]
        rfl
      · rw [List.getElem?_eq_none (Nat.le_of_not_lt inside)]
        rfl

omit [AddCommMonoid τ] in
theorem replaced_trainable {limit : Handle} {stages after : List ModuleStage}
    (replaced : List.Forall₂ (StageReplaced limit) stages after) :
    (∀ (index : Nat) stage, stages[index]? = some stage →
      ∃ new, after[index]? = some new ∧
        trainableNames new = trainableNames stage) ∧
    ∀ (index : Nat) new, after[index]? = some new →
      ∃ stage, stages[index]? = some stage ∧
        trainableNames new = trainableNames stage := by
  induction replaced with
  | nil => simp
  | @cons old new olds news first _ ih =>
      have same : trainableNames new = trainableNames old := by
        rw [trainableNames, trainableNames, first.weights]
      refine ⟨?_, ?_⟩
      · intro index stage found
        cases index with
        | zero =>
            cases found
            exact ⟨new, rfl, same⟩
        | succ index => exact ih.1 index stage (by simpa using found)
      · intro index stage found
        cases index with
        | zero =>
            cases found
            exact ⟨old, rfl, same⟩
        | succ index => exact ih.2 index stage (by simpa using found)

namespace GraphRuntime

variable {chunks : List (List FxNode)} {stages : List ModuleStage}
  {inputs : List (Value τ γ σ)} {base : Multiset Handle}
  {store : HandleStore τ}

/-- The grouped backward pass is reverse accumulation over the graph: for every
leaf of every placeholder and for every trainable parameter. -/
theorem grouped_backward (graph : FxGraph γ σ)
    (apply : FxNode → List (Value τ γ σ) → Value τ γ σ)
    (mutate : Nat → ModuleState τ → List (Value τ γ σ) → Nat → τ)
    (autograd : Autograd τ γ σ) (vjp : Vjp τ γ σ autograd.isFloatingPoint)
    (chunking : graph.Chunking chunks)
    (arity : inputs.length = graph.placeholders.length)
    (lengths : stages.length = chunks.length)
    (loaded : Loaded stages base store)
    (differentiates : Differentiates apply autograd vjp graph chunks)
    (unshared : Unshared vjp chunks stages) :
    ∃ final executed,
      Dataflow.eval FxNode.name FxNode.inputs apply graph.nodes
          (bind graph.placeholders inputs) = some final ∧
        execute ⟨fun _ _ => apply, mutate⟩ (graph.makeIr chunks) stages true
          inputs store = some executed ∧
        ∀ gradOutputs, gradOutputs.length = outputLeaves executed.result →
          ∃ reversed,
            reverse ⟨fun _ _ => apply, mutate⟩ autograd (graph.makeIr chunks)
                executed.stages executed.tape gradOutputs executed.store =
              some reversed ∧
            reversed.results.length = graph.placeholders.length ∧
            (∀ entry ∈ graph.placeholders.zip reversed.results, ∀ leaf,
              entry.2.cotangent leaf =
                vjp.backprop final graph.nodes
                  (outputCotangents final graph.output gradOutputs)
                  (.inl entry.1) leaf) ∧
            ∀ index stage, stages[index]? = some stage →
              ∀ name ∈ trainableNames stage,
                (reversed.parameterGradient index name).getD 0 =
                  vjp.backprop final graph.nodes
                    (outputCotangents final graph.output gradOutputs)
                    (.inr name) 0 := by
  obtain ⟨final, ran, solves, given⟩ :=
    solution_exists apply (fun node => node) (List.map_id _) arity
  have defined : ∀ name ∈ graph.placeholders ++ graph.nodes.map FxNode.name,
      ∃ value, final name = some value := by
    intro name listed
    rcases List.mem_append.mp listed with placed | defined
    · exact Dataflow.defined_of_mapM given name placed
    · obtain ⟨node, member, rfl⟩ := List.mem_map.mp defined
      obtain ⟨_, _, value⟩ := solves node member
      exact ⟨_, value⟩
  have chunkSolves : ∀ (index : Nat) chunk, chunks[index]? = some chunk →
      Dataflow.Solves FxNode.name FxNode.inputs apply final chunk := by
    intro index chunk found node member
    apply solves
    rw [← chunking]
    exact List.mem_flatten.mpr ⟨chunk, List.mem_of_getElem? found, member⟩
  obtain ⟨executed, remaining, executes, output, reached, replaced⟩ :=
    @execute_spec _ _ _ final ⟨fun _ _ => apply, mutate⟩ graph _
      (stateOf stages store) base true stages inputs store chunking
      chunkSolves given lengths loaded loaded.stateOf
  refine ⟨final, executed, ran, executes, ?_⟩
  intro gradOutputs width
  obtain ⟨reversed, reverses, results, _, _, parameters⟩ :=
    @reverse_spec _ _ _ _ ⟨fun _ _ => apply, mutate⟩ autograd _ _ _ _ _ _ _ _
      _ _ _ chunking chunkSolves reached output width.ge
  have same := replaced_trainable replaced
  let sweep := Sweep.run autograd final (stateOf stages store)
    (graph.makeIr chunks) executed.stages gradOutputs
  have started : Tracks vjp graph final executed.stages
      (outputCotangents final graph.output gradOutputs) chunks [] _ :=
    Tracks.start chunking reached.stages differentiates.add output width.ge
  have tracked : Tracks vjp graph final executed.stages
      (outputCotangents final graph.output gradOutputs) [] chunks sweep :=
    started.run chunking (List.append_nil chunks).symm reached.stages solves
      defined differentiates
      (by
        intro index stage chunk found located name member
        obtain ⟨old, place, names⟩ := same.2 index stage found
        exact unshared index old chunk place located name (names ▸ member))
      (bare_outputs final graph.output gradOutputs)
  have whole : chunks.flatten = graph.nodes := chunking
  refine ⟨reversed, reverses,
    (Dataflow.mapM_eq_some.mp results).length_eq.symm, ?_, ?_⟩
  · intro entry member leaf
    obtain ⟨names, values⟩ := zip_spec results
    have placed : entry.1 ∈ graph.placeholders := (List.of_mem_zip member).1
    have foreign : entry.1 ∉ chunks.flatten.map FxNode.name := by
      rw [whole]
      intro listed
      obtain ⟨node, inside, equal⟩ := List.mem_map.mp listed
      exact graph.ordered.names.2 node inside (equal ▸ placed)
    rw [← whole, ← tracked.equal entry.1 foreign]
    exact Sweep.cotangent_result (values entry member) leaf
  · intro index stage found name member
    obtain ⟨after, place, names⟩ := same.1 index stage found
    have stored := tracked.parameters index after (Nat.zero_le _) place name
      (names ▸ member)
    rw [← whole, ← stored, parameterCotangent,
      show sweep.parameters = _ from parameters.symm,
      lookup_map_snd fun handle => reversed.store.restore handle,
      Reversed.parameterGradient]
    cases reversed.produced.lookup (index, name) <;> rfl

def skipReads (node : FxNode) (arguments : List (Value Nat Nat Unit))
    (name : NodeName) (leaf : Nat) : Bool :=
  name ∈ node.inputs && (node.inputs.zip arguments).all fun entry =>
    entry.1 ≠ name || Value.floatingAt (fun _ => true) entry.2 leaf

/-- The products of sums; the constant that the first node adds is its
parameter. -/
def skipVjp : Vjp Nat Nat Unit fun _ => true where
  pull := fun node arguments =>
    { toFun := fun cotangent key leaf => match key with
        | .inl name =>
            if skipReads node arguments name leaf then cotangent 0 else 0
        | .inr name => if node.name = 1 ∧ name = 0 then cotangent leaf else 0
      map_zero' := by
        funext key leaf
        cases key <;> simp
      map_add' := by
        intro left right
        funext key leaf
        cases key <;> simp only [Pi.add_apply] <;> split <;> rfl }
  reads := by
    intro node arguments cotangent name unread
    funext leaf
    simp [skipReads, unread]
  floats := by
    intro node arguments cotangent name value leaf member steady
    have silent : skipReads node arguments name leaf = false := by
      simp only [skipReads, Bool.and_eq_false_iff, List.all_eq_false]
      refine .inr ⟨(name, value), member, ?_⟩
      simp [steady]
    simp [silent]

theorem skip_unshared :
    Unshared skipVjp (skipGraph.chunksOf none 12 [2]) skipStages := by
  intro index stage chunk found located name member node inside outside
    arguments cotangent
  have chunks : skipGraph.chunksOf none 12 [2] =
      skipGraph.nodes.map fun node => [node] := by decide
  rw [chunks] at located inside
  -- The first stage is the only one with a parameter.
  have first : index = 0 ∧ name = 0 := by
    have short : index < skipStages.length :=
      (List.getElem?_eq_some_iff.mp found).1
    have cases : index = 0 ∨ index = 1 ∨ index = 2 ∨ index = 3 := by
      have size : skipStages.length = 4 := rfl
      omega
    rcases cases with rfl | rfl | rfl | rfl
    · cases found
      exact ⟨rfl, List.mem_singleton.mp member⟩
    all_goals
      cases found
      cases member
  obtain ⟨rfl, rfl⟩ := first
  cases located
  have other : node.name ≠ 1 := by
    simp only [List.flatten_eq_flatMap, List.mem_flatMap, List.mem_map, id]
      at inside
    obtain ⟨_, ⟨node, listed, rfl⟩, same⟩ := inside
    obtain rfl := List.mem_singleton.mp same
    simp only [skipGraph, List.mem_cons, List.not_mem_nil, or_false]
      at listed
    rcases listed with rfl | rfl | rfl | rfl
    · exact absurd (List.mem_singleton.mpr rfl) outside
    all_goals decide
  funext leaf
  simp [skipVjp, other]

theorem grouped_backward_skip :
    ∃ final executed,
      Dataflow.eval FxNode.name FxNode.inputs skipApply skipGraph.nodes
          (bind skipGraph.placeholders [⟨[.tensor 5], ()⟩]) = some final ∧
        execute ⟨fun _ _ => skipApply, fun _ _ _ _ => 30⟩
          (skipGraph.makeIr (skipGraph.chunksOf none 12 [2])) skipStages true
          [⟨[.tensor 5], ()⟩] skipStore = some executed ∧
        ∃ reversed,
          reverse ⟨fun _ _ => skipApply, fun _ _ _ _ => 30⟩
              (skipVjp.autograd skipApply skipGraph
                (skipGraph.chunksOf none 12 [2]))
              (skipGraph.makeIr (skipGraph.chunksOf none 12 [2]))
              executed.stages executed.tape [some 1, none] executed.store =
            some reversed ∧
          (reversed.parameterGradient 0 0).getD 0 =
            skipVjp.backprop final skipGraph.nodes
              (outputCotangents final skipGraph.output [some 1, none])
              (.inr 0) 0 := by
  have arity : ([⟨[.tensor 5], ()⟩] : List (Value Nat Nat Unit)).length =
      skipGraph.placeholders.length := rfl
  obtain ⟨final, executed, ran, executes, backward⟩ :=
    grouped_backward skipGraph skipApply (fun _ _ _ _ => 30)
      (skipVjp.autograd skipApply skipGraph
        (skipGraph.chunksOf none 12 [2]))
      skipVjp (skipGraph.chunksOf_chunking none 12 [2]) arity (by decide)
      skip_loaded (skipVjp.differentiates skipApply skipGraph _)
      skip_unshared
  refine ⟨final, executed, ran, executes, ?_⟩
  have width : 2 = outputLeaves executed.result := by
    have counted : (execute ⟨fun _ _ => skipApply, fun _ _ _ _ => 30⟩
        (skipGraph.makeIr (skipGraph.chunksOf none 12 [2])) skipStages true
        [⟨[.tensor 5], ()⟩] skipStore).map (fun executed =>
          outputLeaves executed.result) = some 2 := by rfl
    rw [executes] at counted
    exact (Option.some.inj counted).symm
  obtain ⟨reversed, reverses, _, _, parameters⟩ :=
    backward [some 1, none] width
  exact ⟨reversed, reverses, parameters 0 _ rfl 0 (by decide)⟩

end GraphRuntime

end TrainPool
