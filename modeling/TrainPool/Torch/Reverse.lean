import TrainPool.Torch.Execute

namespace TrainPool

open HandleStore

/-! The backward pass over the groups of a graph. -/

/-- The gradient of a value has its structure.  A leaf is a tensor or `None`. -/
abbrev Gradient (τ σ : Type) := Value τ Empty σ

/-- What a group is differentiated by: a leaf of an argument, or a parameter. -/
inductive Target where
  | argument (name : NodeName) (leaf : Nat)
  | parameter (name : Nat)
  deriving DecidableEq, Repr

/-- What the runtime asks of PyTorch.  `requiresGrad` is about a leaf of an
output of a group, when the targets require gradients; `grad` is
`torch.autograd.grad` for outputs with their upstream gradients. -/
structure Autograd (τ γ σ : Type) where
  isFloatingPoint : τ → Bool
  requiresGrad : Nat → ModuleState τ → List (Value τ γ σ) → List Target →
    NodeName → Nat → Bool
  grad : Nat → ModuleState τ → List (Value τ γ σ) →
    List ((NodeName × Nat) × τ) → Target → Option τ
  add : τ → τ → τ

abbrev Gradients (σ : Type) := Table NodeName (SavedTree Empty σ)

namespace Gradient

variable {τ σ : Type}

def ofOption : Option τ → Leaf τ Empty
  | some value => .tensor value
  | none => .none

def addLeaf (add : τ → τ → τ) : Leaf τ Empty → Leaf τ Empty → Leaf τ Empty
  | .none, leaf => leaf
  | leaf, .none => leaf
  | .tensor left, .tensor right => .tensor (add left right)

def sum (add : τ → τ → τ) (left right : Gradient τ σ) : Gradient τ σ :=
  ⟨List.zipWith (addLeaf add) left.leaves right.leaves, left.spec⟩

end Gradient

namespace GraphRuntime

variable {τ γ σ : Type}

/-- `accumulate`. -/
def accumulate (add : τ → τ → τ) (name : NodeName) (values : Gradient τ σ)
    (gradients : Gradients σ) (store : HandleStore τ) :
    Option (Gradients σ × HandleStore τ) :=
  match gradients.lookup name with
  | none =>
      let (saved, store) := SavedTree.save values store
      some (gradients.insert name saved, store)
  | some previous => do
      let old ← previous.restore store
      guard (old.leaves.length = values.leaves.length)
      let store := previous.free store
      let (saved, store) := SavedTree.save (Gradient.sum add old values) store
      some ((gradients.erase name).insert name saved, store)

def accumulateAll (add : τ → τ → τ) : List (NodeName × Gradient τ σ) →
    Gradients σ → HandleStore τ → Option (Gradients σ × HandleStore τ)
  | [], gradients, store => some (gradients, store)
  | (name, values) :: rest, gradients, store => do
      let (gradients, store) ← accumulate add name values gradients store
      accumulateAll add rest gradients store

def takeGradients {α : Type} : List (Leaf α γ) → List (Option τ) →
    Option (List (Leaf τ Empty) × List (Option τ))
  | [], gradOutputs => some ([], gradOutputs)
  | .tensor _ :: _, [] => none
  | .tensor _ :: rest, grad :: gradOutputs => do
      let (leaves, gradOutputs) ← takeGradients rest gradOutputs
      some (Gradient.ofOption grad :: leaves, gradOutputs)
  | .constant _ :: rest, gradOutputs => do
      let (leaves, gradOutputs) ← takeGradients rest gradOutputs
      some (.none :: leaves, gradOutputs)
  | .none :: rest, gradOutputs => do
      let (leaves, gradOutputs) ← takeGradients rest gradOutputs
      some (.none :: leaves, gradOutputs)

def Leaf.isTensor {α : Type} : Leaf α γ → Bool
  | .tensor _ => true
  | .constant _ => false
  | .none => false

/-- The number of tensors that the autograd function returns, each of which gets
a gradient or `None`. -/
def outputLeaves (result : Tree (ResultLeaf τ γ σ) σ) : Nat :=
  (result.leaves.map fun
    | .value value => value.leaves.countP Leaf.isTensor
    | .constant _ => 0).sum

/-- `seed` over the output structure. -/
def seed (add : τ → τ → τ) (tape : Tape γ σ) : List (OutputLeaf γ) →
    List (Option τ) → Gradients σ → HandleStore τ →
    Option (Gradients σ × HandleStore τ)
  | [], _, gradients, store => some (gradients, store)
  | .constant _ :: rest, gradOutputs, gradients, store =>
      seed add tape rest gradOutputs gradients store
  | .node name :: rest, gradOutputs, gradients, store => do
      let saved ← tape.values.lookup name
      let (leaves, gradOutputs) ← takeGradients saved.leaves gradOutputs
      let (gradients, store) ←
        accumulate add name ⟨leaves, saved.spec⟩ gradients store
      seed add tape rest gradOutputs gradients store

def upstreamLeaf (requires : NodeName → Nat → Bool) (name : NodeName) :
    (Leaf τ γ × Leaf τ Empty) × Nat → Option ((NodeName × Nat) × τ)
  | ((.tensor _, .tensor gradient), leaf) =>
      if requires name leaf then some ((name, leaf), gradient) else none
  | _ => none

/-- The leaves of an output that are differentiated, with their gradients. -/
def upstream (requires : NodeName → Nat → Bool) (name : NodeName)
    (value : Value τ γ σ) (grad : Gradient τ σ) :
    List ((NodeName × Nat) × τ) :=
  (value.leaves.zip grad.leaves).zipIdx.filterMap
    (upstreamLeaf requires name)

/-- The gradients of the outputs are taken out of `gradients`. -/
def collectOutputs (requires : NodeName → Nat → Bool) :
    List (NodeName × Value τ γ σ) → Gradients σ → HandleStore τ →
    Option (List ((NodeName × Nat) × τ) × Gradients σ × HandleStore τ)
  | [], gradients, store => some ([], gradients, store)
  | (name, value) :: rest, gradients, store =>
      match gradients.lookup name with
      | none => collectOutputs requires rest gradients store
      | some saved => do
          let grad ← saved.restore store
          let store := saved.free store
          guard (value.leaves.length = grad.leaves.length)
          let (outputs, gradients, store) ←
            collectOutputs requires rest (gradients.erase name) store
          some (upstream requires name value grad ++ outputs, gradients, store)

def requiresLeaf (floating : τ → Bool) : Leaf τ γ → Bool
  | .tensor value => floating value
  | .constant _ => false
  | .none => false

def argumentTargets (floating : τ → Bool)
    (arguments : List (NodeName × Value τ γ σ)) : List Target :=
  arguments.flatMap fun argument =>
    argument.2.leaves.zipIdx.filterMap fun entry =>
      if requiresLeaf floating entry.1 then
        some (.argument argument.1 entry.2)
      else none

/-- The parameters with `requires_grad`. -/
def trainableNames (stage : ModuleStage) : List Nat :=
  (stage.weights.filter Weight.trainable).map Weight.name

/-- The gradient of each argument, in the structure of the argument. -/
def inputGradient (floating : τ → Bool) (derivative : Target → Option τ)
    (argument : NodeName × Value τ γ σ) : NodeName × Gradient τ σ :=
  (argument.1,
    ⟨argument.2.leaves.zipIdx.map fun entry =>
      if requiresLeaf floating entry.1 then
        Gradient.ofOption (derivative (.argument argument.1 entry.2))
      else .none, argument.2.spec⟩)

/-- Parameter gradients that are not `None` are stored for the optimizer. -/
def storeGradients (index : Nat) (derivative : Target → Option τ) :
    List Nat → HandleStore τ → List ((Nat × Nat) × Handle) × HandleStore τ
  | [], store => ([], store)
  | name :: rest, store =>
      match derivative (.parameter name) with
      | none => storeGradients index derivative rest store
      | some grad =>
          let (handle, store) := store.offload grad
          let (produced, store) := storeGradients index derivative rest store
          (((index, name), handle) :: produced, store)

def dropAll : List NodeName → Tape γ σ → HandleStore τ →
    Option (Tape γ σ × HandleStore τ)
  | [], tape, store => some (tape, store)
  | name :: rest, tape, store => do
      let (tape, store) ← tape.drop name store
      dropAll rest tape store

/-- The variables of `reverse`.  `produced` are the entries of the records'
`gradients`, by group and parameter. -/
structure Reversing (τ γ σ : Type) where
  store : HandleStore τ
  tape : Tape γ σ
  gradients : Gradients σ
  produced : List ((Nat × Nat) × Handle)

variable (operators : Operators τ γ σ) (autograd : Autograd τ γ σ)

/-- PyTorch is not asked when there is nothing to differentiate. -/
def derivatives (index : Nat) (state : ModuleState τ)
    (arguments : List (Value τ γ σ)) (targets : List Target)
    (outputs : List ((NodeName × Nat) × τ)) : Target → Option τ :=
  if outputs.isEmpty || targets.isEmpty then fun _ => none
  else autograd.grad index state arguments outputs

/-- `_reverse_group`. -/
def reverseGroup (index : Nat) (group : Group) (stage : ModuleStage)
    (reversing : Reversing τ γ σ) : Option (Reversing τ γ σ) := do
  let arguments ←
    group.inputs.mapM (reversing.tape.restore reversing.store)
  let snapshot ← reversing.tape.buffers[index]?
  let state ← stage.state snapshot reversing.store
  let results ← functionalCall operators index group state arguments
  let named := group.inputs.zip arguments
  let names := trainableNames stage
  let targets := argumentTargets autograd.isFloatingPoint named ++
    names.map .parameter
  let (outputs, gradients, store) ← collectOutputs
    (autograd.requiresGrad index state arguments targets)
    (group.outputs.zip results) reversing.gradients reversing.store
  let derivative :=
    derivatives autograd index state arguments targets outputs
  let (gradients, store) ← accumulateAll autograd.add
    (named.map (inputGradient autograd.isFloatingPoint derivative))
    gradients store
  let (produced, store) := storeGradients index derivative names store
  let (tape, store) ← dropAll group.outputs reversing.tape store
  some ⟨store, tape, gradients, reversing.produced ++ produced⟩

def reverseStep (index : Nat) (group : Group) (stage : ModuleStage)
    (reversing : Reversing τ γ σ) : Option (Reversing τ γ σ) :=
  if group.outputs.any (· ∈ reversing.gradients) then
    reverseGroup operators autograd index group stage reversing
  else some reversing

/-- The groups with their stages and indices, in the order they are taken. -/
def reverseGroups : List ((Group × ModuleStage) × Nat) →
    Reversing τ γ σ → Option (Reversing τ γ σ)
  | [], reversing => some reversing
  | ((group, stage), index) :: rest, reversing => do
      let reversing ←
        reverseStep operators autograd index group stage reversing
      reverseGroups rest reversing

/-- What a placeholder gets; the structure is there when no gradient is. -/
def placeholderGradient (reversing : Reversing τ γ σ) (name : NodeName) :
    Option (Gradient τ σ) :=
  match reversing.gradients.lookup name with
  | some saved => saved.restore reversing.store
  | none => (reversing.tape.values.lookup name).map fun saved =>
      ⟨saved.leaves.map fun _ => .none, saved.spec⟩

structure Reversed (τ γ σ : Type) where
  results : List (Gradient τ σ)
  tape : Tape γ σ
  produced : List ((Nat × Nat) × Handle)
  store : HandleStore τ

def freeGradients (gradients : Gradients σ) (store : HandleStore τ) :
    HandleStore τ :=
  gradients.entries.foldl (fun store entry => entry.2.free store) store

/-- `reverse` on the tape of a forward pass. -/
def reverse (ir : GraphIR γ σ) (stages : List ModuleStage) (tape : Tape γ σ)
    (gradOutputs : List (Option τ)) (store : HandleStore τ) :
    Option (Reversed τ γ σ) := do
  let (gradients, store) ← seed autograd.add tape ir.frontend.output.leaves
    gradOutputs ∅ store
  let reversing ← reverseGroups operators autograd
    (ir.groups.zip stages).zipIdx.reverse ⟨store, tape, gradients, []⟩
  let results ←
    ir.frontend.placeholders.mapM (placeholderGradient reversing)
  some ⟨results, reversing.tape, reversing.produced,
    freeGradients reversing.gradients reversing.store⟩

end GraphRuntime

end TrainPool
