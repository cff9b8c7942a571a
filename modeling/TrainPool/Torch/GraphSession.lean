import TrainPool.Torch.Checkpoint
import TrainPool.Torch.Lifetimes
import TrainPool.Torch.Sequential

namespace TrainPool

open HandleStore Failing Training

/-! A graph runtime and its optimizer, from one operation to the next.  Every
call of the tensor store may raise. -/

/-- What a group has been run with: its weights, and its buffers that no
BatchNorm module registers, each with what the store held of it. -/
structure Ran (τ : Type) where
  group : Group
  weights : List (Weight × Option τ)
  buffers : List (Buffer × Option τ)
  deriving DecidableEq

/-- The context of a training forward.  What its groups have been run with,
forward and again, and the gradients of its backward only grow; `completed` says
that the backward has been through all groups. -/
structure GraphContext (τ γ σ : Type) where
  clock : Nat
  leaves : Nat
  tape : Tape γ σ
  ran : List (Ran τ)
  consumed : Bool := false
  completed : Bool := false
  reran : List (Nat × Ran τ) := []
  produced : List ((Nat × ParameterName) × τ) := []

/-- A gradient that a step has applied, and the context whose backward was the
last to run. -/
structure Application (τ : Type) where
  latest : Option Nat
  key : Nat × ParameterName
  value : τ
  deriving DecidableEq, Repr

/-- A graph runtime between the steps of its operations.  `tape`, `remaining`,
`ran` and `gradients` are the variables of the pass that is under way; `clock`
counts the forwards. -/
structure GraphSession (τ γ σ : Type) where
  session : Session τ γ
  ir : GraphIR γ σ
  clock : Nat := 0
  tape : Tape γ σ := ⟨∅, []⟩
  remaining : NodeName → Nat := fun _ => 0
  ran : List (Ran τ) := []
  gradients : Gradients σ := ∅
  contexts : List (GraphContext τ γ σ) := []
  latest : Option Nat := none
  applied : List (Application τ) := []

abbrev GraphStepping (τ γ σ α : Type) := Failing (GraphSession τ γ σ) Raised α

/-- What the operations read besides.  Each forward has its own random numbers
and module modes; `exceeds` is whether the metadata of a group exceeds the
budget, and `budget` what `_check_budget` finds for it. -/
structure GraphModel (τ γ σ : Type) where
  device : String
  onDevice : τ → Bool
  operators : Nat → Operators τ γ σ
  autograd : Nat → Autograd τ γ σ
  declares : List FxNode → Declared
  named : ∀ chunk, (declares chunk).parameters.Nodup
  syncModes : Nat → Except Raised Unit
  exceeds : Nat → List (Value τ γ σ) → List FxNode → Except Raised Bool
  budget : Nat → List FxNode → Except Raised Unit
  rounds : Nat
  kinds : Kinds τ γ
  attached : Attached γ
  optimizer : Optimizer τ γ

/-- The module that a runtime is made for, and the optimizer's options.
`dormant` is what no group uses. -/
structure Prepared (τ γ : Type) where
  parameter : ParameterName → τ × Bool
  buffer : Nat → τ
  dormant : Declared
  named : dormant.parameters.Nodup
  parameterOrder : List ParameterName
  stateNames : List Nat
  options : Table String γ
  groupSize : Nat

def Runtime.norms {γ : Type} (runtime : Runtime γ) : List Nat :=
  runtime.stages.flatMap fun record =>
    (record.stage.buffers.filter Buffer.batchNorm).map Buffer.name

def Session.ranWith {τ γ : Type} (session : Session τ γ) (group : Group)
    (stage : ModuleStage) : Ran τ where
  group := group
  weights := stage.weights.map fun weight =>
    (weight, session.store.restore weight.handle)
  buffers := (stage.buffers.filter (·.name ∉ session.runtime.norms)).map
    fun buffer => (buffer, session.store.restore buffer.handle)

namespace GraphSession

variable {τ γ σ : Type}

/-! Values in the store. -/

/-- What was saved by then is freed where the next leaf cannot be. -/
def saveLeaves {δ : Type} (saved : List Handle) :
    List (Leaf τ δ) → Stepping τ γ (List (Leaf Handle δ))
  | [] => pure []
  | .tensor value :: rest => do
      let handle ← publish saved value
      let others ← saveLeaves (saved ++ [handle]) rest
      pure (.tensor handle :: others)
  | .constant value :: rest => do
      let others ← saveLeaves saved rest
      pure (.constant value :: others)
  | .none :: rest => do
      let others ← saveLeaves saved rest
      pure (.none :: others)

/-- `SavedTree.save` -/
def saveTree {δ : Type} (value : Value τ δ σ) :
    Stepping τ γ (SavedTree δ σ) := do
  let leaves ← saveLeaves [] value.leaves
  pure ⟨leaves, value.spec⟩

def restoreLeaf {δ : Type} : Leaf Handle δ → Stepping τ γ (Leaf τ δ)
  | .tensor handle => do
      let value ← restore handle
      pure (.tensor value)
  | .constant value => pure (.constant value)
  | .none => pure .none

/-- `SavedTree.restore` -/
def restoreTree {δ : Type} (saved : SavedTree δ σ) :
    Stepping τ γ (Value τ δ σ) := do
  let leaves ← collect restoreLeaf saved.leaves
  pure ⟨leaves, saved.spec⟩

/-- `SavedTree.free` -/
def freeTree {δ : Type} (saved : SavedTree δ σ) : Stepping τ γ Unit :=
  each free saved.handleList

def inside {α : Type} (program : Stepping τ γ α) : GraphStepping τ γ σ α :=
  within GraphSession.session (fun course session =>
    { course with session := session }) program

def raising {α : Type} (result : Except Raised α) : GraphStepping τ γ σ α :=
  match result with
  | .ok value => pure value
  | .error raised => throw raised

def changing (update : Runtime γ → Runtime γ) : GraphStepping τ γ σ Unit :=
  inside (change update)

@[simp] theorem leads_changing {update : Runtime γ → Runtime γ}
    {course : GraphSession τ γ σ}
    {post : Except Raised Unit → GraphSession τ γ σ → Prop} :
    (changing update).Leads course post ↔ post (.ok ()) { course with
      session := { course.session with
        runtime := update course.session.runtime } } :=
  Iff.rfl

@[simp] theorem leads_changing_bind {α : Type} {update : Runtime γ → Runtime γ}
    {program : Unit → GraphStepping τ γ σ α} {course : GraphSession τ γ σ}
    {post : Except Raised α → GraphSession τ γ σ → Prop} :
    (changing update >>= program).Leads course post ↔
      (program ()).Leads { course with session := { course.session with
        runtime := update course.session.runtime } } post :=
  Iff.rfl

/-- `tape["values"][name].restore(...)` -/
def readValue (name : NodeName) : GraphStepping τ γ σ (Value τ γ σ) := do
  match (← get).tape.values.lookup name with
  | none => throw (.error s!"KeyError: {name}")
  | some saved => inside (restoreTree saved)

def keepValue (entry : NodeName × Value τ γ σ) : GraphStepping τ γ σ Unit := do
  let saved ← inside (saveTree entry.2)
  modify fun course => { course with tape := { course.tape with
    values := course.tape.values.insert entry.1 saved } }

/-- `tape["values"].pop(name).free(...)` -/
def dropValue (name : NodeName) : GraphStepping τ γ σ Unit := do
  match (← get).tape.values.lookup name with
  | none => throw (.error s!"KeyError: {name}")
  | some saved => do
      modify fun course => { course with tape := { course.tape with
        values := course.tape.values.erase name } }
      inside (freeTree saved)

/-- `release_tape` -/
def releaseTape : GraphStepping τ γ σ Unit := do
  let tape := (← get).tape
  inside do
    each (fun saved => suppress (freeTree saved))
      (tape.values.entries.map Sigma.snd)
    each (fun snapshot => each (fun handle => suppress (free handle))
      (snapshot.map Prod.snd)) tape.buffers

/-! The construction. -/

theorem zip_fst_sublist {α β : Type} (first : List α) (second : List β) :
    ((first.zip second).map Prod.fst).Sublist first := by
  induction first generalizing second with
  | nil => exact .slnil
  | cons item rest ih =>
      cases second with
      | nil => exact List.nil_sublist _
      | cons other others => exact (ih others).cons_cons item

def uploadedRecord (prepared : Prepared τ γ) (declared : Declared)
    (named : declared.parameters.Nodup) (weights buffers : List Handle) :
    Record γ where
  stage := {
    weights := (declared.parameters.zip weights).map fun entry =>
      ⟨entry.1, entry.2, (prepared.parameter entry.1).2⟩
    buffers := (declared.buffers.zip buffers).map fun entry =>
      ⟨entry.1.1, entry.2, entry.1.2⟩
    distinct := by
      have sublist := (zip_fst_sublist declared.buffers buffers).map Prod.fst
      rw [List.map_map] at sublist ⊢
      exact declared.distinct.sublist sublist }
  parameters := by
    rw [List.map_map]
    exact named.sublist (zip_fst_sublist declared.parameters weights)

def uploadRecord (prepared : Prepared τ γ) (declared : Declared)
    (named : declared.parameters.Nodup) : Stepping τ γ (Record γ) := do
  let weights ← collect (fun name => offload (prepared.parameter name).1)
    declared.parameters
  let buffers ← collect (fun entry => offload (prepared.buffer entry.1))
    declared.buffers
  pure (uploadedRecord prepared declared named weights buffers)

def uploadGroup (model : GraphModel τ γ σ) (prepared : Prepared τ γ)
    (group : Group) : GraphStepping τ γ σ Unit := do
  let record ← inside (uploadRecord prepared (model.declares group.nodes)
    (model.named group.nodes))
  changing fun runtime =>
    { runtime with stages := runtime.stages ++ [record] }

/-- `GraphRuntime.__init__` -/
def construct (model : GraphModel τ γ σ) (prepared : Prepared τ γ) :
    GraphStepping τ γ σ Unit := do
  changing fun _ => {
    stages := []
    dormant := Record.empty
    parameterOrder := some prepared.parameterOrder
    stateNames := prepared.stateNames
    options := prepared.options
    groupSize := prepared.groupSize }
  each (uploadGroup model prepared) (← get).ir.groups
  let dormant ← inside
    (uploadRecord prepared prepared.dormant prepared.named)
  changing ({ · with dormant := dormant })

/-! The groups are cut again. -/

def gradientHandle (stages : List (Record γ)) (name : ParameterName) :
    Option Handle :=
  stages.reverse.findSome? (·.gradients.lookup name)

def optimizerState (stages : List (Record γ)) (name : ParameterName) :
    Option (StateDict Handle γ) :=
  stages.reverse.findSome? (·.optimizerState.lookup name)

/-- `{name: found[name] for name in names if name in found}` -/
def tableOf {ν : Type} (found : ParameterName → Option ν)
    (names : List ParameterName) : Table ParameterName ν :=
  names.foldl (fun table name =>
    (found name).elim table (table.insert name)) ∅

theorem rebuild_names {stages : List ModuleStage} {declared : Declared}
    {stage : ModuleStage}
    (rebuilt : GraphRuntime.rebuild stages declared = some stage) :
    stage.weights.map Weight.name = declared.parameters := by
  unfold GraphRuntime.rebuild at rebuilt
  simp only [Option.bind_eq_bind, Option.bind_eq_some_iff, Option.some.injEq]
    at rebuilt
  obtain ⟨weights, listed, _, _, rfl⟩ := rebuilt
  replace listed := Dataflow.mapM_eq_some.mp listed
  change weights.map Weight.name = declared.parameters
  generalize declared.parameters = names at listed
  induction listed with
  | nil => rfl
  | cons first _ ih =>
      obtain ⟨handle, _, rfl⟩ := Option.map_eq_some_iff.mp first
      rw [List.map_cons, ih]

/-- The record of a group after `_repartition`. -/
def rebuildRecord (stages : List (Record γ)) (declared : Declared)
    (named : declared.parameters.Nodup) : Option (Record γ) :=
  match rebuilt : GraphRuntime.rebuild (stages.map Record.stage) declared with
  | none => none
  | some stage => some {
      stage := stage
      gradients := tableOf (gradientHandle stages) declared.parameters
      optimizerState := tableOf (optimizerState stages) declared.parameters
      parameters := by
        rw [rebuild_names rebuilt]
        exact named }

section

variable (model : GraphModel τ γ σ)

def addRecord (stages : List (Record γ)) (chunk : List FxNode) :
    GraphStepping τ γ σ Unit := do
  match rebuildRecord stages (model.declares chunk) (model.named chunk) with
  | none => throw (.error "KeyError")
  | some record =>
      changing fun runtime =>
        { runtime with stages := runtime.stages ++ [record] }

def syncModes : GraphStepping τ γ σ Unit := do
  raising (model.syncModes (← get).clock)

/-- `_repartition` -/
def repartition (chunks : List (List FxNode)) : GraphStepping τ γ σ Unit := do
  let stages := (← get).session.runtime.stages
  modify fun course =>
    { course with ir := course.ir.frontend.makeIr chunks }
  changing fun runtime => { runtime with stages := [] }
  each (addRecord model stages) chunks
  syncModes model

def checkBudget (nodes : List FxNode) : GraphStepping τ γ σ Unit := do
  raising (model.budget (← get).clock nodes)
  -- `ensure_cuda_capacity`
  inside call

def firstExceeding (inputs : List (Value τ γ σ)) (clock index : Nat) :
    List Group → Except Raised (Option Nat)
  | [] => .ok none
  | group :: rest => do
      if ← model.exceeds clock inputs group.nodes then
        pure (some index)
      else
        firstExceeding inputs clock (index + 1) rest

/-- `_preflight`; it starts again after each cut. -/
def preflight (inputs : List (Value τ γ σ)) : Nat → GraphStepping τ γ σ Unit
  | 0 => throw (.error "unfinished")
  | rounds + 1 => do
      let course ← get
      match ← raising
          (firstExceeding model inputs course.clock 0 course.ir.groups) with
      | none => pure ()
      | some index => do
          let chunks := course.ir.groups.map Group.nodes
          let nodes := (chunks[index]?).getD []
          if nodes.length = 1 then
            checkBudget model nodes
          repartition model (FxGraph.splitChunk chunks index)
          preflight inputs rounds

end

/-! The forward pass. -/

def snapshotBuffer (buffer : Buffer) : GraphStepping τ γ σ Unit := do
  let handle ← inside do
    let value ← restore buffer.handle
    offload value
  modify fun course => { course with tape := { course.tape with
    buffers := course.tape.buffers.modify (course.tape.buffers.length - 1)
      (· ++ [(buffer.name, handle)]) } }

def replaceBuffer (index : Nat) (mutated : Nat → τ) (buffer : Buffer) :
    Stepping τ γ Unit := do
  let replacement ← offload (mutated buffer.name)
  free buffer.handle
  alter index (Record.setBuffer buffer.name replacement)

def restoreNamed (entry : Nat × Handle) : Stepping τ γ (Nat × τ) := do
  let value ← restore entry.2
  pure (entry.1, value)

def consume (save : Bool) (name : NodeName) : GraphStepping τ γ σ Unit := do
  let left := (← get).remaining name - 1
  modify fun course => { course with
    remaining := Function.update course.remaining name left }
  if !save && left = 0 then
    dropValue name

section

variable (model : GraphModel τ γ σ)

/-- The functional call of a group, and what becomes of its results. -/
def callGroup (save : Bool) (index : Nat) (group : Group)
    (stage : ModuleStage) (arguments : List (Value τ γ σ)) :
    GraphStepping τ γ σ Unit := do
  modify fun course => { course with
    ran := course.ran ++ [course.session.ranWith group stage] }
  let state ← inside (collect restoreNamed (stage.stateHandles []))
  -- The random numbers, and the call.
  inside call
  inside call
  let operators := model.operators (← get).clock
  match GraphRuntime.functionalCall operators index group state arguments with
  | none => throw (.error "functional_call")
  | some results => do
      inside (each (replaceBuffer index
        (operators.mutate index state arguments))
        (stage.buffers.filter Buffer.batchNorm))
      each keepValue (group.outputs.zip results)
      each (consume save) group.inputs

def runGroup (save : Bool) (index : Nat) (group : Group) (stage : ModuleStage) :
    GraphStepping τ γ σ Unit := do
  checkBudget model group.nodes
  let arguments ← collect readValue group.inputs
  modify fun course => { course with tape := { course.tape with
    buffers := course.tape.buffers ++ [[]] } }
  if save then
    each snapshotBuffer (stage.buffers.filter Buffer.batchNorm)
  callGroup model save index group stage arguments

def executeGroup (save : Bool) (entry : Group × Nat) :
    GraphStepping τ γ σ Unit := do
  match (← get).session.runtime.stages[entry.2]? with
  | none => throw (.error "ValueError: zip() argument 2 is shorter")
  | some record => runGroup model save entry.2 entry.1 record.stage

def readOutput : OutputLeaf γ → GraphStepping τ γ σ Unit
  | .constant _ => pure ()
  | .node name => do
      let _ ← readValue name
      pure ()

def execute (save : Bool) (inputs : List (Value τ γ σ)) :
    GraphStepping τ γ σ Unit := do
  let ir := (← get).ir
  modify fun course => { course with
    tape := ⟨∅, []⟩
    gradients := ∅
    ran := []
    remaining := fun name => (ir.consumers name).length }
  tryCatch (do
    each keepValue (ir.frontend.placeholders.zip inputs)
    each (executeGroup model save) ir.groups.zipIdx
    each readOutput ir.frontend.output.leaves) fun raised => do
      releaseTape
      throw raised

def reported (message : String) (raised : Raised) : Raised :=
  if raised = .outOfMemory then .error message else raised

/-- `_GraphAutograd.apply` -/
def applyForward (inputs : List (Value τ γ σ)) : GraphStepping τ γ σ Unit := do
  execute model true inputs
  modify fun course => { course with
    contexts := course.contexts ++ [{
      clock := course.clock
      leaves := (inputs.map (·.leaves.length)).sum
      tape := course.tape
      ran := course.ran }] }

def abandon (raised : Raised) : GraphStepping τ γ σ Unit := do
  changing ({ · with pending := false, failed := true })
  throw (reported
    "TRAINPOOL_UNSUPPORTED_WORKING_SET: CUDA allocation during graph forward"
    raised)

def misplaced (inputs : List (Value τ γ σ)) : Bool :=
  inputs.any fun value => value.leaves.any fun
    | .tensor tensor => !model.onDevice tensor
    | .constant _ => false
    | .none => false

/-- `training` says whether gradients are enabled, too. -/
def forward (inputs : List (Value τ γ σ)) (training autocast : Bool) :
    GraphStepping τ γ σ Unit := do
  let course ← get
  match refuseGraph course.session.runtime with
  | some message => throw (.error message)
  | none =>
      if autocast then
        throw (.error
          "TRAINPOOL_UNSUPPORTED_GRAPH: autocast is not supported")
      else if inputs.length ≠ course.ir.frontend.placeholders.length then
        throw (.error "TypeError: missing or unexpected argument")
      else if misplaced model inputs then
        throw (.error
          s!"TRAINPOOL_NO_CUDA_FALLBACK: input must be on {model.device}")
      else do
        modify fun course => { course with clock := course.clock + 1 }
        syncModes model
        preflight model inputs model.rounds
        if training then
          changing ({ · with pending := true, backwardComplete := false })
          tryCatch (applyForward model inputs) abandon
        else
          execute model false inputs
          releaseTape

end

/-! The backward pass. -/

def saveGradient (name : NodeName) (values : Gradient τ σ) :
    GraphStepping τ γ σ Unit := do
  let saved ← inside (saveTree values)
  modify fun course =>
    { course with gradients := course.gradients.insert name saved }

/-- `gradients.pop(name)` -/
def popGradient (name : NodeName) : GraphStepping τ γ σ Unit :=
  modify fun course =>
    { course with gradients := course.gradients.erase name }

def accumulate (add : τ → τ → τ) (entry : NodeName × Gradient τ σ) :
    GraphStepping τ γ σ Unit := do
  match (← get).gradients.lookup entry.1 with
  | none => saveGradient entry.1 entry.2
  | some previous => do
      popGradient entry.1
      let old ← inside (restoreTree previous)
      if old.leaves.length ≠ entry.2.leaves.length then
        throw (.error "ValueError: zip() argument 2")
      else do
        inside (freeTree previous)
        saveGradient entry.1 (Gradient.sum add old entry.2)

/-- `seed` over the output structure. -/
def seed (add : τ → τ → τ) : List (OutputLeaf γ) → List (Option τ) →
    GraphStepping τ γ σ Unit
  | [], _ => pure ()
  | .constant _ :: rest, gradOutputs => seed add rest gradOutputs
  | .node name :: rest, gradOutputs => do
      match (← get).tape.values.lookup name with
      | none => throw (.error s!"KeyError: {name}")
      | some saved =>
          match GraphRuntime.takeGradients saved.leaves gradOutputs with
          | none => throw (.error "StopIteration")
          | some (leaves, gradOutputs) => do
              accumulate add (name, ⟨leaves, saved.spec⟩)
              seed add rest gradOutputs

def collectOutput (requires : NodeName → Nat → Bool)
    (entry : NodeName × Value τ γ σ) :
    GraphStepping τ γ σ (List ((NodeName × Nat) × τ)) := do
  match (← get).gradients.lookup entry.1 with
  | none => pure []
  | some saved => do
      popGradient entry.1
      let grad ← inside (restoreTree saved)
      inside (freeTree saved)
      if entry.2.leaves.length ≠ grad.leaves.length then
        throw (.error "ValueError: zip() argument 2")
      else
        pure (GraphRuntime.upstream requires entry.1 entry.2 grad)

def note (position : Nat)
    (change : GraphContext τ γ σ → GraphContext τ γ σ) :
    GraphStepping τ γ σ Unit :=
  modify fun course =>
    { course with contexts := course.contexts.modify position change }

def storeGradient (position index : Nat) (derivative : Target → Option τ)
    (name : ParameterName) : GraphStepping τ γ σ Unit :=
  match derivative (.parameter name) with
  | none => pure ()
  | some value => do
      inside do
        let handle ← offload value
        alter index (Record.setGradient name handle)
      note position fun context => { context with
        produced := context.produced ++ [((index, name), value)] }

def reverseGroup (operators : Operators τ γ σ) (autograd : Autograd τ γ σ)
    (position index : Nat) (group : Group) (stage : ModuleStage) :
    GraphStepping τ γ σ Unit := do
  let arguments ← collect readValue group.inputs
  let course ← get
  let snapshot := (course.tape.buffers[index]?).getD []
  note position fun context => { context with
    reran := context.reran ++
      [(index, course.session.ranWith group stage)] }
  let state ← inside (collect restoreNamed (stage.stateHandles snapshot))
  -- The functional call and its gradients.
  inside call
  match GraphRuntime.functionalCall operators index group state arguments with
  | none => throw (.error "functional_call")
  | some results => do
      let named := group.inputs.zip arguments
      let names := GraphRuntime.trainableNames stage
      let targets :=
        GraphRuntime.argumentTargets autograd.isFloatingPoint named ++
          names.map .parameter
      let outputs ← collect (collectOutput
        (autograd.requiresGrad index state arguments targets))
        (group.outputs.zip results)
      let derivative := GraphRuntime.derivatives autograd index state
        arguments targets outputs.flatten
      each (accumulate autograd.add) (named.map
        (GraphRuntime.inputGradient autograd.isFloatingPoint derivative))
      each (storeGradient position index derivative) names
      each dropValue group.outputs

section

variable (model : GraphModel τ γ σ)

def reverseStep (position clock : Nat) (entry : Group × Nat) :
    GraphStepping τ γ σ Unit := do
  let course ← get
  if entry.1.outputs.any (· ∈ course.gradients) then
    match course.session.runtime.stages[entry.2]? with
    | none => throw (.error "IndexError: list index out of range")
    | some record => do
        checkBudget model entry.1.nodes
        reverseGroup (model.operators clock) (model.autograd clock) position
          entry.2 entry.1 record.stage

def readGradient (name : NodeName) : GraphStepping τ γ σ Nat := do
  let course ← get
  match course.gradients.lookup name with
  | some saved => do
      let values ← inside (restoreTree saved)
      pure values.leaves.length
  | none =>
      match course.tape.values.lookup name with
      | none => throw (.error s!"KeyError: {name}")
      | some saved => pure saved.leaves.length

def freeGradients : GraphStepping τ γ σ Unit := do
  let gradients := (← get).gradients
  inside (each freeTree (gradients.entries.map Sigma.snd))

def reverse (position clock : Nat) (gradOutputs : List (Option τ)) :
    GraphStepping τ γ σ Nat := do
  let ir := (← get).ir
  modify fun course => { course with gradients := ∅ }
  seed (model.autograd clock).add ir.frontend.output.leaves gradOutputs
  ensuring (do
    each (reverseStep model position clock) ir.groups.zipIdx.reverse
    let leaves ← collect readGradient ir.frontend.placeholders
    -- `flush_metrics`
    inside call
    pure leaves.sum) freeGradients

/-- `fail` of a backward. -/
def failBackward (raised : Raised) : GraphStepping τ γ σ Unit := do
  changing ({ · with failed := true })
  throw (reported
    "TRAINPOOL_UNSUPPORTED_WORKING_SET: CUDA allocation during graph backward"
    raised)

def backwardOf (position : Nat) (context : GraphContext τ γ σ)
    (gradOutputs : List (Option τ)) : GraphStepping τ γ σ Unit := do
  let leaves ← reverse model position context.clock gradOutputs
  changing ({ · with backwardComplete := true })
  note position ({ · with completed := true })
  if leaves ≠ context.leaves then
    throw (.error "ValueError: zip() argument 2")

def backward (position : Nat) (gradOutputs : List (Option τ)) :
    GraphStepping τ γ σ Unit := do
  match (← get).contexts[position]? with
  | none => throw (.error "no such forward")
  | some context =>
      if context.consumed then
        throw (.error "TRAINPOOL_UNSUPPORTED_GRAPH: one backward per forward; retain_graph unsupported")
      else do
        note position ({ · with consumed := true })
        modify fun course => { course with
          latest := some position
          tape := context.tape }
        ensuring (tryCatch (backwardOf model position context gradOutputs)
          failBackward) releaseTape

/-! The step of the optimizer, with the gradients that it applies. -/

def applicable (session : Session τ γ) (index : Nat) (name : ParameterName) :
    Option τ := do
  let record ← session.runtime.stages[index]?
  let _ ← record.stage.weightOf name
  let gradient ← record.gradients.lookup name
  if record.stage.trains name then some (session.read gradient) else none

def applyParameter (index : Nat) (name : ParameterName) :
    GraphStepping τ γ σ Unit := do
  modify fun course =>
    (applicable course.session index name).elim course fun value =>
      { course with applied := course.applied ++
          [⟨course.latest, (index, name), value⟩] }
  inside (stepParameter model.optimizer index name)

def applyRecord (index : Nat) : GraphStepping τ γ σ Unit := do
  match (← get).session.runtime.stages[index]? with
  | none => pure ()
  | some record =>
      if record.stage.weights.any Weight.trainable then
        each (applyParameter model index)
          (record.stage.weights.map Weight.name)

def failStep (raised : Raised) : Stepping τ γ Unit := do
  change ({ · with failed := true })
  if raised = .outOfMemory then
    match model.optimizer.snapshot with
    | .error other => throw other
    | .ok snapshot =>
        let context := (← get).context
        let diagnostic := snapshot.elim "" (s!" {·}")
        throw (.error s!"TRAINPOOL_UNSUPPORTED_WORKING_SET: {context}{diagnostic}")
  else
    throw raised

def step : GraphStepping τ γ σ Unit := do
  let runtime := (← get).session.runtime
  if runtime.failed || !runtime.backwardComplete then
    throw (.error "Complete a successful backward before optimizer.step")
  else do
    inside (modify ({ · with context := "optimizer admission did not start" }))
    tryCatch (do
      each (applyRecord model) (List.range runtime.stages.length)
      changing ({ · with pending := false, backwardComplete := false })
      inside call) fun raised => inside (failStep model raised)

end

/-! Runs. -/

/-- What the owner of a model asks of it.  A backward says of which forward. -/
inductive Operation (τ γ σ : Type) where
  | forward (inputs : List (Value τ γ σ)) (training autocast : Bool)
  | backward (position : Nat) (gradOutputs : List (Option τ))
  | zeroGrad (setToNone : Bool)
  | step
  | loadStateDict (checkpoint : List (Nat × Leaf τ γ)) (strict assign : Bool)
  | loadOptimizer (checkpoint : SavedOptimizer τ γ)
  | convertDtype (dtype : Nat)
  | stateDict
  | optimizerStateDict

section

variable (model : GraphModel τ γ σ)

def perform : Operation τ γ σ → GraphStepping τ γ σ Unit
  | .forward inputs training autocast =>
      forward model inputs training autocast
  | .backward position gradOutputs => backward model position gradOutputs
  | .zeroGrad setToNone => inside (Sequential.zeroGrad setToNone)
  | .step => step model
  | .loadStateDict checkpoint strict assign => do
      let _ ← inside (loadStateDict model.kinds checkpoint strict assign)
      pure ()
  | .loadOptimizer checkpoint =>
      inside (loadOptimizer model.kinds model.attached checkpoint)
  | .convertDtype dtype => inside (convertDtype model.kinds dtype)
  | .stateDict => do
      let _ ← inside stateDict
      pure ()
  | .optimizerStateDict => do
      let _ ← inside optimizerStateDict
      pure ()

abbrev Turn (τ γ σ : Type) := Operation τ γ σ × List (Option Raised)

/-- The runtime after an operation, whether it has raised or not. -/
def turn (course : GraphSession τ γ σ) (turn : Turn τ γ σ) :
    GraphSession τ γ σ :=
  ((perform model turn.1).run { course with
    session := { course.session with faults := turn.2 } }).2

def run (turns : List (Turn τ γ σ)) (course : GraphSession τ γ σ) :
    GraphSession τ γ σ :=
  turns.foldl (GraphSession.turn model) course

end

end GraphSession

end TrainPool
