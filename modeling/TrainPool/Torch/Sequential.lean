import TrainPool.Library.Mirror
import TrainPool.Torch.Step

namespace TrainPool

open HandleStore Failing

/-! The sequential runtime, which may load the weights of the next stage ahead
of their use. -/

/-- What the operations of a sequential runtime read besides its records.  A
budget of zero stands for none. -/
structure Sequential (τ γ : Type) where
  device : String
  onDevice : τ → Bool
  floating : τ → Bool
  requiresGrad : τ → Bool
  cuda : Bool
  budget : Nat
  bytes : τ → Nat
  apply : Nat → List (ParameterName × τ) → τ → τ
  gradients : Nat → List (ParameterName × τ) → List ParameterName → τ → τ →
    Option τ × (ParameterName → Option τ)
  zeros : τ → τ
  convert : Nat → τ → τ
  optimizer : Optimizer τ γ

namespace Runtime

variable {γ : Type} (runtime : Runtime γ)

/-- `_gradients.values()` -/
def gradientsOf (index : Nat) : List Handle :=
  (runtime.stages[index]?).elim [] fun record =>
    record.gradients.entries.map Sigma.snd

end Runtime

/-- `record.gradients.clear()` -/
def Record.clearGradients {γ : Type} (record : Record γ) : Record γ :=
  { record with gradients := ∅ }

namespace Sequential

open Training

variable {τ γ : Type}

def loadWeight (weight : Weight) : Stepping τ γ (ParameterName × τ) := do
  let value ← restore weight.handle
  pure (weight.name, value)

def loadWeights (index : Nat) :
    Stepping τ γ (List (ParameterName × τ)) := do
  match (← get).runtime.stages[index]? with
  | none => pure []
  | some record => collect loadWeight record.stage.weights

/-- The load that is under way is waited for.  An interrupt of the wait is one
of the load. -/
def await (load : Prefetch τ) : Stepping τ γ (List (ParameterName × τ)) := do
  let session ← get
  let finished := { session with prefetch := some load }.works
    (session.weights load.index).length
  set { finished with prefetch := none }
  match finished.prefetch with
  | none => pure []
  | some load =>
      match load.raised with
      | some raised => throw raised
      | none => pure load.loaded

/-- `SequentialPrefetch.take` and, where nothing is loaded ahead,
`NoPrefetch.take`. -/
def take (ahead : Bool) (phase : TrainingPhase) (index : Nat) :
    Stepping τ γ (List (ParameterName × τ)) := do
  if ahead then
    match (← get).prefetch with
    | none => loadWeights index
    | some load =>
        if load.phase = phase ∧ load.index = index then
          await load
        else
          loadWeights index
  else
    loadWeights index

/-- `SequentialPrefetch.schedule` and `NoPrefetch.schedule`. -/
def schedule (ahead : Bool) (phase : TrainingPhase) (index : Nat) :
    Stepping τ γ Unit :=
  modify fun session =>
    if ahead ∧ session.prefetch = none then
      { session with prefetch := some { phase, index } }
    else
      session

def scheduleWeights (ahead : Bool) (phase : TrainingPhase) (index : Int) :
    Stepping τ γ Unit := do
  if 0 ≤ index ∧ index < (← get).runtime.stages.length then
    schedule ahead phase index.toNat

def hand (ahead : Bool) (phase : TrainingPhase) (index : Nat) :
    Stepping τ γ (List (ParameterName × τ)) := do
  let given ← take ahead phase index
  modify fun session => { session with
    handed := session.handed ++ [⟨index, given, session.weights index⟩] }
  pure given

def release (handles : List Handle) : Stepping τ γ Unit :=
  each (fun handle => suppress (free handle)) handles

/-! The forward pass. -/

/-- `ctx.inputs.append(saved)`, for the last context. -/
def remember (saved : Handle) : Stepping τ γ Unit :=
  modify fun session => { session with
    contexts := session.contexts.modify (session.contexts.length - 1)
      fun context => { context with inputs := context.inputs ++ [saved] } }

section

variable (model : Sequential τ γ)

def forwardStage (ahead : Bool) (index : Nat) (value : τ) :
    Stepping τ γ τ := do
  let weights ← hand ahead .forward index
  let saved ← offload value
  remember saved
  -- The states of the random numbers.
  call
  scheduleWeights ahead .forward (index + 1)
  -- The functional call.
  call
  pure (model.apply index weights value)

def forwardStages (ahead : Bool) : List Nat → τ → Stepping τ γ τ
  | [], value => pure value
  | index :: rest, value => do
      let value ← forwardStage model ahead index value
      forwardStages ahead rest value

def abandon {α : Type} (raised : Raised) : Stepping τ γ α := do
  change ({ · with pending := false })
  let contexts := (← get).contexts
  modify fun session => { session with contexts := contexts.dropLast }
  release (contexts.getLast?.elim [] SavedContext.inputs)
  throw raised

def trainForward (ahead : Bool) (value : τ) : Stepping τ γ τ := do
  change ({ · with pending := true, backwardComplete := false })
  -- The trigger.
  call
  modify fun session => { session with
    contexts := session.contexts ++
      [{ inputs := [], inputRequiresGrad := model.requiresGrad value }] }
  let count := (← get).runtime.stages.length
  tryCatch (forwardStages model ahead (List.range count) value) abandon

def evaluateStage (index : Nat) (value : τ) : Stepping τ γ τ := do
  let weights ← loadWeights index
  call
  pure (model.apply index weights value)

def evaluate : List Nat → τ → Stepping τ γ τ
  | [], value => pure value
  | index :: rest, value => do
      let value ← evaluateStage model index value
      evaluate rest value

def requiredBytes (runtime : Runtime γ) (value : τ) : Nat :=
  let weightBytes := runtime.stages.map fun record =>
    record.stage.weights.map fun weight =>
      model.optimizer.size weight.handle
  let largest := (weightBytes.map List.sum).max?.getD 0
  let activation := model.bytes value
  let forwardPeak := largest + 2 * activation
  let backwardPeak := 2 * largest + 3 * activation
  let optimizerPeak := 5 * (weightBytes.flatten.max?.getD 0)
  max (max forwardPeak backwardPeak) optimizerPeak +
    max largest activation / 10

def checkBudget (value : τ) : Stepping τ γ Unit := do
  let required := model.requiredBytes (← get).runtime value
  if model.budget = 0 then
    pure ()
  else if model.budget < required then
    throw (.error s!"TRAINPOOL_STAGE_TOO_LARGE: phase peak {required} exceeds stage budget {model.budget}")
  else if model.cuda then
    ensureCudaCapacity required ""

/-- `training` says whether gradients are enabled, too. -/
def forward (ahead : Bool) (value : τ) (training : Bool) :
    Stepping τ γ τ := do
  let runtime := (← get).runtime
  if !model.onDevice value then
    throw (.error s!"TRAINPOOL_NO_CUDA_FALLBACK: input must be on {model.device}")
  else
    match refuseSequential runtime with
    | some message => throw (.error message)
    | none =>
        if !model.floating value then
          throw (.error "Sequential MVP accepts floating-point inputs")
        else
          checkBudget model value
          if training then
            trainForward model ahead value
          else
            evaluate model (List.range runtime.stages.length) value

/-! The backward pass. -/

def storeGradient (index : Nat) (gradient : ParameterName → Option τ)
    (name : ParameterName) : Stepping τ γ Unit :=
  match gradient name with
  | none => pure ()
  | some value => do
      let handle ← offload value
      alter index (Record.setGradient name handle)

def trainable (runtime : Runtime γ) (index : Nat)
    (weights : List (ParameterName × τ)) : List ParameterName :=
  (weights.map Prod.fst).filter fun name =>
    (runtime.stages[index]?).any fun record => record.stage.trains name

def backwardStage (ahead : Bool) (inputs : List Handle) (index : Nat)
    (slope : τ) : Stepping τ γ τ := do
  let weights ← hand ahead .backward index
  match inputs[index]? with
  | none => throw (.error "list index out of range")
  | some saved =>
      let value ← restore saved
      scheduleWeights ahead .backward (index - 1)
      -- The functional call and its gradients.
      call
      let names := trainable (← get).runtime index weights
      let gradients := model.gradients index weights names value slope
      each (storeGradient index gradients.2) names
      free saved
      pure (gradients.1.getD (model.zeros value))

def backwardStages (ahead : Bool) (inputs : List Handle) :
    List Nat → τ → Stepping τ γ τ
  | [], slope => pure slope
  | index :: rest, slope => do
      let slope ← backwardStage model ahead inputs index slope
      backwardStages ahead inputs rest slope

def fail {α : Type} (raised : Raised) : Stepping τ γ α := do
  change ({ · with failed := true })
  throw raised

def backwardOf (ahead : Bool) (context : SavedContext) (slope : τ) :
    Stepping τ γ (Option τ) := do
  let count := (← get).runtime.stages.length
  let slope ← backwardStages model ahead context.inputs
    (List.range count).reverse slope
  change ({ · with backwardComplete := true })
  -- `flush_metrics`
  call
  pure (if context.inputRequiresGrad then some slope else none)

def backward (ahead : Bool) (position : Nat) (slope : τ) :
    Stepping τ γ (Option τ) := do
  match (← get).contexts[position]? with
  | none => throw (.error "no such forward")
  | some context =>
      if context.consumed then
        throw (.error "TrainPool supports one backward per forward; retain_graph is unsupported")
      else
        modify fun session => { session with
          contexts := session.contexts.modify position
            ({ · with consumed := true }) }
        ensuring (tryCatch (backwardOf model ahead context slope) fail)
          (release context.inputs)

end

/-! Between the steps. -/

def zeroRecord (index : Nat) : Stepping τ γ Unit := do
  each free ((← get).runtime.gradientsOf index)
  alter index Record.clearGradients

def zeroGrad (setToNone : Bool) : Stepping τ γ Unit := do
  let runtime := (← get).runtime
  if !setToNone then
    throw (.error "Capacity optimizer supports zero_grad(set_to_none=True)")
  else if runtime.pending && !runtime.backwardComplete then
    throw (.error "Cannot zero gradients while a forward is awaiting backward")
  else
    each zeroRecord (List.range runtime.stages.length)
    change ({ · with pending := false, backwardComplete := false })

section

variable (model : Sequential τ γ)

def convertWeight (dtype : Nat) (weight : Weight) :
    Stepping τ γ (Weight × Handle) := do
  let value ← restore weight.handle
  let replacement ← offload (model.convert dtype value)
  pure (weight, replacement)

def replaceWeight (index : Nat) (replaced : Weight × Handle) :
    Stepping τ γ Unit := do
  free replaced.1.handle
  alter index (Record.setWeight replaced.1.name replaced.2)

def convertRecord (dtype : Nat) (index : Nat) : Stepping τ γ Unit := do
  match (← get).runtime.stages[index]? with
  | none => pure ()
  | some record =>
      let replacements ← collect (convertWeight model dtype)
        record.stage.weights
      each (replaceWeight index) replacements
      -- The template.
      call

def convertDtype (dtype : Nat) : Stepping τ γ Unit := do
  let count := (← get).runtime.stages.length
  each (convertRecord model dtype) (List.range count)

end

/-- What the owner of a model asks of it.  A backward says of which forward. -/
inductive Operation (τ : Type) where
  | forward (value : τ) (training : Bool)
  | backward (position : Nat) (slope : τ)
  | zeroGrad (setToNone : Bool)
  | step
  | convertDtype (dtype : Nat)
  deriving DecidableEq, Repr

/-- With `prefetch_depth` 1 weights are loaded ahead, with 0 they are not. -/
def perform (model : Sequential τ γ) (ahead : Bool) :
    Operation τ → Stepping τ γ (Option τ)
  | .forward value training => do
      let value ← forward model ahead value training
      pure (some value)
  | .backward position slope => backward model ahead position slope
  | .zeroGrad setToNone => do
      zeroGrad setToNone
      pure none
  | .step => do
      step model.optimizer
      pure none
  | .convertDtype dtype => do
      convertDtype model dtype
      pure none

def run (model : Sequential τ γ) (ahead : Bool) : List (Operation τ) →
    Session τ γ → List (Except Raised (Option τ)) × Session τ γ
  | [], session => ([], session)
  | operation :: rest, session =>
      let (result, next) := (perform model ahead operation).run session
      let (results, final) := run model ahead rest next
      (result :: results, final)

end Sequential

end TrainPool
