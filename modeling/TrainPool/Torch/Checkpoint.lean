import TrainPool.Torch.Entries

namespace TrainPool

open HandleStore Failing

/-! Checkpoints of a model and of the optimizer that is attached to it. -/

namespace Runtime

variable {γ : Type} (runtime : Runtime γ)

/-- `self.records[name]`; the last of the stages counts. -/
def recordOf (name : ParameterName) : Option Nat :=
  let named (record : Record γ) := record.stage.weights.any (·.name = name)
  match (runtime.stages.zipIdx.filter (named ·.1)).getLast? with
  | some record => some record.2
  | none =>
      if named runtime.dormant then some runtime.stages.length else none

/-- `parameter_entries()`, with the positions of the records. -/
def parameterEntries : Option (List (Nat × ParameterName)) :=
  match runtime.parameterOrder with
  | some order => order.mapM fun name =>
      (runtime.recordOf name).map fun index => (index, name)
  | none => some (runtime.stages.zipIdx.flatMap fun record =>
      record.1.stage.weights.map fun weight => (record.2, weight.name))

end Runtime

namespace Training

variable {τ γ : Type}

/-! What both loads do: they upload tensor by tensor, and free what they have
uploaded where they cannot go on. -/

/-- Each item is what the load makes of an entry, or what it raises there. -/
def stage {β : Type} (done : List Handle) :
    List (β × Except Raised τ) → Stepping τ γ (List (β × Handle))
  | [] => pure []
  | (_, .error raised) :: _ => do
      each free done
      throw raised
  | (label, .ok value) :: rest => do
      let handle ← publish done value
      let others ← stage (done ++ [handle]) rest
      pure ((label, handle) :: others)

def stopAt {α : Type} (body : Stepping τ γ α) : Stepping τ γ α :=
  tryCatch body fun raised => do
    change ({ · with failed := true })
    throw raised

/-! The model. -/

def stateEntry (runtime : Runtime γ) (name : Nat) :
    Stepping τ γ (Nat × Leaf τ γ) :=
  match runtime.stateHandle name with
  | none => throw (.error s!"KeyError: {name}")
  | some handle => do
      let value ← restore handle
      pure (name, .tensor value)

def stateDict : Stepping τ γ (List (Nat × Leaf τ γ)) := do
  let runtime := (← get).runtime
  collect (stateEntry runtime) runtime.stateNames

section

variable (kinds : Kinds τ γ)

def castEntry (session : Session τ γ) (entry : Entry) (leaf : Leaf τ γ) :
    Except Raised τ :=
  let current := session.read entry.handle
  match leaf with
  | .tensor value =>
      if kinds.shape value = kinds.shape current then
        .ok (kinds.cast (kinds.dtype current) value)
      else
        .error (.error s!"state_dict size mismatch: {entry.name}")
  | _ => .error (.error s!"state_dict size mismatch: {entry.name}")

def modelItems (session : Session τ γ) (checkpoint : List (Nat × Leaf τ γ)) :
    List (Entry × Except Raised τ) :=
  session.runtime.entries.filterMap fun entry =>
    (checkpoint.lookup entry.name).map fun leaf =>
      (entry, castEntry kinds session entry leaf)

/-- `missing` and `unexpected`. -/
def incompatible (runtime : Runtime γ) (checkpoint : List (Nat × Leaf τ γ)) :
    List Nat × List Nat :=
  let keys := checkpoint.map Prod.fst
  ((runtime.stateNames.filter (· ∉ keys)).mergeSort (· ≤ ·),
    (keys.filter (· ∉ runtime.stateNames)).mergeSort (· ≤ ·))

def prepareModel (checkpoint : List (Nat × Leaf τ γ)) (strict assign : Bool) :
    Stepping τ γ (List (Entry × Handle)) := do
  let session ← get
  let names := incompatible session.runtime checkpoint
  if session.runtime.pending || assign then
    throw (.error "TRAINPOOL_CHECKPOINT_UNSUPPORTED: pending step or assign=True")
  else if strict && !(names.1.isEmpty && names.2.isEmpty) then
    throw (.error s!"state_dict missing keys: {names.1}; unexpected keys: {names.2}")
  else
    stage [] (modelItems kinds session checkpoint)

def publishEntry (replacement : Entry × Handle) : Stepping τ γ Unit := do
  match (← get).runtime.held replacement.1.slot with
  | none => throw (.error s!"KeyError: {replacement.1.name}")
  | some old => do
      alter replacement.1.index
        (Record.put replacement.1.part replacement.2)
      free old

def loadStateDict (checkpoint : List (Nat × Leaf τ γ))
    (strict assign : Bool) : Stepping τ γ (List Nat × List Nat) := do
  let runtime := (← get).runtime
  let replacements ← prepareModel kinds checkpoint strict assign
  stopAt (each publishEntry replacements)
  pure (incompatible runtime checkpoint)

end

end Training

/-! The optimizer. -/

structure SavedGroup (γ : Type) where
  params : List Nat
  options : Table String γ

structure SavedOptimizer (τ γ : Type) where
  state : Option (List (Nat × StateDict τ γ))
  groups : List (SavedGroup γ)

/-- The attached optimizer: an SGD, an Adam or an AdamW, and whether options
make one that is supported. -/
structure Attached (γ : Type) where
  sgd : Bool
  check : Table String γ → Except Raised Unit

namespace Attached

variable {γ : Type} (attached : Attached γ)

def allowed : List String :=
  if attached.sgd then ["momentum_buffer"]
  else ["step", "exp_avg", "exp_avg_sq", "max_exp_avg_sq"]

def required : List String :=
  if attached.sgd then [] else ["step", "exp_avg", "exp_avg_sq"]

def accepts {α : Type} (state : StateDict α γ) : Bool :=
  state.isEmpty || ((state.all fun entry => entry.1 ∈ attached.allowed) &&
    attached.required.all fun key => state.any (·.1 = key))

end Attached

namespace Training

variable {τ γ : Type}

def restoreState (runtime : Runtime γ)
    (item : (Nat × ParameterName) × Nat) :
    Stepping τ γ (Option (Nat × StateDict τ γ)) :=
  let state := runtime.stateOf item.1
  if state.isEmpty then
    pure none
  else do
    let values ← collect restoreEntry state
    pure (some (item.2, values))

def optimizerStateDict : Stepping τ γ (SavedOptimizer τ γ) := do
  let runtime := (← get).runtime
  match runtime.parameterEntries with
  | none => throw (.error "KeyError")
  | some keys => do
      let state ← collect (restoreState runtime) keys.zipIdx
      pure {
        state := some (state.filterMap id)
        groups := [⟨List.range runtime.groupSize, runtime.options⟩] }

section

variable (kinds : Kinds τ γ) (attached : Attached γ)

def stateTensor (key : Nat × ParameterName) (entry : String × Leaf τ γ) :
    Except Raised τ :=
  let unsupported : Raised := .error
    s!"TRAINPOOL_CHECKPOINT_UNSUPPORTED: {key.2}.{entry.1}"
  match entry.2 with
  | .tensor value => .ok value
  | .constant value =>
      if entry.1 = "step" then
        (kinds.number value).elim (.error unsupported) .ok
      else
        .error unsupported
  | .none => .error unsupported

def convertState (session : Session τ γ) (key : Nat × ParameterName)
    (entry : String × Leaf τ γ) : Except Raised τ := do
  let value ← stateTensor kinds key entry
  match session.runtime.held (key.1, .weight key.2) with
  | none => .error (.error s!"KeyError: {key.2}")
  | some weight =>
      let current := session.read weight
      if entry.1 = "step" then
        if kinds.numel value = 1 then
          .ok value
        else
          .error (.error s!"TRAINPOOL_CHECKPOINT_UNSUPPORTED: shape of {key.2}.{entry.1}")
      else if kinds.shape value = kinds.shape current then
        .ok (kinds.cast (kinds.dtype current) value)
      else
        .error (.error s!"TRAINPOOL_CHECKPOINT_UNSUPPORTED: shape of {key.2}.{entry.1}")

def parameterItems (session : Session τ γ)
    (item : (Nat × ParameterName) × StateDict τ γ) :
    List (((Nat × ParameterName) × String) × Except Raised τ) :=
  if attached.accepts item.2 then
    item.2.map fun entry =>
      ((item.1, entry.1), convertState kinds session item.1 entry)
  else
    [((item.1, ""), .error (.error
      s!"TRAINPOOL_CHECKPOINT_UNSUPPORTED: optimizer state for {item.1.2}"))]

/-- The checks before anything is uploaded: the state of each parameter in the
order of the model, and the options. -/
def checkOptimizer (runtime : Runtime γ) (checkpoint : SavedOptimizer τ γ) :
    Except Raised
      (List ((Nat × ParameterName) × StateDict τ γ) × Table String γ) :=
  if runtime.pending then
    .error (.error "TRAINPOOL_CHECKPOINT_UNSUPPORTED: pending training step")
  else
    match runtime.parameterEntries, checkpoint.groups with
    | none, _ => .error (.error "KeyError")
    | some keys, [group] =>
        if group.params.length ≠ keys.length then
          .error (.error "TRAINPOOL_UNSUPPORTED_OPTIMIZER: checkpoint parameter groups")
        else if ¬group.params.Nodup then
          .error (.error "TRAINPOOL_CHECKPOINT_UNSUPPORTED: invalid parameter indices")
        else
          match checkpoint.state with
          | none => .error (.error "KeyError: state")
          | some state =>
              if state.any fun entry => entry.1 ∉ group.params then
                .error (.error "TRAINPOOL_CHECKPOINT_UNSUPPORTED: invalid parameter indices")
              else do
                attached.check group.options
                pure ((keys.zip group.params).map fun item =>
                  (item.1, (state.lookup item.2).getD []), group.options)
    | _, _ => .error (.error "TRAINPOOL_UNSUPPORTED_OPTIMIZER: checkpoint parameter groups")

def publishParameter
    (staged : List (((Nat × ParameterName) × String) × Handle))
    (key : Nat × ParameterName) : Stepping τ γ Unit := do
  each free (stateHandles ((← get).runtime.stateOf key))
  alter key.1 (Record.setState key.2 ((staged.filter (·.1.1 = key)).map
    fun entry => (entry.1.2, .tensor entry.2)))

/-- `owner.param_groups[0].update(options)`, and the options of the
delegate. -/
def updateOptions (options : Table String γ) : Stepping τ γ Unit := do
  change fun runtime => { runtime with options := options ∪ runtime.options }
  match attached.check (← get).runtime.options with
  | .error raised => throw raised
  | .ok _ => pure ()

def optimizerItems (session : Session τ γ) (checkpoint : SavedOptimizer τ γ) :
    List (((Nat × ParameterName) × String) × Except Raised τ) :=
  match checkOptimizer attached session.runtime checkpoint with
  | .error _ => []
  | .ok (items, _) => items.flatMap (parameterItems kinds attached session)

/-- What comes before the publication: the parameters, their state and the
options. -/
def prepareOptimizer (checkpoint : SavedOptimizer τ γ) :
    Stepping τ γ (List (Nat × ParameterName) ×
      List (((Nat × ParameterName) × String) × Handle) × Table String γ) := do
  let session ← get
  match checkOptimizer attached session.runtime checkpoint with
  | .error raised => throw raised
  | .ok (items, options) => do
      let staged ← stage []
        (items.flatMap (parameterItems kinds attached session))
      pure (items.map Prod.fst, staged, options)

def loadOptimizer (checkpoint : SavedOptimizer τ γ) : Stepping τ γ Unit := do
  let (keys, staged, options) ← prepareOptimizer kinds attached checkpoint
  stopAt do
    each (publishParameter staged) keys
    updateOptions attached options

end

end Training

end TrainPool
