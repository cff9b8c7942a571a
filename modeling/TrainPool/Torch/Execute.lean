import TrainPool.Torch.Handles

namespace TrainPool

open HandleStore

/-! The forward pass over the groups of a graph. -/

/-- A parameter of a group.  `name` also tells parameters from buffers. -/
structure Weight where
  name : Nat
  handle : Handle
  trainable : Bool
  deriving DecidableEq, Repr

/-- A buffer of a group.  Those of BatchNorm modules are replaced by every
forward pass. -/
structure Buffer where
  name : Nat
  handle : Handle
  batchNorm : Bool
  deriving DecidableEq, Repr

/-- The record of a group; the buffers are a dictionary. -/
structure ModuleStage where
  weights : List Weight
  buffers : List Buffer
  distinct : (buffers.map Buffer.name).Nodup
  deriving DecidableEq

abbrev ModuleState (τ : Type) := List (Nat × τ)

/-- What the operators of the graph compute.  A node may read the state of its
group and the random numbers of the group, which are the same when the group is
run again; `mutate` is what a call leaves in a BatchNorm buffer. -/
structure Operators (τ γ σ : Type) where
  apply : Nat → ModuleState τ → FxNode → List (Value τ γ σ) → Value τ γ σ
  mutate : Nat → ModuleState τ → List (Value τ γ σ) → Nat → τ

structure Tape (γ σ : Type) where
  values : Table NodeName (SavedTree γ σ)
  buffers : List (List (Nat × Handle))

inductive ResultLeaf (τ γ σ : Type) where
  | value (value : Value τ γ σ)
  | constant (value : γ)

namespace ModuleStage

variable {τ : Type}

/-- The handles that `_state` restores; snapshots take the place of the buffers
they are of. -/
def stateHandles (stage : ModuleStage) (snapshot : List (Nat × Handle)) :
    List (Nat × Handle) :=
  stage.weights.map (fun weight => (weight.name, weight.handle)) ++
    stage.buffers.map fun buffer =>
      (buffer.name, (snapshot.lookup buffer.name).getD buffer.handle)

/-- `_state`. -/
def state (stage : ModuleStage) (snapshot : List (Nat × Handle))
    (store : HandleStore τ) : Option (ModuleState τ) :=
  (stage.stateHandles snapshot).mapM fun entry =>
    (store.restore entry.2).map fun value => (entry.1, value)

end ModuleStage

/-- Copies of the BatchNorm buffers, as they are before the group runs. -/
def snapshotBuffers {τ : Type} : List Buffer → HandleStore τ →
    Option (List (Nat × Handle) × HandleStore τ)
  | [], store => some ([], store)
  | buffer :: rest, store =>
      if buffer.batchNorm then do
        let value ← store.restore buffer.handle
        let (handle, store) := store.offload value
        let (snapshot, store) ← snapshotBuffers rest store
        some ((buffer.name, handle) :: snapshot, store)
      else
        snapshotBuffers rest store

def takeSnapshot {τ : Type} (save : Bool) (buffers : List Buffer)
    (store : HandleStore τ) :
    Option (List (Nat × Handle) × HandleStore τ) :=
  if save then snapshotBuffers buffers store else some ([], store)

def replaceBuffers {τ : Type} (mutated : Nat → τ) :
    List Buffer → HandleStore τ → List Buffer × HandleStore τ
  | [], store => ([], store)
  | buffer :: rest, store =>
      if buffer.batchNorm then
        let (replacement, store) := store.offload (mutated buffer.name)
        let store := store.free buffer.handle
        let (buffers, store) := replaceBuffers mutated rest store
        ({ buffer with handle := replacement } :: buffers, store)
      else
        let (buffers, store) := replaceBuffers mutated rest store
        (buffer :: buffers, store)

theorem replaceBuffers_names {τ : Type} (mutated : Nat → τ)
    (buffers : List Buffer) (store : HandleStore τ) :
    (replaceBuffers mutated buffers store).1.map Buffer.name =
      buffers.map Buffer.name := by
  induction buffers generalizing store with
  | nil => rfl
  | cons buffer rest ih =>
      unfold replaceBuffers
      split
      · simp [ih]
      · simp [ih]

def ModuleStage.replace {τ : Type} (mutated : Nat → τ) (stage : ModuleStage)
    (store : HandleStore τ) : ModuleStage × HandleStore τ :=
  ({ weights := stage.weights
     buffers := (replaceBuffers mutated stage.buffers store).1
     distinct := by
       rw [replaceBuffers_names]
       exact stage.distinct },
    (replaceBuffers mutated stage.buffers store).2)

namespace Tape

variable {τ γ σ : Type}

def restore (tape : Tape γ σ) (store : HandleStore τ) (name : NodeName) :
    Option (Value τ γ σ) := do
  let saved ← tape.values.lookup name
  saved.restore store

def saveAll : List (NodeName × Value τ γ σ) → Tape γ σ → HandleStore τ →
    Tape γ σ × HandleStore τ
  | [], tape, store => (tape, store)
  | (name, value) :: rest, tape, store =>
      let (saved, store) := SavedTree.save value store
      saveAll rest { tape with values := tape.values.insert name saved } store

def drop (name : NodeName) (tape : Tape γ σ) (store : HandleStore τ) :
    Option (Tape γ σ × HandleStore τ) := do
  let saved ← tape.values.lookup name
  some ({ tape with values := tape.values.erase name }, saved.free store)

/-- `release_tape`. -/
def release (tape : Tape γ σ) (store : HandleStore τ) : HandleStore τ :=
  let store := tape.values.entries.foldl
    (fun store entry => entry.2.free store) store
  tape.buffers.foldl (fun store snapshot =>
    snapshot.foldl (fun store entry => store.free entry.2) store) store

end Tape

/-- The variables of `execute`. -/
structure Running (τ γ σ : Type) where
  store : HandleStore τ
  tape : Tape γ σ
  remaining : NodeName → Nat

namespace GraphRuntime

variable {τ γ σ : Type} (operators : Operators τ γ σ)

def bind (names : List NodeName) (values : List (Value τ γ σ)) :
    NodeName → Option (Value τ γ σ) :=
  fun name => (names.zip values).lookup name

/-- `functional_call` on the module of a group. -/
def functionalCall (index : Nat) (group : Group) (state : ModuleState τ)
    (arguments : List (Value τ γ σ)) : Option (List (Value τ γ σ)) := do
  let env ← Dataflow.eval FxNode.name FxNode.inputs
    (operators.apply index state) group.nodes (bind group.inputs arguments)
  group.outputs.mapM env

/-- One more consumer of each input is done; without a backward pass a value
goes with its last consumer. -/
def consume (save : Bool) : List NodeName → Running τ γ σ →
    Option (Running τ γ σ)
  | [], running => some running
  | name :: rest, running => do
      let left := running.remaining name - 1
      let running := { running with
        remaining := Function.update running.remaining name left }
      if !save && left = 0 then
        let (tape, store) ← running.tape.drop name running.store
        consume save rest { running with tape := tape, store := store }
      else
        consume save rest running

/-- One group of the forward pass: the variables and the stage after it. -/
def executeGroup (save : Bool) (index : Nat) (group : Group) (stage : ModuleStage)
    (running : Running τ γ σ) : Option (Running τ γ σ × ModuleStage) := do
  let arguments ← group.inputs.mapM (running.tape.restore running.store)
  let (snapshot, store) ← takeSnapshot save stage.buffers running.store
  let state ← stage.state [] store
  let results ← functionalCall operators index group state arguments
  let (stage, store) := stage.replace
    (operators.mutate index state arguments) store
  let (tape, store) := Tape.saveAll (group.outputs.zip results)
    { running.tape with buffers := running.tape.buffers ++ [snapshot] } store
  let running ← consume save group.inputs
    { running with tape := tape, store := store }
  some (running, stage)

/-- The groups from `index` on, each with its stage. -/
def executeGroups (save : Bool) : Nat → List (Group × ModuleStage) →
    Running τ γ σ → Option (Running τ γ σ × List ModuleStage)
  | _, [], running => some (running, [])
  | index, (group, stage) :: rest, running => do
      let (running, stage) ←
        executeGroup operators save index group stage running
      let (running, stages) ← executeGroups save (index + 1) rest running
      some (running, stage :: stages)

/-- What `execute` returns and leaves behind. -/
structure Executed (τ γ σ : Type) where
  result : Tree (ResultLeaf τ γ σ) σ
  tape : Tape γ σ
  stages : List ModuleStage
  store : HandleStore τ

def resultLeaf (read : NodeName → Option (Value τ γ σ)) :
    OutputLeaf γ → Option (ResultLeaf τ γ σ)
  | .node name => (read name).map .value
  | .constant value => some (.constant value)

def readOutput (output : Tree (OutputLeaf γ) σ)
    (read : NodeName → Option (Value τ γ σ)) :
    Option (Tree (ResultLeaf τ γ σ) σ) := do
  let leaves ← output.leaves.mapM (resultLeaf read)
  some ⟨leaves, output.spec⟩

def execute (ir : GraphIR γ σ) (stages : List ModuleStage) (save : Bool)
    (inputs : List (Value τ γ σ)) (store : HandleStore τ) :
    Option (Executed τ γ σ) := do
  guard (inputs.length = ir.frontend.placeholders.length)
  guard (stages.length = ir.groups.length)
  let (tape, store) := Tape.saveAll (ir.frontend.placeholders.zip inputs)
    ⟨∅, []⟩ store
  let (running, stages) ← executeGroups operators save 0
    (ir.groups.zip stages)
    ⟨store, tape, fun name => (ir.consumers name).length⟩
  let result ← readOutput ir.frontend.output
    (running.tape.restore running.store)
  some ⟨result, running.tape, stages, running.store⟩

def evaluate (apply : FxNode → List (Value τ γ σ) → Value τ γ σ)
    (graph : FxGraph γ σ) (inputs : List (Value τ γ σ)) :
    Option (Tree (ResultLeaf τ γ σ) σ) := do
  let env ← Dataflow.eval FxNode.name FxNode.inputs apply graph.nodes
    (bind graph.placeholders inputs)
  readOutput graph.output env

end GraphRuntime

end TrainPool
