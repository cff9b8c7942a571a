import TrainPool.Library.Failing
import TrainPool.Torch.Lifetimes

namespace TrainPool

open HandleStore

/-! A runtime with its optimizer.  Every call of the tensor store may raise, and
what an operation has changed before it raises stays changed. -/

/-- `interrupt` stands for what is no `Exception` of Python. -/
inductive Raised where
  | error (message : String)
  | outOfMemory
  | interrupt
  deriving DecidableEq, Repr

abbrev ParameterName := Nat

/-- The state of an optimizer for one parameter, or what it is saved as. -/
abbrev StateDict (α γ : Type) := List (String × Leaf α γ)

/-- The record of a stage, or of what no stage uses. -/
structure Record (γ : Type) where
  stage : ModuleStage
  gradients : Table ParameterName Handle := ∅
  optimizerState : Table ParameterName (StateDict Handle γ) := ∅
  parameters : (stage.weights.map Weight.name).Nodup

inductive Part where
  | weight (name : ParameterName)
  | buffer (name : Nat)
  | gradient (name : ParameterName)
  | state (name : ParameterName) (position : Nat)
  deriving DecidableEq, Repr

def Part.parameter? : Part → Option ParameterName
  | .weight name => some name
  | .buffer _ => none
  | .gradient name => some name
  | .state name _ => some name

namespace ModuleStage

def weightOf (stage : ModuleStage) (name : ParameterName) : Option Handle :=
  (stage.weights.find? (·.name = name)).map Weight.handle

def bufferOf (stage : ModuleStage) (name : Nat) : Option Handle :=
  (stage.buffers.find? (·.name = name)).map Buffer.handle

def trains (stage : ModuleStage) (name : ParameterName) : Bool :=
  stage.weights.any fun weight => weight.name = name && weight.trainable

/-- `record.weights[name] = handle`. -/
def setWeight (stage : ModuleStage) (name : ParameterName) (handle : Handle) :
    ModuleStage :=
  { stage with weights := stage.weights.map fun weight =>
      if weight.name = name then { weight with handle := handle } else weight }

theorem setWeight_names (stage : ModuleStage) (name : ParameterName)
    (handle : Handle) :
    (stage.setWeight name handle).weights.map Weight.name =
      stage.weights.map Weight.name := by
  unfold setWeight
  rw [List.map_map]
  apply List.map_congr_left
  intro weight _
  simp only [Function.comp_apply]
  split
  · rfl
  · rfl

/-- `record.buffers[name] = handle`. -/
def setBuffer (stage : ModuleStage) (name : Nat) (handle : Handle) :
    ModuleStage where
  weights := stage.weights
  buffers := stage.buffers.map fun buffer =>
    if buffer.name = name then { buffer with handle := handle } else buffer
  distinct := by
    have same : (stage.buffers.map fun buffer =>
        if buffer.name = name then { buffer with handle := handle }
          else buffer).map Buffer.name = stage.buffers.map Buffer.name := by
      rw [List.map_map]
      apply List.map_congr_left
      intro buffer _
      simp only [Function.comp_apply]
      split
      · rfl
      · rfl
    rw [same]
    exact stage.distinct

end ModuleStage

theorem no_buffers : (([] : List Buffer).map Buffer.name).Nodup := .nil

theorem no_weights : (([] : List Weight).map Weight.name).Nodup := .nil

namespace Record

variable {γ : Type}

def empty : Record γ where
  stage := { weights := [], buffers := [], distinct := no_buffers }
  parameters := no_weights

def single (weight : Weight) : Record γ where
  stage := { weights := [weight], buffers := [], distinct := no_buffers }
  parameters := List.nodup_singleton weight.name

def held (record : Record γ) : Part → Option Handle
  | .weight name => record.stage.weightOf name
  | .buffer name => record.stage.bufferOf name
  | .gradient name => record.gradients.lookup name
  | .state name position => do
      let state ← record.optimizerState.lookup name
      let entry ← state[position]?
      entry.2.handle?

def setWeight (name : ParameterName) (handle : Handle) (record : Record γ) :
    Record γ :=
  { record with
    stage := record.stage.setWeight name handle
    parameters := by
      rw [ModuleStage.setWeight_names]
      exact record.parameters }

def setBuffer (name : Nat) (handle : Handle) (record : Record γ) : Record γ :=
  { record with stage := record.stage.setBuffer name handle }

def setState (name : ParameterName) (state : StateDict Handle γ)
    (record : Record γ) : Record γ :=
  { record with
    optimizerState := record.optimizerState.insert name state }

def setGradient (name : ParameterName) (handle : Handle) (record : Record γ) :
    Record γ :=
  { record with gradients := record.gradients.insert name handle }

/-- `record.gradients.pop(name, None)`. -/
def popGradient (name : ParameterName) (record : Record γ) : Record γ :=
  { record with gradients := record.gradients.erase name }

end Record

namespace ModuleStage

theorem weightOf_setWeight (stage : ModuleStage) (name other : ParameterName)
    (handle : Handle) :
    (stage.setWeight name handle).weightOf other =
      if other = name then (stage.weightOf other).map fun _ => handle
      else stage.weightOf other := by
  have names : (fun weight : Weight => decide (weight.name = other)) ∘
      (fun weight => if weight.name = name then
        { weight with handle := handle } else weight) =
      fun weight => decide (weight.name = other) := by
    funext weight
    simp only [Function.comp_apply]
    split
    · rfl
    · rfl
  unfold weightOf setWeight
  simp only
  rw [List.find?_map, names]
  cases found : stage.weights.find? fun weight => weight.name = other with
  | none => simp
  | some weight =>
      have named : weight.name = other := by
        simpa using List.find?_some found
      simp only [Option.map_some, named]
      split
      · rfl
      · rfl

theorem bufferOf_setBuffer (stage : ModuleStage) (name other : Nat)
    (handle : Handle) :
    (stage.setBuffer name handle).bufferOf other =
      if other = name then (stage.bufferOf other).map fun _ => handle
      else stage.bufferOf other := by
  have names : (fun buffer : Buffer => decide (buffer.name = other)) ∘
      (fun buffer => if buffer.name = name then
        { buffer with handle := handle } else buffer) =
      fun buffer => decide (buffer.name = other) := by
    funext buffer
    simp only [Function.comp_apply]
    split
    · rfl
    · rfl
  unfold bufferOf setBuffer
  simp only
  rw [List.find?_map, names]
  cases found : stage.buffers.find? fun buffer => buffer.name = other with
  | none => simp
  | some buffer =>
      have named : buffer.name = other := by
        simpa using List.find?_some found
      simp only [Option.map_some, named]
      split
      · rfl
      · rfl

end ModuleStage

namespace Record

variable {γ : Type} (record : Record γ) (name : ParameterName)

theorem held_setWeight (handle : Handle) (part : Part) :
    (record.setWeight name handle).held part =
      if part = .weight name then (record.held part).map fun _ => handle
      else record.held part := by
  cases part with
  | weight other =>
      simp only [Part.weight.injEq]
      exact record.stage.weightOf_setWeight name other handle
  | buffer other => simp [held, setWeight, ModuleStage.setWeight,
      ModuleStage.bufferOf]
  | gradient other => simp [held, setWeight]
  | state other position => simp [held, setWeight]

theorem held_setBuffer (handle : Handle) (part : Part) :
    (record.setBuffer name handle).held part =
      if part = .buffer name then (record.held part).map fun _ => handle
      else record.held part := by
  cases part with
  | weight other => simp [held, setBuffer, ModuleStage.setBuffer,
      ModuleStage.weightOf]
  | buffer other =>
      simp only [Part.buffer.injEq]
      exact record.stage.bufferOf_setBuffer name other handle
  | gradient other => simp [held, setBuffer]
  | state other position => simp [held, setBuffer]

theorem held_setState (state : StateDict Handle γ) (part : Part) :
    (record.setState name state).held part =
      match part with
      | .state other position =>
          if other = name then do
            let entry ← state[position]?
            entry.2.handle?
          else record.held part
      | part => record.held part := by
  cases part with
  | weight other => rfl
  | buffer other => rfl
  | gradient other => rfl
  | state other position =>
      simp only [held, setState, Table.lookup_insert_eq]
      split
      · rfl
      · rfl

theorem held_popGradient (part : Part) :
    (record.popGradient name).held part =
      if part = .gradient name then none else record.held part := by
  cases part with
  | weight other => rfl
  | buffer other => rfl
  | gradient other =>
      simp only [held, popGradient, Table.lookup_erase_eq,
        Part.gradient.injEq]
  | state other position => rfl

end Record

/-- `dormant`, `parameterOrder` and `stateNames` belong to a graph runtime,
`options` and `groupSize` to the parameter group of the attached optimizer. -/
structure Runtime (γ : Type) where
  stages : List (Record γ)
  dormant : Record γ
  parameterOrder : Option (List ParameterName) := none
  stateNames : List Nat := []
  options : Table String γ := ∅
  groupSize : Nat := 0
  pending : Bool := false
  backwardComplete : Bool := false
  failed : Bool := false
  closed : Bool := false

namespace Runtime

variable {γ : Type}

/-- `_state_records`; the last is the dormant one. -/
def records (runtime : Runtime γ) : List (Record γ) :=
  runtime.stages ++ [runtime.dormant]

def held (runtime : Runtime γ) (slot : Nat × Part) : Option Handle := do
  let record ← runtime.records[slot.1]?
  record.held slot.2

def alter (index : Nat) (change : Record γ → Record γ)
    (runtime : Runtime γ) : Runtime γ :=
  { runtime with
    stages := runtime.stages.modify index change
    dormant := if index = runtime.stages.length then change runtime.dormant
      else runtime.dormant }

theorem records_alter (index : Nat) (change : Record γ → Record γ)
    (runtime : Runtime γ) :
    (runtime.alter index change).records =
      runtime.records.modify index change := by
  have appended : ∀ (stages : List (Record γ)) (index : Nat)
      (dormant : Record γ), stages.modify index change ++
        [if index = stages.length then change dormant else dormant] =
          (stages ++ [dormant]).modify index change := by
    intro stages
    induction stages with
    | nil =>
        intro index dormant
        cases index <;> simp
    | cons stage stages ih =>
        intro index dormant
        cases index with
        | zero => simp
        | succ index => simpa using ih index dormant
  exact appended runtime.stages index runtime.dormant

theorem held_alter (index : Nat) (change : Record γ → Record γ)
    (runtime : Runtime γ) (slot : Nat × Part) :
    (runtime.alter index change).held slot =
      if slot.1 = index then do
        let record ← runtime.records[index]?
        (change record).held slot.2
      else runtime.held slot := by
  unfold held
  rw [records_alter, List.getElem?_modify]
  by_cases same : index = slot.1
  · subst same
    cases runtime.records[slot.1]? <;> simp
  · rw [if_neg (Ne.symm same)]
    simp [same]

end Runtime

inductive TrainingPhase where
  | forward
  | backward
  deriving DecidableEq, Repr

/-- A load of the weights of a stage in another thread, with the weights that
are restored already. -/
structure Prefetch (τ : Type) where
  phase : TrainingPhase
  index : Nat
  loaded : List (ParameterName × τ) := []
  raised : Option Raised := none

structure SavedContext where
  inputs : List Handle
  inputRequiresGrad : Bool := true
  consumed : Bool := false
  deriving DecidableEq, Repr

/-- Weights that a stage has got, and those that the records held then. -/
structure Handed (τ : Type) where
  index : Nat
  given : List (ParameterName × τ)
  current : List (ParameterName × τ)
  deriving DecidableEq, Repr

/-- A runtime between the steps of its operations.  `faults` says which of the
calls to come raise, `turns` how far the prefetching thread gets before each of
them, and `unread` what fresh memory holds; `contexts` and `handed` only grow
and keep what has happened. -/
structure Session (τ γ : Type) where
  runtime : Runtime γ
  store : HandleStore τ
  prefetch : Option (Prefetch τ) := none
  contexts : List SavedContext := []
  handed : List (Handed τ) := []
  context : String := ""
  faults : List (Option Raised) := []
  turns : List Nat := []
  workerFaults : List (Option Raised) := []
  unread : Handle → τ

abbrev Stepping (τ γ α : Type) := Failing (Session τ γ) Raised α

namespace Session

variable {τ γ : Type}

/-- A handle of which nothing is left gives what the fresh memory holds. -/
def read (session : Session τ γ) (handle : Handle) : τ :=
  (session.store.restore handle).getD (session.unread handle)

/-- What `load_weights` returns where nothing raises. -/
def weights (session : Session τ γ) (index : Nat) :
    List (ParameterName × τ) :=
  match session.runtime.stages[index]? with
  | none => []
  | some record => record.stage.weights.map fun weight =>
      (weight.name, session.read weight.handle)

def work (session : Session τ γ) : Session τ γ :=
  match session.prefetch with
  | none => session
  | some load =>
      if load.raised.isSome then
        session
      else
        match (session.weights load.index)[load.loaded.length]? with
        | none => session
        | some entry =>
            let session :=
              { session with workerFaults := session.workerFaults.tail }
            match session.workerFaults.head? with
            | some (some raised) => { session with
                prefetch := some { load with raised := some raised } }
            | _ => { session with
                prefetch := some
                  { load with loaded := load.loaded ++ [entry] } }

def works : Nat → Session τ γ → Session τ γ
  | 0, session => session
  | turns + 1, session => works turns session.work

end Session

namespace Training

variable {τ γ : Type}

/-! The store. -/

theorem nothing_fresh : ∀ handle ∈ (∅ : Table Handle τ), handle < 0 := by
  intro handle member
  cases member

def storeOf (values : List τ) : HandleStore τ :=
  values.foldl (fun store value => (store.offload value).2)
    { tensors := ∅, next := 0, fresh := nothing_fresh }

def call : Stepping τ γ Unit := do
  let session ← get
  let session := session.works (session.turns.headD 0)
  set { session with
    turns := session.turns.tail
    faults := session.faults.tail }
  match session.faults.head? with
  | some (some raised) => throw raised
  | _ => pure ()

def offload (value : τ) : Stepping τ γ Handle := do
  call
  let session ← get
  set { session with store := (session.store.offload value).2 }
  pure (session.store.offload value).1

def restore (handle : Handle) : Stepping τ γ τ := do
  call
  pure ((← get).read handle)

/-- A handle that is not freed keeps its place in the table, but the list of
its blocks is gone. -/
def spoil (handle : Handle) : Stepping τ γ Unit :=
  modify fun session => { session with store :=
    if member : handle ∈ session.store.tensors then
      { tensors := session.store.tensors.insert handle (session.unread handle)
        next := session.store.next
        fresh := by
          intro other listed
          rcases (AList.mem_insert _).mp listed with rfl | listed
          · exact session.store.fresh _ member
          · exact session.store.fresh other listed }
    else session.store }

def free (handle : Handle) : Stepping τ γ Unit := do
  if handle ∈ (← get).store.tensors then
    tryCatch call fun raised => do
      spoil handle
      throw raised
    modify fun session =>
      { session with store := session.store.free handle }

/-- `contextlib.suppress(Exception)`. -/
def suppress (body : Stepping τ γ Unit) : Stepping τ γ Unit :=
  tryCatch body fun raised =>
    if raised = .interrupt then throw raised else pure ()

def change (update : Runtime γ → Runtime γ) : Stepping τ γ Unit :=
  modify fun session => { session with runtime := update session.runtime }

def alter (index : Nat) (update : Record γ → Record γ) : Stepping τ γ Unit :=
  change (·.alter index update)

def refuseGraph (runtime : Runtime γ) : Option String :=
  if runtime.failed || runtime.closed then
    some "TRAINPOOL_JOB_FAILED: create a new prepared job"
  else if runtime.pending then
    some "Complete backward and optimizer.step/zero_grad before the next forward"
  else
    none

def refuseSequential (runtime : Runtime γ) : Option String :=
  if runtime.failed then
    some "Training failed; create a new prepared job"
  else if runtime.pending then
    some "Complete backward and optimizer.step/zero_grad before the next forward"
  else
    none

end Training

/-! What the other thread leaves alone. -/

/-- Nothing but the calls to come and the other thread may differ. -/
structure Idle {τ γ : Type} (session next : Session τ γ) : Prop where
  runtime : next.runtime = session.runtime
  store : next.store = session.store
  contexts : next.contexts = session.contexts
  handed : next.handed = session.handed
  context : next.context = session.context
  unread : next.unread = session.unread

namespace Idle

variable {τ γ : Type} {session next final : Session τ γ}

theorem refl (session : Session τ γ) : Idle session session :=
  ⟨rfl, rfl, rfl, rfl, rfl, rfl⟩

theorem trans (early : Idle session next) (late : Idle next final) :
    Idle session final where
  runtime := late.runtime.trans early.runtime
  store := late.store.trans early.store
  contexts := late.contexts.trans early.contexts
  handed := late.handed.trans early.handed
  context := late.context.trans early.context
  unread := late.unread.trans early.unread

theorem read (idle : Idle session next) (handle : Handle) :
    next.read handle = session.read handle := by
  rw [Session.read, idle.store, idle.unread]
  rfl

theorem stored (idle : Idle session next) (store : HandleStore τ) :
    Idle { session with store := store } { next with store := store } :=
  ⟨idle.runtime, rfl, idle.contexts, idle.handed, idle.context, idle.unread⟩

theorem weights (idle : Idle session next) (index : Nat) :
    next.weights index = session.weights index := by
  unfold Session.weights
  simp only [idle.runtime, idle.read]

end Idle

namespace Session

variable {τ γ : Type}

theorem work_idle (session : Session τ γ) :
    Idle session session.work ∧ session.work.faults = session.faults ∧
      session.work.turns = session.turns := by
  unfold work
  split
  · exact ⟨.refl _, rfl, rfl⟩
  · split
    · exact ⟨.refl _, rfl, rfl⟩
    · split
      · exact ⟨.refl _, rfl, rfl⟩
      · simp only
        split
        · exact ⟨⟨rfl, rfl, rfl, rfl, rfl, rfl⟩, rfl, rfl⟩
        · exact ⟨⟨rfl, rfl, rfl, rfl, rfl, rfl⟩, rfl, rfl⟩

theorem works_idle (turns : Nat) (session : Session τ γ) :
    Idle session (session.works turns) ∧
      (session.works turns).faults = session.faults ∧
      (session.works turns).turns = session.turns := by
  induction turns generalizing session with
  | zero => exact ⟨.refl _, rfl, rfl⟩
  | succ turns ih =>
      obtain ⟨first, faults, left⟩ := session.work_idle
      obtain ⟨rest, faults', left'⟩ := ih session.work
      exact ⟨first.trans rest, faults'.trans faults, left'.trans left⟩

def Calm (session : Session τ γ) : Prop :=
  ∀ fault ∈ session.faults, fault = none

/-- At most one of the calls to come raises. -/
def Single (session : Session τ γ) : Prop :=
  session.faults.countP Option.isSome ≤ 1

theorem Calm.tail {session : Session τ γ} (calm : session.Calm)
    {fault : Option Raised} (member : fault ∈ session.faults.tail) :
    fault = none :=
  calm fault (List.mem_of_mem_tail member)

theorem Calm.single {session : Session τ γ} (calm : session.Calm) :
    session.Single := by
  have none_raises : session.faults.countP Option.isSome = 0 := by
    rw [List.countP_eq_zero]
    intro fault member
    rw [calm fault member]
    exact Bool.false_ne_true
  exact none_raises.le.trans (Nat.zero_le 1)

end Session

namespace Training

open Failing

variable {τ γ : Type} {session : Session τ γ}

theorem call_spec (session : Session τ γ) :
    call.Leads session fun result next =>
      Idle session next ∧ next.faults = session.faults.tail ∧
        Ending (fun _ _ => ∀ raised, session.faults.head? ≠ some (some raised))
          (fun raised _ => session.faults.head? = some (some raised))
          result next := by
  obtain ⟨idle, faults, _⟩ := session.works_idle (session.turns.headD 0)
  apply leads_get_bind.mpr
  apply leads_set_bind.mpr
  have left : Idle session { session.works (session.turns.headD 0) with
      turns := (session.works (session.turns.headD 0)).turns.tail
      faults := (session.works (session.turns.headD 0)).faults.tail } :=
    idle.trans ⟨rfl, rfl, rfl, rfl, rfl, rfl⟩
  rw [faults] at left ⊢
  split
  · rename_i raised found
    exact leads_throw.mpr ⟨left, rfl, found⟩
  · rename_i quiet
    apply leads_pure.mpr
    refine ⟨left, rfl, ?_⟩
    intro raised found
    exact quiet raised found

theorem call_single (single : session.Single) :
    call.Leads session (Ending
      (fun _ next => Idle session next ∧ next.Single)
      fun _ next => Idle session next ∧ next.Calm) := by
  apply (call_spec session).mono
  intro result next given
  obtain ⟨idle, faults, ended⟩ := given
  unfold Session.Single at single
  cases result with
  | ok value =>
      refine ⟨idle, ?_⟩
      unfold Session.Single
      rw [faults]
      exact (List.Sublist.countP_le (List.tail_sublist _)).trans single
  | error raised =>
      refine ⟨idle, ?_⟩
      unfold Session.Calm
      rw [faults]
      cases kind : session.faults with
      | nil =>
          intro fault member
          cases member
      | cons first rest =>
          change session.faults.head? = some (some raised) at ended
          rw [kind] at ended single
          cases ended
          rw [List.countP_cons_of_pos rfl] at single
          have none_raises : rest.countP Option.isSome = 0 := by omega
          intro fault member
          have quiet := List.countP_eq_zero.mp none_raises fault member
          simpa using quiet

theorem call_calm (calm : session.Calm) :
    call.Leads session (Ending
      (fun _ next => Idle session next ∧ next.Calm) fun _ _ => False) := by
  apply (call_spec session).mono
  intro result next given
  obtain ⟨idle, faults, ended⟩ := given
  cases result with
  | ok value =>
      refine ⟨idle, ?_⟩
      unfold Session.Calm
      rw [faults]
      exact fun fault member => calm.tail member
  | error raised =>
      have listed := List.mem_of_mem_head? ended
      cases calm _ listed

theorem change_leads (update : Runtime γ → Runtime γ)
    {post : Except Raised Unit → Session τ γ → Prop} :
    (change update).Leads session post ↔
      post (.ok ()) { session with runtime := update session.runtime } :=
  Iff.rfl

theorem restore_single (handle : Handle) (single : session.Single) :
    (restore handle).Leads session (Ending
      (fun value next => value = session.read handle ∧ Idle session next ∧
        next.Single)
      fun _ next => Idle session next ∧ next.Calm) := by
  apply (call_single single).bind
  · intro _ next given
    obtain ⟨idle, single⟩ := given
    exact ⟨idle.read handle, idle, single⟩
  · intro raised next given
    exact given

theorem offload_single (value : τ) (single : session.Single) :
    (offload value).Leads session (Ending
      (fun handle next => handle = session.store.next ∧
        Idle { session with store := (session.store.offload value).2 } next ∧
        next.Single)
      fun _ next => Idle session next ∧ next.Calm) := by
  apply (call_single single).bind
  · intro _ next given
    obtain ⟨idle, single⟩ := given
    apply leads_get_bind.mpr
    apply leads_set_bind.mpr
    apply leads_pure.mpr
    rw [idle.store]
    exact ⟨rfl, idle.stored _, single⟩
  · intro raised next given
    exact given

theorem free_absent {store : HandleStore τ} {handle : Handle}
    (absent : handle ∉ store.tensors) : store.free handle = store := by
  have same : store.tensors.erase handle = store.tensors :=
    Table.erase_of_lookup (AList.lookup_eq_none.mpr absent)
  cases store
  unfold HandleStore.free
  congr

structure Spoiled (handle : Handle) (store after : HandleStore τ) : Prop where
  next : after.next = store.next
  others : ∀ other, other ≠ handle → after.restore other = store.restore other
  table : ∀ other, other ∈ after.tensors ↔ other ∈ store.tensors

theorem spoil_leads (handle : Handle) (session : Session τ γ) :
    (spoil handle).Leads session (Ending
      (fun _ next => ∃ store, Spoiled handle session.store store ∧
        Idle { session with store := store } next ∧
        next.faults = session.faults)
      fun _ _ => False) := by
  apply leads_modify.mpr
  by_cases member : handle ∈ session.store.tensors
  · refine ⟨_, ⟨?_, ?_, ?_⟩, ⟨rfl, rfl, rfl, rfl, rfl, rfl⟩, rfl⟩
    · rw [dif_pos member]
    · intro other different
      rw [dif_pos member]
      exact AList.lookup_insert_ne different
    · intro other
      rw [dif_pos member]
      constructor
      · intro listed
        rcases (AList.mem_insert _).mp listed with rfl | listed
        · exact member
        · exact listed
      · intro listed
        exact (AList.mem_insert _).mpr (.inr listed)
  · refine ⟨session.store, ⟨rfl, fun _ _ => rfl, fun _ => Iff.rfl⟩, ?_, rfl⟩
    rw [dif_neg member]
    exact .refl _

theorem free_single (handle : Handle) (single : session.Single) :
    (free handle).Leads session (Ending
      (fun _ next => Idle { session with
        store := session.store.free handle } next ∧ next.Single)
      fun _ next => (∃ store, Spoiled handle session.store store ∧
        Idle { session with store := store } next) ∧ next.Calm) := by
  apply leads_get_bind.mpr
  split
  · have calls : (tryCatch call fun raised => do
        spoil handle
        throw raised : Stepping τ γ Unit).Leads session (Ending
        (fun _ next => Idle session next ∧ next.Single)
        fun _ next => (∃ store, Spoiled handle session.store store ∧
          Idle { session with store := store } next) ∧ next.Calm) := by
      apply (call_single single).rescue
      · intro _ next given
        exact given
      · intro raised next given
        obtain ⟨idle, calm⟩ := given
        apply (spoil_leads handle next).bind
        · intro _ final given
          obtain ⟨store, spoiled, later, faults⟩ := given
          apply leads_throw.mpr
          rw [idle.store] at spoiled
          refine ⟨⟨store, spoiled, ?_⟩, ?_⟩
          · exact (idle.stored store).trans later
          · unfold Session.Calm
            rw [faults]
            exact calm
        · intro _ _ impossible
          exact impossible.elim
    apply calls.bind
    · intro _ next given
      obtain ⟨idle, single⟩ := given
      apply leads_modify.mpr
      rw [idle.store]
      exact ⟨idle.stored _, single⟩
    · intro raised next given
      exact given
  · rename_i absent
    apply leads_pure.mpr
    rw [free_absent absent]
    exact ⟨.refl _, single⟩

theorem free_calm (handle : Handle) (calm : session.Calm) :
    (free handle).Leads session (Ending
      (fun _ next => Idle { session with
        store := session.store.free handle } next ∧ next.Calm)
      fun _ _ => False) := by
  apply leads_get_bind.mpr
  split
  · have calls : (tryCatch call fun raised => do
        spoil handle
        throw raised : Stepping τ γ Unit).Leads session (Ending
        (fun _ next => Idle session next ∧ next.Calm)
        fun _ _ => False) := by
      apply (call_calm calm).rescue
      · intro _ next given
        exact given
      · intro _ _ impossible
        exact impossible.elim
    apply calls.bind
    · intro _ next given
      obtain ⟨idle, calm⟩ := given
      apply leads_modify.mpr
      rw [idle.store]
      exact ⟨idle.stored _, calm⟩
    · intro _ _ impossible
      exact impossible
  · rename_i absent
    apply leads_pure.mpr
    rw [free_absent absent]
    exact ⟨.refl _, calm⟩

theorem frees_calm (handles : List Handle) (calm : session.Calm) :
    (each free handles).Leads session (Ending
      (fun _ next => Idle { session with
        store := handles.foldl (fun store handle => store.free handle)
          session.store } next ∧ next.Calm)
      fun _ _ => False) := by
  induction handles generalizing session with
  | nil => exact leads_pure.mpr ⟨.refl _, calm⟩
  | cons handle rest ih =>
      apply (free_calm handle calm).bind
      · intro _ next given
        obtain ⟨idle, calm⟩ := given
        apply (ih calm).mono
        intro result final given
        cases result with
        | ok value =>
            obtain ⟨later, calm⟩ := given
            rw [idle.store] at later
            exact ⟨(idle.stored _).trans later, calm⟩
        | error raised => exact given
      · intro _ _ impossible
        exact impossible

end Training

end TrainPool
