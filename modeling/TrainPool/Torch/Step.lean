import TrainPool.Torch.Training

namespace TrainPool

open HandleStore Failing

/-! The step of the optimizer, parameter by parameter, and what it leaves of
the handles where it raises. -/

/-- What a step reads of the PyTorch optimizer and of its options.  `size` is
the size of the tensor of a handle; the snapshot of the CUDA memory may raise. -/
structure Optimizer (τ γ : Type) where
  adam : Bool
  amsgrad : Bool
  momentum : Bool
  size : Handle → Nat
  update : τ → τ → StateDict τ γ → τ × StateDict τ γ
  snapshot : Except Raised (Option String)

namespace Optimizer

variable {τ γ : Type} (optimizer : Optimizer τ γ)

def stateBytes (weight : Handle) (stateHandles : List Handle) : Nat :=
  let actual := (stateHandles.map optimizer.size).sum
  let expected :=
    if optimizer.adam then
      optimizer.size weight * (2 + if optimizer.amsgrad then 1 else 0)
    else
      optimizer.size weight * if optimizer.momentum then 1 else 0
  max actual expected

def temporaryBytes (weight : Handle) : Nat :=
  optimizer.size weight * if optimizer.adam then 2 else 1

def required (weight gradient : Handle) (stateHandles : List Handle) : Nat :=
  optimizer.size weight + optimizer.size gradient +
    optimizer.stateBytes weight stateHandles +
    optimizer.temporaryBytes weight +
    max (16 * 1024 * 1024) (optimizer.size weight / 10)

/-- `current_context` -/
def describe (name : ParameterName) (weight gradient : Handle)
    (stateHandles : List Handle) : String :=
  s!"parameter={name} parameter_bytes={optimizer.size weight} gradient_bytes={optimizer.size gradient} optimizer_state_bytes={optimizer.stateBytes weight stateHandles} estimated_temporary_bytes={optimizer.temporaryBytes weight}"

end Optimizer

namespace Training

variable {τ γ : Type}

def prepareTransient (handles : List Handle) : Stepping τ γ Unit :=
  each (fun _ => call) handles

def ensureCudaCapacity (_required : Nat) (_context : String) :
    Stepping τ γ Unit :=
  call

def restoreEntry : String × Leaf Handle γ → Stepping τ γ (String × Leaf τ γ)
  | (key, .tensor handle) => do
      let value ← restore handle
      pure (key, .tensor value)
  | (key, .constant value) => pure (key, .constant value)
  | (key, .none) => pure (key, .none)

/-- `transactional_offload`; what is published by then goes where the next
tensor cannot be. -/
def publish (replacements : List Handle) (value : τ) : Stepping τ γ Handle :=
  tryCatch (offload value) fun raised => do
    each free replacements
    throw raised

def publishState (replacements : List Handle) :
    StateDict τ γ → Stepping τ γ (StateDict Handle γ)
  | [] => pure []
  | (key, .tensor value) :: rest => do
      let handle ← publish replacements value
      let others ← publishState (replacements ++ [handle]) rest
      pure ((key, .tensor handle) :: others)
  | (key, .constant value) :: rest => do
      let others ← publishState replacements rest
      pure ((key, .constant value) :: others)
  | (key, .none) :: rest => do
      let others ← publishState replacements rest
      pure ((key, .none) :: others)

def stateHandles (state : StateDict Handle γ) : List Handle :=
  state.filterMap fun entry => entry.2.handle?

section

variable (optimizer : Optimizer τ γ)

/-- The new value of a parameter and its new state, before anything is
published. -/
def compute (name : ParameterName) (weight gradient : Handle)
    (oldState : StateDict Handle γ) : Stepping τ γ (τ × StateDict τ γ) := do
  let handles := stateHandles oldState
  let context := optimizer.describe name weight gradient handles
  modify fun session => { session with context := context }
  prepareTransient (weight :: gradient :: handles)
  ensureCudaCapacity (optimizer.required weight gradient handles) context
  let parameter ← restore weight
  let grad ← restore gradient
  -- The construction of the optimizer, and below its step.
  call
  let state ← collect restoreEntry oldState
  call
  pure (optimizer.update parameter grad state)

def publishUpdate (updated : τ × StateDict τ γ) :
    Stepping τ γ (Handle × StateDict Handle γ) := do
  let weight ← publish [] updated.1
  let state ← publishState [weight] updated.2
  pure (weight, state)

def install (index : Nat) (name : ParameterName) (weight gradient : Handle)
    (oldState : StateDict Handle γ)
    (published : Handle × StateDict Handle γ) : Stepping τ γ Unit := do
  alter index (Record.setWeight name published.1)
  alter index (Record.setState name published.2)
  free weight
  each free (stateHandles oldState)
  free gradient
  alter index (Record.popGradient name)

def stepParameter (index : Nat) (name : ParameterName) :
    Stepping τ γ Unit := do
  match (← get).runtime.stages[index]? with
  | none => pure ()
  | some record =>
      match record.stage.weightOf name, record.gradients.lookup name with
      | some weight, some gradient =>
          if record.stage.trains name then
            let oldState := (record.optimizerState.lookup name).getD []
            let updated ← compute optimizer name weight gradient oldState
            let published ← publishUpdate updated
            install index name weight gradient oldState published
      | _, _ => pure ()

def stepRecord (index : Nat) : Stepping τ γ Unit := do
  match (← get).runtime.stages[index]? with
  | none => pure ()
  | some record =>
      if record.stage.weights.any Weight.trainable then
        each (stepParameter optimizer index)
          (record.stage.weights.map Weight.name)

/-- `CapacityOptimizer.step`. -/
def step : Stepping τ γ Unit := do
  let runtime := (← get).runtime
  if runtime.failed || !runtime.backwardComplete then
    throw (.error "Complete a successful backward before optimizer.step")
  else
    modify fun session =>
      { session with context := "optimizer admission did not start" }
    tryCatch (do
      each (stepRecord optimizer) (List.range runtime.stages.length)
      change ({ · with pending := false, backwardComplete := false })
      -- `flush_metrics`
      call) fun raised => do
        change ({ · with failed := true })
        if raised = .outOfMemory then
          match optimizer.snapshot with
          | .error other => throw other
          | .ok snapshot =>
              let context := (← get).context
              let diagnostic := snapshot.elim "" (s!" {·}")
              throw (.error s!"TRAINPOOL_UNSUPPORTED_WORKING_SET: {context}{diagnostic}")
        else
          throw raised

end

end Training

namespace Session

variable {τ γ : Type} (session : Session τ γ)

def readLeaf : Leaf Handle γ → Leaf τ γ
  | .tensor handle => .tensor (session.read handle)
  | .constant value => .constant value
  | .none => .none

def readState (state : StateDict Handle γ) : StateDict τ γ :=
  state.map fun entry => (entry.1, session.readLeaf entry.2)

end Session

namespace Training

variable {τ γ : Type}

theorem readState_congr {session next : Session τ γ}
    {state : StateDict Handle γ}
    (same : ∀ handle ∈ stateHandles state,
      next.read handle = session.read handle) :
    next.readState state = session.readState state := by
  apply List.map_congr_left
  intro entry listed
  obtain ⟨name, leaf⟩ := entry
  cases leaf with
  | tensor handle =>
      have read := same handle
        (List.mem_filterMap.mpr ⟨_, listed, rfl⟩)
      simp only [Session.readLeaf, read]
  | constant value => rfl
  | none => rfl

/-! The part of a step that only reads. -/

def Reads {α : Type} (base : Session τ γ) (program : Stepping τ γ α)
    (value : α) : Prop :=
  ∀ session, Idle base session → session.Single →
    program.Leads session (Ending
      (fun result next => result = value ∧ Idle base next ∧ next.Single)
      fun _ next => Idle base next ∧ next.Calm)

namespace Reads

variable {base : Session τ γ}

theorem pure {α : Type} (value : α) :
    Reads base (Pure.pure value : Stepping τ γ α) value :=
  fun _ idle single => ⟨rfl, idle, single⟩

theorem bind {α β : Type} {first : Stepping τ γ α}
    {second : α → Stepping τ γ β} {value : α} {result : β}
    (early : Reads base first value)
    (late : Reads base (second value) result) :
    Reads base (first >>= second) result := by
  intro session idle single
  apply (early session idle single).bind
  · intro _ next given
    obtain ⟨rfl, idle, single⟩ := given
    exact late next idle single
  · intro raised next given
    exact given

theorem call : Reads base (Training.call : Stepping τ γ Unit) () := by
  intro session idle single
  apply (call_single single).mono
  intro result next given
  cases result with
  | ok value => exact ⟨rfl, idle.trans given.1, given.2⟩
  | error raised => exact ⟨idle.trans given.1, given.2⟩

theorem restore (handle : Handle) :
    Reads base (Training.restore handle : Stepping τ γ τ)
      (base.read handle) := by
  intro session idle single
  apply (restore_single handle single).mono
  intro result next given
  cases result with
  | ok value =>
      obtain ⟨same, later, single⟩ := given
      exact ⟨same.trans (idle.read handle), idle.trans later, single⟩
  | error raised => exact ⟨idle.trans given.1, given.2⟩

theorem calls {α : Type} (items : List α) :
    Reads base (each (fun _ => Training.call) items : Stepping τ γ Unit)
      () := by
  induction items with
  | nil => exact pure ()
  | cons item rest ih => exact bind call ih

theorem restoreEntry (entry : String × Leaf Handle γ) :
    Reads base (Training.restoreEntry entry : Stepping τ γ (String × Leaf τ γ))
      (entry.1, base.readLeaf entry.2) := by
  obtain ⟨key, leaf⟩ := entry
  cases leaf with
  | tensor handle =>
      exact bind (restore handle)
        (pure (key, Leaf.tensor (base.read handle)))
  | constant value => exact pure (key, Leaf.constant value)
  | none => exact pure (key, Leaf.none)

theorem entries (state : StateDict Handle γ) :
    Reads base (collect Training.restoreEntry state :
      Stepping τ γ (StateDict τ γ)) (base.readState state) := by
  induction state with
  | nil => exact pure []
  | cons entry rest ih =>
      exact bind (restoreEntry entry) (bind ih (pure _))

end Reads

theorem compute_single (optimizer : Optimizer τ γ) (name : ParameterName)
    (weight gradient : Handle) (oldState : StateDict Handle γ)
    {session : Session τ γ} (single : session.Single) :
    (compute optimizer name weight gradient oldState).Leads session (Ending
      (fun updated next => updated = optimizer.update (session.read weight)
          (session.read gradient) (session.readState oldState) ∧
        (∃ context, Idle { session with context := context } next) ∧
        next.Single)
      fun _ next =>
        (∃ context, Idle { session with context := context } next) ∧
          next.Calm) := by
  let handles := stateHandles oldState
  have reads : ∀ base : Session τ γ, Reads base (do
      prepareTransient (weight :: gradient :: handles)
      ensureCudaCapacity (optimizer.required weight gradient handles)
        (optimizer.describe name weight gradient handles)
      let parameter ← restore weight
      let grad ← restore gradient
      call
      let state ← collect restoreEntry oldState
      call
      pure (optimizer.update parameter grad state) :
        Stepping τ γ (τ × StateDict τ γ))
      (optimizer.update (base.read weight) (base.read gradient)
        (base.readState oldState)) :=
    fun base => .bind (.calls _) (.bind .call (.bind (.restore weight)
      (.bind (.restore gradient) (.bind .call (.bind (.entries oldState)
        (.bind .call (.pure _)))))))
  let ready : Session τ γ := { session with
    context := optimizer.describe name weight gradient handles }
  have readied : ready.Single := single
  apply leads_modify_bind.mpr
  apply (reads ready ready (.refl ready) readied).mono
  intro result next given
  cases result with
  | ok updated =>
      obtain ⟨same, idle, single⟩ := given
      exact ⟨same, ⟨_, idle⟩, single⟩
  | error raised =>
      obtain ⟨idle, calm⟩ := given
      exact ⟨⟨_, idle⟩, calm⟩

/-! Publication. -/

theorem restore_offload (store : HandleStore τ) (value : τ) (handle : Handle) :
    (store.offload value).2.restore handle =
      if handle = store.next then some value else store.restore handle :=
  Table.lookup_insert_eq _ _ _ _

theorem restore_free (store : HandleStore τ) (freed handle : Handle) :
    (store.free freed).restore handle =
      if handle = freed then none else store.restore handle :=
  Table.lookup_erase_eq _ _ _

theorem restore_frees (handles : List Handle) (store : HandleStore τ)
    (handle : Handle) :
    (handles.foldl (fun store freed => store.free freed) store).restore
        handle =
      if handle ∈ handles then none else store.restore handle := by
  induction handles generalizing store with
  | nil => simp
  | cons freed rest ih =>
      rw [List.foldl_cons, ih, restore_free]
      by_cases here : handle = freed
      · simp [here]
      · simp [here]

theorem next_frees (handles : List Handle) (store : HandleStore τ) :
    (handles.foldl (fun store freed => store.free freed) store).next =
      store.next := by
  induction handles generalizing store with
  | nil => rfl
  | cons freed rest ih => exact ih _

theorem restore_fresh (store : HandleStore τ) {handle : Handle}
    (fresh : store.next ≤ handle) : store.restore handle = none := by
  apply AList.lookup_eq_none.mpr
  intro member
  exact absurd (store.fresh handle member) (Nat.not_lt.mpr fresh)

theorem member_of_restore {store : HandleStore τ} {handle : Handle} {value : τ}
    (found : store.restore handle = some value) : handle ∈ store.tensors :=
  AList.lookup_isSome.mp (Option.isSome_iff_exists.mpr ⟨value, found⟩)

inductive Published (limit : Handle) (store : HandleStore τ) :
    String × Leaf Handle γ → String × Leaf τ γ → Prop
  | tensor (key : String) {handle : Handle} {value : τ}
      (fresh : limit ≤ handle) (holds : store.restore handle = some value) :
      Published limit store (key, .tensor handle) (key, .tensor value)
  | constant (key : String) (value : γ) :
      Published limit store (key, .constant value) (key, .constant value)
  | none (key : String) :
      Published limit store (key, .none) (key, .none)

theorem Published.later {limit bound : Handle} {store after : HandleStore τ}
    {entry : String × Leaf Handle γ} {value : String × Leaf τ γ}
    (published : Published limit store entry value) (lower : bound ≤ limit)
    (same : ∀ handle, limit ≤ handle → ∀ value,
      store.restore handle = some value → after.restore handle = some value) :
    Published bound after entry value := by
  cases published with
  | tensor key fresh holds =>
      exact .tensor key (lower.trans fresh) (same _ fresh _ holds)
  | constant key value => exact .constant key value
  | none key => exact .none key

structure Extends (store after : HandleStore τ) (handles : List Handle) :
    Prop where
  grows : store.next ≤ after.next
  old : ∀ handle, handle < store.next →
    after.restore handle = store.restore handle
  new : ∀ handle value, store.next ≤ handle →
    after.restore handle = some value → handle ∈ handles

structure Withdrawn (replacements : List Handle)
    (store after : HandleStore τ) : Prop where
  grows : store.next ≤ after.next
  same : ∀ handle, after.restore handle =
    if handle ∈ replacements then none else store.restore handle

theorem Withdrawn.refl_frees (replacements : List Handle)
    (store : HandleStore τ) :
    Withdrawn replacements store
      (replacements.foldl (fun store freed => store.free freed) store) :=
  ⟨(next_frees replacements store).ge,
    fun handle => restore_frees replacements store handle⟩

theorem Withdrawn.offloaded {replacements : List Handle}
    {store after : HandleStore τ} {value : τ}
    (withdrawn : Withdrawn (replacements ++ [store.next])
      (store.offload value).2 after) : Withdrawn replacements store after := by
  refine ⟨(Nat.le_succ _).trans withdrawn.grows, ?_⟩
  intro handle
  rw [withdrawn.same, restore_offload]
  by_cases new : handle = store.next
  · subst new
    rw [if_pos (by simp), restore_fresh store le_rfl]
    split <;> rfl
  · simp [new]

theorem Extends.offloaded {store after : HandleStore τ} {value : τ}
    {handles : List Handle}
    (extended : Extends (store.offload value).2 after handles) :
    Extends store after (store.next :: handles) ∧
      after.restore store.next = some value := by
  have grown : store.next < (store.offload value).2.next := Nat.lt_succ_self _
  have own : after.restore store.next = some value := by
    rw [extended.old _ grown, restore_offload, if_pos rfl]
  refine ⟨⟨grown.le.trans extended.grows, ?_, ?_⟩, own⟩
  · intro handle older
    rw [extended.old handle (older.trans grown), restore_offload,
      if_neg (Nat.ne_of_lt older)]
  · intro handle other fresh found
    by_cases own : handle = store.next
    · simp [own]
    · have later : (store.offload value).2.next ≤ handle :=
        Nat.lt_of_le_of_ne fresh (Ne.symm own)
      exact List.mem_cons_of_mem _ (extended.new handle other later found)

theorem publish_single (replacements : List Handle) (value : τ)
    {session : Session τ γ} (single : session.Single) :
    (publish replacements value).Leads session (Ending
      (fun handle next => handle = session.store.next ∧
        Idle { session with store := (session.store.offload value).2 } next ∧
        next.Single)
      fun _ next => ∃ store, Withdrawn replacements session.store store ∧
        Idle { session with store := store } next ∧ next.Calm) := by
  apply (offload_single value single).rescue
  · intro handle next given
    exact given
  · intro raised next given
    obtain ⟨idle, calm⟩ := given
    apply (frees_calm replacements calm).bind
    · intro _ final given
      obtain ⟨later, calm⟩ := given
      rw [idle.store] at later
      apply leads_throw.mpr
      exact ⟨_, .refl_frees replacements session.store,
        (idle.stored _).trans later, calm⟩
    · intro _ _ impossible
      exact impossible.elim

theorem publishState_single (replacements : List Handle)
    (state : StateDict τ γ) {session : Session τ γ}
    (single : session.Single) :
    (publishState replacements state).Leads session (Ending
      (fun entries next => ∃ store,
        Extends session.store store (stateHandles entries) ∧
        List.Forall₂ (Published session.store.next store) entries state ∧
        Idle { session with store := store } next ∧ next.Single)
      fun _ next => ∃ store, Withdrawn replacements session.store store ∧
        Idle { session with store := store } next ∧ next.Calm) := by
  induction state generalizing replacements session with
  | nil =>
      apply leads_pure.mpr
      refine ⟨session.store, ⟨le_rfl, fun _ _ => rfl, ?_⟩, .nil, .refl _,
        single⟩
      intro handle value fresh found
      rw [restore_fresh _ fresh] at found
      cases found
  | cons entry rest ih =>
      obtain ⟨key, leaf⟩ := entry
      cases leaf with
      | tensor value =>
          apply (publish_single replacements value single).bind
          · intro handle next given
            obtain ⟨rfl, idle, single⟩ := given
            apply (ih (replacements ++ [session.store.next]) single).bind
            · intro others final given
              obtain ⟨store, extended, published, later, single⟩ := given
              rw [idle.store] at extended published
              obtain ⟨extended, own⟩ := extended.offloaded
              apply leads_pure.mpr
              refine ⟨store, extended, .cons (.tensor key le_rfl own) ?_,
                (idle.stored store).trans later, single⟩
              apply published.imp
              intro entry value published
              exact published.later (Nat.le_succ _) fun _ _ _ found => found
            · intro raised final given
              obtain ⟨store, withdrawn, later, calm⟩ := given
              rw [idle.store] at withdrawn
              exact ⟨store, withdrawn.offloaded,
                (idle.stored store).trans later, calm⟩
          · intro raised next given
            exact given
      | constant value =>
          apply (ih replacements single).bind
          · intro others final given
            obtain ⟨store, extended, published, later, single⟩ := given
            apply leads_pure.mpr
            exact ⟨store, extended, .cons (.constant key value) published,
              later, single⟩
          · intro raised final given
            exact given
      | none =>
          apply (ih replacements single).bind
          · intro others final given
            obtain ⟨store, extended, published, later, single⟩ := given
            apply leads_pure.mpr
            exact ⟨store, extended, .cons (.none key) published, later,
              single⟩
          · intro raised final given
            exact given

/-- A weight and its state are published together, or nothing of them is
left. -/
theorem publishUpdate_single (updated : τ × StateDict τ γ)
    {session : Session τ γ} (single : session.Single) :
    (publishUpdate updated).Leads session (Ending
      (fun published next => ∃ store,
        Extends session.store store (published.1 ::
          stateHandles published.2) ∧
        session.store.next ≤ published.1 ∧
        store.restore published.1 = some updated.1 ∧
        List.Forall₂ (Published session.store.next store) published.2
          updated.2 ∧
        Idle { session with store := store } next ∧ next.Single)
      fun _ next => ∃ store, Withdrawn [] session.store store ∧
        Idle { session with store := store } next ∧ next.Calm) := by
  apply (publish_single [] updated.1 single).bind
  · intro weight next given
    obtain ⟨rfl, idle, single⟩ := given
    apply (publishState_single [session.store.next] updated.2 single).bind
    · intro state final given
      obtain ⟨store, extended, published, later, single⟩ := given
      rw [idle.store] at extended published
      obtain ⟨extended, own⟩ := extended.offloaded
      apply leads_pure.mpr
      refine ⟨store, extended, le_rfl, own, ?_,
        (idle.stored store).trans later, single⟩
      apply published.imp
      intro entry value published
      exact published.later (Nat.le_succ _) fun _ _ _ found => found
    · intro raised final given
      obtain ⟨store, withdrawn, later, calm⟩ := given
      rw [idle.store] at withdrawn
      exact ⟨store, Withdrawn.offloaded (by simpa using withdrawn),
        (idle.stored store).trans later, calm⟩
  · intro raised next given
    exact given

end Training

namespace Runtime

variable {γ : Type} {runtime : Runtime γ} {index : Nat} {name : ParameterName}

def stateOf (runtime : Runtime γ) (key : Nat × ParameterName) :
    StateDict Handle γ :=
  ((runtime.records[key.1]?).bind (·.optimizerState.lookup key.2)).getD []

theorem held_state (runtime : Runtime γ) (key : Nat × ParameterName)
    (position : Nat) :
    runtime.held (key.1, .state key.2 position) =
      ((runtime.stateOf key)[position]?).bind (·.2.handle?) := by
  unfold held stateOf
  cases found : runtime.records[key.1]? with
  | none => simp
  | some record =>
      cases state : record.optimizerState.lookup key.2 <;>
        simp [Record.held, state]

def install (runtime : Runtime γ) (index : Nat) (name : ParameterName)
    (weight : Handle) (state : StateDict Handle γ) : Runtime γ :=
  (runtime.alter index (Record.setWeight name weight)).alter index
    (Record.setState name state)

theorem held_install_weight {old weight : Handle} {state : StateDict Handle γ}
    (found : runtime.held (index, .weight name) = some old) :
    (runtime.install index name weight state).held (index, .weight name) =
      some weight := by
  unfold install
  rw [held_alter, if_pos rfl, records_alter]
  unfold held at found
  cases kind : runtime.records[index]? with
  | none =>
      rw [kind] at found
      cases found
  | some record =>
      rw [kind] at found
      change record.held (.weight name) = some old at found
      simp [kind, Record.held_setState, Record.held_setWeight, found]

theorem held_install_of_ne {slot : Nat × Part} {weight : Handle}
    {state : StateDict Handle γ}
    (other : slot ≠ (index, .weight name))
    (others : ∀ position, slot ≠ (index, .state name position)) :
    (runtime.install index name weight state).held slot =
      runtime.held slot := by
  obtain ⟨place, part⟩ := slot
  unfold install
  rw [held_alter]
  by_cases here : place = index
  · subst here
    have different : part ≠ .weight name := by
      intro same
      exact other (by rw [same])
    rw [if_pos rfl, records_alter]
    unfold held
    cases kind : runtime.records[place]? with
    | none => simp [kind]
    | some record =>
        simp only [List.getElem?_modify, kind, if_true, Option.bind_eq_bind,
          Option.bind_some, Record.held_setState]
        cases part with
        | state name' position =>
            have elsewhere : name' ≠ name := by
              intro same
              exact others position (by rw [same])
            simp [elsewhere, Record.held_setWeight]
        | weight name' => simp [Record.held_setWeight, different]
        | buffer name' => simp [Record.held_setWeight]
        | gradient name' => simp [Record.held_setWeight]
  · rw [if_neg here, held_alter, if_neg here]

theorem stateOf_install {old weight : Handle} {state : StateDict Handle γ}
    (found : runtime.held (index, .weight name) = some old) :
    (runtime.install index name weight state).stateOf (index, name) =
      state := by
  unfold install stateOf
  rw [records_alter, records_alter]
  unfold held at found
  cases kind : runtime.records[index]? with
  | none =>
      rw [kind] at found
      cases found
  | some record => simp [kind, Record.setState]

theorem stateOf_install_of_ne {key : Nat × ParameterName} {weight : Handle}
    {state : StateDict Handle γ} (other : key ≠ (index, name)) :
    (runtime.install index name weight state).stateOf key =
      runtime.stateOf key := by
  obtain ⟨place, name'⟩ := key
  unfold install stateOf
  rw [records_alter, records_alter]
  by_cases here : index = place
  · subst here
    have elsewhere : name' ≠ name := by
      intro same
      exact other (by rw [same])
    cases kind : runtime.records[index]? with
    | none => simp [kind]
    | some record =>
        simp [kind, Record.setState, Record.setWeight, elsewhere]
  · simp [here]

theorem held_pop (slot : Nat × Part) :
    (runtime.alter index (Record.popGradient name)).held slot =
      if slot = (index, .gradient name) then none else runtime.held slot := by
  obtain ⟨place, part⟩ := slot
  rw [held_alter]
  by_cases here : place = index
  · subst here
    rw [if_pos rfl]
    unfold held
    cases kind : runtime.records[place]? with
    | none => simp
    | some record =>
        simp only [Option.bind_eq_bind, Option.bind_some,
          Record.held_popGradient, Prod.mk.injEq, true_and]
  · simp [here]

theorem stateOf_pop (key : Nat × ParameterName) :
    (runtime.alter index (Record.popGradient name)).stateOf key =
      runtime.stateOf key := by
  unfold stateOf
  rw [records_alter, List.getElem?_modify]
  by_cases here : index = key.1
  · subst here
    cases kind : runtime.records[key.1]? <;> simp [Record.popGradient]
  · simp [here]

end Runtime

end TrainPool
