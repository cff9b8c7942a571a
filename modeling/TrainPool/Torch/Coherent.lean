import TrainPool.Torch.Alone

namespace TrainPool

open HandleStore Failing

/-! Sessions in which what is loaded ahead is what the stage has, and what keeps
them so. -/

namespace Runtime

variable {γ : Type} (runtime : Runtime γ)

def weightHandles : List Handle :=
  runtime.stages.flatMap fun record => record.stage.weights.map Weight.handle

def gradientHandles : List Handle :=
  runtime.stages.flatMap fun record => record.gradients.entries.map Sigma.snd

theorem weightHandles_congr {runtime next : Runtime γ}
    (stages : next.stages.map Record.stage = runtime.stages.map Record.stage) :
    next.weightHandles = runtime.weightHandles := by
  have byStage : ∀ runtime : Runtime γ, runtime.weightHandles =
      (runtime.stages.map Record.stage).flatMap fun stage =>
        stage.weights.map Weight.handle := by
    intro runtime
    rw [List.flatMap_map]
    rfl
  rw [byStage, byStage, stages]

theorem stages_alter (runtime : Runtime γ) (index : Nat)
    {change : Record γ → Record γ}
    (same : ∀ record, (change record).stage = record.stage) :
    (runtime.alter index change).stages.map Record.stage =
      runtime.stages.map Record.stage := by
  apply List.ext_getElem?
  intro position
  change ((runtime.stages.modify index change).map Record.stage)[position]? = _
  rw [List.getElem?_map, List.getElem?_map, List.getElem?_modify]
  split
  · cases runtime.stages[position]? with
    | none => rfl
    | some record => exact congrArg some (same record)
  · simp

theorem mem_alter {index : Nat} {change : Record γ → Record γ}
    {record : Record γ} (member : record ∈ (runtime.alter index change).stages) :
    record ∈ runtime.stages ∨ ∃ old ∈ runtime.stages, record = change old := by
  obtain ⟨position, found⟩ := List.mem_iff_getElem?.mp member
  change (runtime.stages.modify index change)[position]? = some record at found
  rw [List.getElem?_modify] at found
  cases old : runtime.stages[position]? with
  | none => simp [old] at found
  | some before =>
      rw [old] at found
      have known := List.mem_of_getElem? old
      have found : (if index = position then change before else before) =
          record := Option.some.inj found
      by_cases here : index = position
      · rw [if_pos here] at found
        exact .inr ⟨before, known, found.symm⟩
      · rw [if_neg here] at found
        exact .inl (found ▸ known)

end Runtime

namespace Session

variable {τ γ : Type}

def slot (session : Session τ γ) : Option (TrainingPhase × Nat) :=
  session.prefetch.map fun load => (load.phase, load.index)

/-- No weight is in a place whose handle a pass or `zero_grad` frees. -/
structure Placed (session : Session τ γ) : Prop where
  weights : ∀ handle ∈ session.runtime.weightHandles,
    handle < session.store.next
  gradients : ∀ handle ∈ session.runtime.gradientHandles,
    handle < session.store.next ∧ handle ∉ session.runtime.weightHandles
  inputs : ∀ context ∈ session.contexts, ∀ handle ∈ context.inputs,
    handle < session.store.next ∧ handle ∉ session.runtime.weightHandles

structure Timely (session : Session τ γ) (load : Prefetch τ) : Prop where
  loaded : load.loaded <+: session.weights load.index
  raised : load.raised.isSome →
    load.loaded.length < (session.weights load.index).length

structure Grows (session next : Session τ γ) : Prop where
  runtime : next.runtime = session.runtime
  contexts : next.contexts = session.contexts
  handed : next.handed = session.handed
  slot : next.slot = session.slot
  grows : session.store.next ≤ next.store.next

structure Follows (session next : Session τ γ) : Prop
    extends Grows session next where
  reads : ∀ handle ∈ session.runtime.weightHandles,
    next.read handle = session.read handle
  timely : (∀ load, session.prefetch = some load → session.Timely load) →
    ∀ load, next.prefetch = some load → next.Timely load

theorem Grows.refl (session : Session τ γ) : Grows session session :=
  ⟨rfl, rfl, rfl, rfl, le_rfl⟩

theorem Grows.trans {session next final : Session τ γ}
    (early : Grows session next) (late : Grows next final) :
    Grows session final where
  runtime := late.runtime.trans early.runtime
  contexts := late.contexts.trans early.contexts
  handed := late.handed.trans early.handed
  slot := late.slot.trans early.slot
  grows := early.grows.trans late.grows

theorem Placed.within {session next : Session τ γ} (placed : session.Placed)
    (weights : ∀ handle ∈ next.runtime.weightHandles,
      handle ∈ session.runtime.weightHandles)
    (gradients : ∀ handle ∈ next.runtime.gradientHandles,
      handle ∈ session.runtime.gradientHandles)
    (inputs : ∀ context ∈ next.contexts, ∀ handle ∈ context.inputs,
      ∃ context ∈ session.contexts, handle ∈ context.inputs)
    (grows : session.store.next ≤ next.store.next) : next.Placed where
  weights handle member :=
    (placed.weights handle (weights handle member)).trans_le grows
  gradients handle member := by
    obtain ⟨older, other⟩ := placed.gradients handle (gradients handle member)
    exact ⟨older.trans_le grows, fun same => other (weights handle same)⟩
  inputs context listed handle member := by
    obtain ⟨context, listed, member⟩ := inputs context listed handle member
    obtain ⟨older, other⟩ := placed.inputs context listed handle member
    exact ⟨older.trans_le grows, fun same => other (weights handle same)⟩

theorem Placed.congr {session next : Session τ γ} (placed : session.Placed)
    (stages : next.runtime.stages = session.runtime.stages)
    (contexts : next.contexts = session.contexts)
    (grows : session.store.next ≤ next.store.next) : next.Placed := by
  apply placed.within _ _ _ grows
  · rw [Runtime.weightHandles_congr (congrArg _ stages)]
    exact fun _ member => member
  · unfold Runtime.gradientHandles
    rw [stages]
    exact fun _ member => member
  · rw [contexts]
    exact fun context listed _ member => ⟨context, listed, member⟩

theorem Grows.placed {session next : Session τ γ} (grows : Grows session next)
    (placed : session.Placed) : next.Placed :=
  placed.congr (congrArg Runtime.stages grows.runtime) grows.contexts
    grows.grows

theorem Follows.refl (session : Session τ γ) : Follows session session :=
  ⟨.refl session, fun _ _ => rfl, fun timely => timely⟩

theorem Follows.trans {session next final : Session τ γ}
    (early : Follows session next) (late : Follows next final) :
    Follows session final where
  toGrows := early.toGrows.trans late.toGrows
  reads handle member := by
    rw [late.reads handle (by rwa [early.runtime]), early.reads handle member]
  timely holds := late.timely (early.timely holds)

theorem weights_congr {session next : Session τ γ}
    (stages : next.runtime.stages.map Record.stage =
      session.runtime.stages.map Record.stage)
    (reads : ∀ handle ∈ session.runtime.weightHandles,
      next.read handle = session.read handle) (index : Nat) :
    next.weights index = session.weights index := by
  have byStage : ∀ session : Session τ γ, session.weights index =
      ((session.runtime.stages.map Record.stage)[index]?).elim [] fun stage =>
        stage.weights.map fun weight =>
          (weight.name, session.read weight.handle) := by
    intro session
    unfold weights
    rw [List.getElem?_map]
    cases session.runtime.stages[index]? <;> rfl
  rw [byStage, byStage, stages, List.getElem?_map]
  cases found : session.runtime.stages[index]? with
  | none => rfl
  | some record =>
      apply List.map_congr_left
      intro weight member
      rw [reads]
      exact List.mem_flatMap.mpr ⟨record, List.mem_of_getElem? found,
        List.mem_map_of_mem member⟩

theorem Timely.congr {session next : Session τ γ} {load : Prefetch τ}
    (timely : session.Timely load)
    (same : next.weights load.index = session.weights load.index) :
    next.Timely load := by
  obtain ⟨loaded, raised⟩ := timely
  rw [← same] at loaded raised
  exact ⟨loaded, raised⟩

/-! The other thread. -/

theorem prefix_next {α : Type} {front items : List α} {item : α}
    (before : front <+: items) (found : items[front.length]? = some item) :
    front ++ [item] <+: items := by
  obtain ⟨rest, rfl⟩ := before
  cases rest with
  | nil => simp at found
  | cons first rest =>
      rw [List.getElem?_append_right le_rfl, Nat.sub_self] at found
      cases found
      exact ⟨rest, by simp⟩

structure Loads (session : Session τ γ) (load later : Prefetch τ) : Prop where
  phase : later.phase = load.phase
  index : later.index = load.index
  timely : session.Timely load → session.Timely later
  stopped : load.raised.isSome → later.raised.isSome

theorem work_loads (session : Session τ γ) (load : Prefetch τ)
    (slot : session.prefetch = some load) :
    ∃ later, session.work.prefetch = some later ∧ Loads session load later ∧
      (later.raised.isSome ∨
        min (session.weights load.index).length (load.loaded.length + 1) ≤
          later.loaded.length) := by
  unfold work
  rw [slot]
  dsimp only
  split
  · rename_i raised
    exact ⟨load, slot, ⟨rfl, rfl, id, id⟩, .inl raised⟩
  · rename_i quiet
    have stopped : ∀ later : Prefetch τ, load.raised.isSome →
        later.raised.isSome := fun _ raised => absurd raised quiet
    cases found : (session.weights load.index)[load.loaded.length]? with
    | none =>
        have short := List.getElem?_eq_none_iff.mp found
        exact ⟨load, slot, ⟨rfl, rfl, id, id⟩,
          .inr ((Nat.min_le_left _ _).trans short)⟩
    | some entry =>
        have bound := (List.getElem?_eq_some_iff.mp found).1
        dsimp only
        split
        · exact ⟨_, rfl, ⟨rfl, rfl, fun timely => ⟨timely.loaded,
            fun _ => bound⟩, stopped _⟩, .inl rfl⟩
        · refine ⟨_, rfl, ⟨rfl, rfl, fun timely => ⟨prefix_next timely.loaded
            found, ?_⟩, stopped _⟩, .inr ?_⟩
          · exact fun raised => absurd raised quiet
          · simp

theorem works_loads (turns : Nat) (session : Session τ γ) (load : Prefetch τ)
    (slot : session.prefetch = some load) :
    ∃ later, (session.works turns).prefetch = some later ∧
      Loads session load later ∧ (later.raised.isSome ∨
        min (session.weights load.index).length (load.loaded.length + turns) ≤
          later.loaded.length) := by
  induction turns generalizing session load with
  | zero =>
      exact ⟨load, slot, ⟨rfl, rfl, id, id⟩, .inr (Nat.min_le_right _ _)⟩
  | succ turns ih =>
      obtain ⟨next, holds, loads, progress⟩ := session.work_loads load slot
      obtain ⟨later, holds', loads', progress'⟩ := ih session.work next holds
      have same : ∀ index, session.work.weights index =
          session.weights index := session.work_idle.1.weights
      refine ⟨later, holds', ⟨loads'.phase.trans loads.phase,
        loads'.index.trans loads.index, ?_, ?_⟩, ?_⟩
      · intro timely
        exact (loads'.timely ((loads.timely timely).congr (same _))).congr
          (same _).symm
      · exact fun raised => loads'.stopped (loads.stopped raised)
      · rcases progress with raised | progress
        · exact .inl (loads'.stopped raised)
        · rcases progress' with raised | progress'
          · exact .inl raised
          · right
            rw [same, loads.index] at progress'
            omega

end Session

namespace Training

open Session

variable {τ γ α : Type}

/-! What the calls of the store leave. -/

theorem Follows.of_idle {session next : Session τ γ} (idle : Idle session next)
    (slot : next.slot = session.slot)
    (timely : (∀ load, session.prefetch = some load → session.Timely load) →
      ∀ load, next.prefetch = some load → next.Timely load) :
    Follows session next where
  runtime := idle.runtime
  contexts := idle.contexts
  handed := idle.handed
  slot := slot
  grows := by rw [idle.store]
  reads handle _ := idle.read handle
  timely := timely

theorem works_follows (turns : Nat) (session : Session τ γ) :
    Follows session (session.works turns) := by
  have idle := (session.works_idle turns).1
  cases held : session.prefetch with
  | none =>
      have empty : ∀ turns, session.works turns = session := by
        intro turns
        induction turns with
        | zero => rfl
        | succ turns ih =>
            have stays : session.work = session := by
              unfold work
              rw [held]
            rw [works, stays, ih]
      rw [empty]
      exact .refl session
  | some load =>
      obtain ⟨later, holds, loads, _⟩ := session.works_loads turns load held
      apply Follows.of_idle idle
      · unfold slot
        rw [held, holds]
        simp [loads.phase, loads.index]
      · intro timely other same
        rw [holds] at same
        cases same
        exact (loads.timely (timely load held)).congr (idle.weights _)

theorem call_follows (session : Session τ γ) :
    call.Leads session fun _ next => Follows session next := by
  unfold Leads
  rw [call_run]
  obtain ⟨⟨runtime, contexts, handed, slot, grows⟩, reads, timely⟩ :=
    works_follows (session.turns.headD 0) session
  refine ⟨⟨runtime, contexts, handed, slot, grows⟩, reads, ?_⟩
  intro holds load held
  have loaded := timely holds load held
  exact loaded.congr rfl

theorem restore_follows (handle : Handle) (session : Session τ γ) :
    (restore handle).Leads session fun _ next => Follows session next := by
  apply (call_follows session).bind
  · intro _ next follows
    exact follows
  · intro raised next follows
    exact follows

theorem Follows.of_store {session : Session τ γ} {store : HandleStore τ}
    (grows : session.store.next ≤ store.next)
    (same : ∀ handle ∈ session.runtime.weightHandles,
      store.restore handle = session.store.restore handle) :
    Follows session { session with store := store } := by
  have reads : ∀ handle ∈ session.runtime.weightHandles,
      ({ session with store := store } : Session τ γ).read handle =
        session.read handle := by
    intro handle member
    rw [Session.read, Session.read]
    dsimp only
    rw [same handle member]
  have weights : ∀ index,
      ({ session with store := store } : Session τ γ).weights index =
        session.weights index := weights_congr rfl reads
  refine ⟨⟨rfl, rfl, rfl, rfl, grows⟩, reads, ?_⟩
  intro timely load held
  exact (timely load held).congr (weights _)

theorem offload_follows (value : τ) {session : Session τ γ}
    (placed : session.Placed) :
    (offload value).Leads session (Ending
      (fun handle next => session.store.next ≤ handle ∧
        handle < next.store.next ∧ Follows session next)
      fun _ next => Follows session next) := by
  apply (call_follows session).bind
  · intro _ next follows
    apply leads_get_bind.mpr
    apply leads_set_bind.mpr
    apply leads_pure.mpr
    refine ⟨follows.grows, Nat.lt_succ_self _, follows.trans ?_⟩
    apply Follows.of_store (Nat.le_succ _)
    intro handle member
    have older := (follows.toGrows.placed placed).weights handle member
    rw [restore_offload, if_neg (Nat.ne_of_lt older)]
  · intro raised next follows
    exact follows

end Training

namespace Sequential

open Session Training

variable {τ γ : Type} (model : Sequential τ γ)

end Sequential

structure Session.Coherent {τ γ : Type} (session : Session τ γ) : Prop where
  placed : session.Placed
  timely : ∀ load, session.prefetch = some load → session.Timely load
  truthful : ∀ handed ∈ session.handed, handed.given = handed.current

theorem Session.Coherent.follows {τ γ : Type} {session next : Session τ γ}
    (coherent : session.Coherent) (follows : Follows session next) :
    next.Coherent where
  placed := follows.toGrows.placed coherent.placed
  timely := follows.timely coherent.timely
  truthful := by
    rw [follows.handed]
    exact coherent.truthful

namespace Sequential

open Session Training

variable {τ γ : Type} {model : Sequential τ γ} {session : Session τ γ}

/-- What taking the weights of a stage leaves of what is loaded ahead. -/
structure Taken (session next : Session τ γ) (phase : TrainingPhase)
    (index : Nat) : Prop where
  coherent : next.Coherent
  runtime : next.runtime = session.runtime
  contexts : next.contexts = session.contexts
  slot : next.slot = none ∨
    next.slot = session.slot ∧ session.slot ≠ some (phase, index)

end Sequential

end TrainPool
