import TrainPool.Torch.Prefetch

namespace TrainPool

/-! What the restores of two threads return. -/

namespace Restores

open TensorStore Failing World

section

variable {κ : Type} [LinearOrder κ] {settings : StoreSettings κ}
  {world : World}

theorem perform_honest (truthful : Truthful world.store)
    {operation : StoreOperation} (other : operation.isRestore = false) :
    (perform settings operation).Leads world fun _ next =>
      Honest world.store next.store := by
  have start : Onward world.store world := .refl truthful
  cases operation with
  | offload tensor expectedNextUse remainingConsumers allowVram =>
      refine (offload_honest truthful tensor expectedNextUse
        remainingConsumers allowVram).bind ?_ fun _ _ here => here.1
      intro handle next here
      exact leads_pure.mpr here.1
  | restore handle device retain => cases other
  | ensureCudaCapacity bytesNeeded protect context =>
      refine (Onward.evicting.ensureCudaCapacity start bytesNeeded protect
        context).mono ?_
      intro result next here
      exact here.honest
  | prepareTransient handles =>
      refine (Onward.evicting.prepareTransient start handles).mono ?_
      intro result next here
      exact here.honest
  | updatePriority handle nextUse remainingConsumers =>
      refine (updatePriority_spec handle nextUse remainingConsumers
        world).mono ?_
      intro result next given
      obtain ⟨update, tinkers, same⟩ := given
      rw [same]
      exact start.honest.tinkered handle update tinkers.blocks tinkers.size
        tinkers.value tinkers.resident
  | setAccessIndex index =>
      have beside : Beside world.store { world.store with
          accessIndex := if index ≤ world.store.accessIndex then
            world.store.accessIndex + 1 else index } :=
        ⟨rfl, rfl, rfl, rfl, rfl, rfl⟩
      exact start.honest.beside beside
  | free handle => exact free_honest truthful

end

namespace Faithful

variable {κ : Type} [LinearOrder κ] {settings : StoreSettings κ}
  {state next : Restores} {surroundings : Surroundings}

def Onto (store : TensorStore) (next : Restores) : Prop :=
  Faithful next ∧ Ages store next.store

theorem operated (faithful : Faithful state) {store : TensorStore}
    (honest : Honest state.store store) :
    Faithful { state with store := store } where
  truthful := honest.truthful
  underway worker one found :=
    (faithful.underway worker one found).later honest.ages
  returned handle result member := by
    obtain ⟨made, same⟩ := faithful.returned handle result member
    refine ⟨Nat.lt_of_lt_of_le made honest.ages.count, ?_⟩
    rw [same]
    exact (honest.ages.value handle made).symm

theorem operate (faithful : Faithful state) {operation : StoreOperation}
    (stepped : step settings state (.operate operation, surroundings) =
      some next) : Onto state.store next := by
  simp only [step] at stepped
  split at stepped
  · rename_i ready
    cases stepped
    have honest : (perform settings operation).Leads
        ⟨state.store, surroundings⟩ fun _ next =>
          Honest state.store next.store :=
      perform_honest faithful.truthful ready.2.1
    exact ⟨faithful.operated honest, honest.ages⟩
  · cases stepped

theorem start (faithful : Faithful state) {worker : Worker} {handle : Handle}
    {device : Option Device} {retain : Bool}
    (stepped : step settings state
      (.start worker handle device retain, surroundings) = some next) :
    Onto state.store next := by
  simp only [step] at stepped
  split at stepped
  · rename_i ready
    have sampled : (Restoring.sample settings handle device).Leads
        ⟨state.store, surroundings⟩ fun result next =>
          Honest state.store next.store ∧ ∀ target bytes,
            result = .ok (target, some bytes) →
              bytes = (next.store.handles handle).value :=
      sample_honest faithful.truthful device
    unfold Leads at sampled
    split at stepped
    · rename_i target bytes final ran
      cases stepped
      rw [ran] at sampled
      obtain ⟨honest, right⟩ := sampled
      refine ⟨faithful.deliver worker honest ready.2 ?_, honest.ages⟩
      rw [right target bytes rfl]
      exact honest.ages.value handle ready.2
    · rename_i target final ran
      cases stepped
      rw [ran] at sampled
      refine ⟨faithful.settle worker sampled.1 ?_, sampled.1.ages⟩
      intro one same
      cases same
      exact ⟨Nat.lt_of_lt_of_le ready.2 sampled.1.ages.count, trivial⟩
    · rename_i failure final ran
      cases stepped
      rw [ran] at sampled
      exact ⟨faithful.settle worker sampled.1 (by intros; contradiction), sampled.1.ages⟩
  · cases stepped

theorem advance (faithful : Faithful state) {worker : Worker}
    (complete : Complete state (.advance worker, surroundings))
    (stepped : step settings state (.advance worker, surroundings) =
      some next) : Onto state.store next := by
  simp only [step, Option.bind_eq_bind, Option.bind_eq_some_iff] at stepped
  obtain ⟨restoring, running, stepped⟩ := stepped
  have underway := faithful.underway worker restoring running
  have went : (restoring.next settings).Leads ⟨state.store, surroundings⟩
      (Went restoring state.store) :=
    next_went faithful.truthful underway (complete restoring running)
  unfold Leads at went
  split at stepped
  · rename_i later final ran
    cases stepped
    rw [ran] at went
    refine ⟨faithful.settle worker went.1 ?_, went.1.ages⟩
    intro one same
    cases same
    exact went.2
  · rename_i result final ran
    cases stepped
    rw [ran] at went
    exact ⟨faithful.deliver worker went.1 underway.1 went.2, went.1.ages⟩
  · rename_i failure final ran
    cases stepped
    rw [ran] at went
    exact ⟨faithful.settle worker went.1 nofun, went.1.ages⟩

theorem step (faithful : Faithful state)
    {event : RestoreEvent × Surroundings} (complete : Complete state event)
    (stepped : Restores.step settings state event = some next) :
    Onto state.store next := by
  obtain ⟨event, surroundings⟩ := event
  cases event with
  | operate operation => exact faithful.operate stepped
  | start worker handle device retain => exact faithful.start stepped
  | advance worker => exact faithful.advance complete stepped

theorem run (faithful : Faithful state)
    {events : List (RestoreEvent × Surroundings)}
    (complete : Execution.Along (Restores.step settings) Complete state events)
    (ran : Execution.run (Restores.step settings) state events = some next) :
    Onto state.store next := by
  refine Execution.run_invariant_along (Onto state.store) ?_
    ⟨faithful, Ages.refl _⟩ complete ran
  intro current event later given complete stepped
  obtain ⟨here, ages⟩ := given
  obtain ⟨there, ages'⟩ := here.step complete stepped
  exact ⟨there, ages.trans ages'⟩

theorem empty (gpuDevice : Bool) :
    Faithful { store := { gpuDevice := gpuDevice } } where
  truthful := ⟨fun _ _ => rfl, fun _ => ⟨nofun, rfl, nofun, .inl rfl⟩⟩
  underway _ _ found := by cases found
  returned _ _ member := by cases member

end Faithful

section

variable {κ : Type} [LinearOrder κ] (settings : StoreSettings κ)

/-- Where no restore goes through an incomplete list of blocks, every restore
that returns has returned the tensor that was offloaded. -/
theorem restored_tensors (gpuDevice : Bool)
    {events : List (RestoreEvent × Surroundings)} {state : Restores}
    (ran : Execution.run (step settings)
      { store := { gpuDevice := gpuDevice } } events = some state)
    (complete : Execution.Along (step settings) Complete
      { store := { gpuDevice := gpuDevice } } events) :
    (∀ handle bytes, (handle, bytes) ∈ state.returned →
      bytes = (state.store.handles handle).value) ∧
    ∀ before after tensor expectedNextUse remainingConsumers allowVram
      surroundings middle handle world,
      events = before ++ (.operate (.offload tensor expectedNextUse
        remainingConsumers allowVram), surroundings) :: after →
      Execution.run (step settings) { store := { gpuDevice := gpuDevice } }
        before = some middle →
      (offload settings tensor expectedNextUse remainingConsumers
        allowVram).run ⟨middle.store, surroundings⟩ = (.ok handle, world) →
      (state.store.handles handle).value = tensor.bytes := by
  have start := Faithful.empty gpuDevice
  refine ⟨fun handle bytes member => ?_, ?_⟩
  · exact ((start.run complete ran).1.returned handle bytes member).2
  · intro before after tensor expectedNextUse remainingConsumers allowVram
      surroundings middle handle world split reached offloaded
    subst split
    obtain ⟨front, along⟩ := complete.append reached
    have here := (start.run front reached).1
    obtain ⟨_, reached', back⟩ := Execution.run_append.mp ran
    cases reached.symm.trans reached'
    obtain ⟨next, stepped, rest⟩ := Execution.run_cons.mp back
    have there := (here.step along.1 stepped).1
    have later := (there.run (along.2 next stepped) rest).2
    have stored : next.store = world.store := by
      simp only [step, perform, Failing.run_bind, offloaded] at stepped
      split at stepped
      · cases stepped
        rfl
      · cases stepped
    have returned : (offload settings tensor expectedNextUse
        remainingConsumers allowVram).Leads ⟨middle.store, surroundings⟩
        fun result next => Honest middle.store next.store ∧ ∀ handle,
          result = .ok handle → handle < next.store.count ∧
            (next.store.handles handle).value = tensor.bytes :=
      offload_honest here.truthful tensor expectedNextUse remainingConsumers
        allowVram
    unfold Leads at returned
    rw [offloaded, ← stored] at returned
    obtain ⟨made, valued⟩ := returned.2 handle rfl
    rw [later.value handle made, valued]

end

def abcRestore : List (RestoreEvent × Surroundings) :=
  [(.operate (.offload ⟨[1, 2, 3], .cpu, true⟩ none 1 false), {}),
    (.start .main 0 none true, {}), (.start .prefetch 0 none true, {}),
    (.advance .main, {}), (.advance .prefetch, {}), (.advance .main, {}),
    (.advance .main, {}), (.advance .prefetch, {}), (.advance .main, {}),
    (.advance .main, {})]

def abcRestored : Restores :=
  (Execution.run (step abcSettings) {} abcRestore).getD {}

theorem abcRestored_ran :
    Execution.run (step abcSettings) {} abcRestore = some abcRestored := by
  have made : (Execution.run (step abcSettings) {} abcRestore).isSome =
      true := by decide +kernel
  obtain ⟨state, found⟩ := Option.isSome_iff_exists.mp made
  rw [abcRestored, found]
  rfl

theorem restored_tensors_abc :
    abcRestored.returned = [(0, [1, 2, 3])] ∧
      [1, 2, 3] = (abcRestored.store.handles 0).value := by
  have returned : abcRestored.returned = [(0, [1, 2, 3])] := by
    decide +kernel
  refine ⟨returned, (restored_tensors abcSettings false abcRestored_ran
    (by decide +kernel)).1 0 [1, 2, 3] ?_⟩
  rw [returned]
  exact List.mem_singleton_self _

/-- The tensor stays in the table without its blocks when a daemon refuses to
free one of them. -/
def refusedFree : List (RestoreEvent × Surroundings) :=
  [(.operate (.offload ⟨[1, 2, 3], .cpu, true⟩ none 1 false), {}),
    (.operate (.free 0), { releases := [.refused "expired"] }),
    (.start .main 0 none true, {}), (.advance .main, { contents := [9, 9] }),
    (.advance .main, {}), (.advance .main, {})]

/-- The main thread promotes the tensor while the prefetch thread is about to
read its blocks. -/
def promotedMeanwhile : List (RestoreEvent × Surroundings) :=
  let roomy : Surroundings := { readings := [⟨33554432, 0, 0⟩] }
  [(.operate (.offload ⟨[1, 2, 3], .cuda, true⟩ none 1 false), {}),
    (.start .prefetch 0 none true, {}), (.advance .prefetch, roomy),
    (.start .main 0 none true, {}), (.advance .main, roomy),
    (.advance .main, {}), (.advance .main, {}), (.advance .main, {}),
    (.advance .main, roomy), (.advance .prefetch, {}),
    (.advance .prefetch, {})]

def refusedState : Restores :=
  (Execution.run (step abcSettings) {} refusedFree).getD {}

def promotedState : Restores :=
  (Execution.run (step abcSettings) { store := { gpuDevice := true } }
    promotedMeanwhile).getD {}

theorem restore_returns_unread :
    (Execution.run (step abcSettings) {} refusedFree).isSome = true ∧
      refusedState.store.tensors = [0] ∧
      (refusedState.store.handles 0).value = [1, 2, 3] ∧
      refusedState.returned = [(0, [9, 9, 0])] ∧
    (Execution.run (step abcSettings) { store := { gpuDevice := true } }
        promotedMeanwhile).isSome = true ∧
      (promotedState.store.handles 0).value = [1, 2, 3] ∧
      promotedState.returned = [(0, [1, 2, 3]), (0, [0, 0, 0])] := by
  decide +kernel

end Restores

end TrainPool
