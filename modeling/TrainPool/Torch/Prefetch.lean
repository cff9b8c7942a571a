import TrainPool.Torch.Exclusive
import TrainPool.Torch.Truth

namespace TrainPool

/-! A restore of the prefetch thread runs between the operations, and between
the parts of a restore, of the main thread. -/

inductive Worker where
  | main
  | prefetch
  deriving DecidableEq, Repr

/-- How far a restore that found no resident copy has come. -/
inductive RestoreStage where
  | sampled
  | prepared (region : List UInt8)
  | copying (rest : List BackingBlock) (offset : Nat) (region : List UInt8)
  deriving DecidableEq, Repr

def RestoreStage.isPrepared : RestoreStage → Bool
  | .prepared _ => true
  | _ => false

structure Restoring where
  handle : Handle
  target : Device
  retain : Bool
  stage : RestoreStage
  deriving DecidableEq, Repr

/-- `returned` has what the restores returned. -/
structure Restores where
  store : TensorStore := {}
  running : Worker → Option Restoring := fun _ => none
  returned : List (Handle × List UInt8) := []

inductive RestoreEvent where
  | operate (operation : StoreOperation)
  | start (worker : Worker) (handle : Handle) (device : Option Device)
      (retain : Bool)
  | advance (worker : Worker)
  deriving DecidableEq, Repr

def StoreOperation.isRestore : StoreOperation → Bool
  | .restore .. => true
  | _ => false

namespace Restoring

open TensorStore

variable {κ : Type} [LinearOrder κ] (settings : StoreSettings κ)

def sample (handle : Handle) (device : Option Device) :
    Storing (Device × Option (List UInt8)) := do
  let (target, resident) ← sampleResident settings handle device
  match resident with
  | some bytes => do
      call
      pure (target, some bytes)
  | none => pure (target, none)

def next (restoring : Restoring) : Storing (Restoring ⊕ List UInt8) :=
  match restoring.stage with
  | .sampled => do
      let region ← prepareRegion settings restoring.handle restoring.target
      pure (.inl { restoring with stage := .prepared region })
  | .prepared region => do
      let blocks := (← entry restoring.handle).blocks
      pure (.inl { restoring with stage := .copying blocks 0 region })
  | .copying (block :: rest) offset region => do
      let (offset, region) ← copyBlock block offset region
      pure (.inl { restoring with stage := .copying rest offset region })
  | .copying [] _ region => do
      let result ← promote settings restoring.handle restoring.target
        restoring.retain region
      pure (.inr result)

def rest (restoring : Restoring) : Storing (List UInt8) :=
  let copied := promote settings restoring.handle restoring.target
    restoring.retain
  match restoring.stage with
  | .sampled => do
      let region ← prepareRegion settings restoring.handle restoring.target
      let result ← fill (← entry restoring.handle).blocks 0 region
      copied result
  | .prepared region => do
      let result ← fill (← entry restoring.handle).blocks 0 region
      copied result
  | .copying blocks offset region => do
      let result ← fill blocks offset region
      copied result

theorem restore_parts (handle : Handle) (device : Option Device)
    (retain : Bool) :
    restore settings handle device retain = (do
      let (target, resident) ← sample settings handle device
      match resident with
      | some bytes => pure bytes
      | none => rest settings ⟨handle, target, retain, .sampled⟩) := by
  unfold restore sample
  rw [bind_assoc]
  congr 1
  funext (target, resident)
  cases resident with
  | some bytes => simp
  | none => simp [rest]

theorem rest_next (restoring : Restoring) :
    rest settings restoring = (do
      match ← next settings restoring with
      | .inl later => rest settings later
      | .inr result => pure result) := by
  obtain ⟨handle, target, retain, stage⟩ := restoring
  cases stage with
  | sampled => simp [rest, next]
  | prepared region => simp [rest, next]
  | copying blocks offset region =>
      cases blocks with
      | nil => simp [rest, next, fill]
      | cons block blocks => simp [rest, next, fill]

end Restoring

namespace Restores

open TensorStore

def settle (state : Restores) (worker : Worker) (store : TensorStore)
    (restoring : Option Restoring) : Restores :=
  { state with
    store := store
    running := Function.update state.running worker restoring }

def deliver (state : Restores) (worker : Worker) (store : TensorStore)
    (handle : Handle) (result : List UInt8) : Restores :=
  { state.settle worker store none with
    returned := state.returned ++ [(handle, result)] }

section

variable {κ : Type} [LinearOrder κ] (settings : StoreSettings κ)

def step (state : Restores) : RestoreEvent × Surroundings → Option Restores
  | (.operate operation, surroundings) =>
      if state.running .main = none ∧ operation.isRestore = false ∧
          Made state.store operation then
        some { state with
          store := ((perform settings operation).run
            ⟨state.store, surroundings⟩).2.store }
      else none
  | (.start worker handle device retain, surroundings) =>
      if state.running worker = none ∧ handle < state.store.count then
        match (Restoring.sample settings handle device).run
            ⟨state.store, surroundings⟩ with
        | (.ok (_, some bytes), world) =>
            some (state.deliver worker world.store handle bytes)
        | (.ok (target, none), world) =>
            some (state.settle worker world.store
              (some ⟨handle, target, retain, .sampled⟩))
        | (.error _, world) => some (state.settle worker world.store none)
      else none
  | (.advance worker, surroundings) => do
      let restoring ← state.running worker
      match (restoring.next settings).run ⟨state.store, surroundings⟩ with
      | (.ok (.inl later), world) =>
          some (state.settle worker world.store (some later))
      | (.ok (.inr result), world) =>
          some (state.deliver worker world.store restoring.handle result)
      | (.error _, world) => some (state.settle worker world.store none)

end

/-- A restore that goes through the blocks has all of them. -/
def Complete (state : Restores) : RestoreEvent × Surroundings → Prop
  | (.advance worker, _) => ∀ restoring ∈ state.running worker,
      restoring.stage.isPrepared = true →
        ((state.store.handles restoring.handle).blocks.map (·.size)).sum =
          (state.store.handles restoring.handle).size
  | _ => True

instance (state : Restores) : (event : RestoreEvent × Surroundings) →
    Decidable (Complete state event)
  | (.advance worker, _) =>
      inferInstanceAs (Decidable (∀ restoring ∈ state.running worker,
        restoring.stage.isPrepared = true → _))
  | (.operate _, _) => isTrue trivial
  | (.start .., _) => isTrue trivial

/-- What a restore has copied is the front of the tensor, and the blocks that
it has still to read hold the back. -/
def Underway (store : TensorStore) (restoring : Restoring) : Prop :=
  let value := (store.handles restoring.handle).value
  restoring.handle < store.count ∧
    match restoring.stage with
    | .sampled => True
    | .prepared region => region.length = value.length
    | .copying rest offset region => region.length = value.length ∧
        ∃ front back, value = front ++ back ∧ front.length = offset ∧
          region.take offset = front ∧ Backs store.blocks rest back ∧
            ∀ block ∈ rest, block.id < store.drawn

structure Faithful (state : Restores) : Prop where
  truthful : Truthful state.store
  underway : ∀ worker restoring, state.running worker = some restoring →
    Underway state.store restoring
  returned : ∀ handle result, (handle, result) ∈ state.returned →
    handle < state.store.count ∧
      result = (state.store.handles handle).value

theorem Underway.later {store next : TensorStore} {restoring : Restoring}
    (underway : Underway store restoring) (ages : Ages store next) :
    Underway next restoring := by
  obtain ⟨made, stage⟩ := underway
  refine ⟨Nat.lt_of_lt_of_le made ages.count, ?_⟩
  rw [ages.value _ made]
  split at stage
  · trivial
  · exact stage
  · obtain ⟨length, front, back, split, offset, copied, backs, named⟩ := stage
    exact ⟨length, front, back, split, offset, copied,
      ages.backs named backs,
      fun block member => Nat.lt_of_lt_of_le (named block member) ages.drawn⟩

namespace Faithful

variable {state : Restores} {store : TensorStore}

theorem settle (faithful : Faithful state) (worker : Worker)
    (honest : Honest state.store store) {restoring : Option Restoring}
    (mine : ∀ one, restoring = some one → Underway store one) :
    Faithful (state.settle worker store restoring) where
  truthful := honest.truthful
  underway := by
    intro other one found
    by_cases same : other = worker
    · subst same
      exact mine one (by simpa [Restores.settle] using found)
    · have old : state.running other = some one := by
        simpa [Restores.settle, same] using found
      exact (faithful.underway other one old).later honest.ages
  returned := by
    intro handle result member
    obtain ⟨made, same⟩ := faithful.returned handle result member
    refine ⟨Nat.lt_of_lt_of_le made honest.ages.count, ?_⟩
    rw [same]
    exact (honest.ages.value handle made).symm

theorem deliver (faithful : Faithful state) (worker : Worker)
    (honest : Honest state.store store) {handle : Handle}
    {result : List UInt8} (made : handle < state.store.count)
    (right : result = (state.store.handles handle).value) :
    Faithful (state.deliver worker store handle result) := by
  have settled : Faithful (state.settle worker store none) :=
    faithful.settle worker honest nofun
  refine ⟨settled.truthful, settled.underway, fun other bytes member => ?_⟩
  rcases List.mem_append.mp member with old | new
  · exact settled.returned other bytes old
  · cases List.mem_singleton.mp new
    refine ⟨Nat.lt_of_lt_of_le made honest.ages.count, ?_⟩
    rw [right]
    exact (honest.ages.value handle made).symm

end Faithful

/-! What the parts of a restore leave. -/

section

open Failing World

variable {κ : Type} {settings : StoreSettings κ} {world : World}
  {handle : Handle}

theorem sampleResident_honest (truthful : Truthful world.store)
    (device : Option Device) :
    (sampleResident settings handle device).Leads world fun result next =>
      Honest world.store next.store ∧ ∀ target resident,
        result = .ok (target, resident) →
          resident = (next.store.handles handle).resident := by
  have start := Honest.refl truthful
  refine (call_undisturbed world).bind ?_ ?_
  · intro _ ready quiet
    have here := start.undisturbed quiet
    refine leads_entry_bind.mpr ?_
    simp only
    split
    · exact leads_throw.mpr ⟨here, nofun⟩
    · refine (requireCuda_beside settings _ ready).bind ?_ ?_
      · intro _ next given
        obtain ⟨_, beside⟩ := given
        have here := here.beside beside
        split
        · exact leads_throw.mpr ⟨here, nofun⟩
        · have first := here.tinkered handle
            (fun entry => { entry with reuseCount := entry.reuseCount + 1 })
            (fun _ => rfl) (fun _ => rfl) (fun _ => rfl) fun _ => rfl
          have second := first.tinkered handle
            (fun entry =>
              { entry with accessIndex := next.store.accessIndex })
            (fun _ => rfl) (fun _ => rfl) (fun _ => rfl) fun _ => rfl
          refine leads_change_bind.mpr (leads_get_bind.mpr
            (leads_change_bind.mpr (leads_entry_bind.mpr (leads_pure.mpr
              ⟨second, ?_⟩))))
          intro target resident same
          cases same
          rfl
      · intro failure next given
        obtain ⟨_, beside⟩ := given
        exact ⟨here.beside beside, nofun⟩
  · intro failure next quiet
    exact ⟨start.undisturbed quiet, nofun⟩

theorem promote_honest (truthful : Truthful world.store)
    {bytes : List UInt8} (whole : bytes = (world.store.handles handle).value)
    (target : Device) (retain : Bool) :
    (promote settings handle target retain bytes).Leads world
      fun result next => Honest world.store next.store ∧
        ∀ restored, result = .ok restored → restored = bytes := by
  have start := Honest.refl truthful
  have unchanged {next : World} (honest : Honest world.store next.store) :
      (pure bytes : Storing (List UInt8)).Leads next fun result final =>
        Honest world.store final.store ∧
          ∀ restored, result = .ok restored → restored = bytes := by
    refine leads_pure.mpr ⟨honest, fun restored same => ?_⟩
    cases same
    rfl
  unfold promote
  split
  · have priced := start.tinkered handle (fun entry => { entry with
      transferCost := transferCost entry.blocks entry.size })
      (fun _ => rfl) (fun _ => rfl) (fun _ => rfl) fun _ => rfl
    refine leads_change_bind.mpr ?_
    split
    · refine leads_entry_bind.mpr ?_
      simp only
      refine (effectiveVramCapacity_undisturbed _).bind ?_ ?_
      · intro capacity next quiet
        have stored : next.store = world.store.altered handle
            (fun entry => { entry with
              transferCost := transferCost entry.blocks entry.size }) :=
          quiet.1
        rw [← stored] at priced
        refine leads_get_bind.mpr ?_
        split
        · refine leads_change_bind.mpr (leads_changeStore_bind.mpr ?_)
          have value : (next.store.handles handle).value = bytes := by
            rw [stored, whole]
            simp [altered]
          refine Leads.across (fun _ (final : World) =>
            Honest world.store final.store) ?_ ?_ fun _ _ here => ⟨here, (by intros; contradiction)⟩
          · refine (dropBlocks_spec _ handle).mono ?_
            intro result final given
            obtain ⟨_, freed⟩ := given
            refine (priced.dropped freed ?_ rfl rfl rfl ?_ ?_ ?_).1
            · intro other differ
              simp [altered, differ]
            · simp [altered]
            · simp [altered]
            · intro resident warm
              simp only [altered, Function.update_self, Option.some.injEq]
                at warm
              simp [altered, value, warm]
          · intro _ final here
            refine (call_undisturbed final).bind ?_ ?_
            · intro _ last quiet
              exact unchanged (here.undisturbed quiet)
            · intro failure last quiet
              exact ⟨here.undisturbed quiet, (by intros; contradiction)⟩
        · exact unchanged priced
      · intro failure next quiet
        exact ⟨priced.undisturbed quiet, (by intros; contradiction)⟩
    · exact unchanged priced
  · exact unchanged start

end

section

open Failing World

variable {κ : Type} [LinearOrder κ] {settings : StoreSettings κ}
  {world : World}

omit [LinearOrder κ] in
theorem sample_honest {handle : Handle} (truthful : Truthful world.store)
    (device : Option Device) :
    (Restoring.sample settings handle device).Leads world fun result next =>
      Honest world.store next.store ∧ ∀ target bytes,
        result = .ok (target, some bytes) →
          bytes = (next.store.handles handle).value := by
  refine (sampleResident_honest truthful device).bind ?_ ?_
  · intro given next given'
    obtain ⟨target, resident⟩ := given
    obtain ⟨honest, sampled⟩ := given'
    cases resident with
    | none => exact leads_pure.mpr ⟨honest, nofun⟩
    | some bytes =>
        have warm := (sampled target (some bytes) rfl).symm
        have value := ((honest.truthful.handles handle).warm bytes warm).1
        refine (call_undisturbed next).bind ?_ ?_
        · intro _ final quiet
          refine leads_pure.mpr ⟨honest.undisturbed quiet, ?_⟩
          intro target copy same
          cases same
          rw [quiet.1]
          exact value
        · intro failure final quiet
          exact ⟨honest.undisturbed quiet, nofun⟩
  · intro failure next given
    obtain ⟨honest, _⟩ := given
    exact ⟨honest, nofun⟩

def Went (restoring : Restoring) (store : TensorStore)
    (result : Except StoreFailure (Restoring ⊕ List UInt8)) (next : World) :
    Prop :=
  Honest store next.store ∧ match result with
    | .ok (.inl later) => Underway next.store later
    | .ok (.inr bytes) => bytes = (store.handles restoring.handle).value
    | .error _ => True

theorem prepared_went {handle : Handle} (truthful : Truthful world.store)
    (made : handle < world.store.count) (target : Device) (retain : Bool) :
    (Restoring.next settings ⟨handle, target, retain, .sampled⟩).Leads world
      (Went ⟨handle, target, retain, .sampled⟩ world.store) := by
  have start : Onward world.store world := .refl truthful
  have size := (truthful.handles handle).sized
  have filled {next : World} (here : Onward world.store next) :
      (empty (world.store.handles handle).size).Leads next fun result final =>
        Onward world.store final ∧ ∀ region, result = .ok region →
          region.length = (world.store.handles handle).size := by
    refine Leads.mono (.and (empty_undisturbed _ next)
      (length_empty (world.store.handles handle).size next)) ?_
    intro result final given
    obtain ⟨quiet, length⟩ := given
    have evicting : Evicting settings (Onward world.store) :=
      Onward.evicting
    exact ⟨evicting.quiet next final here quiet, length⟩
  have prepares : (prepareRegion settings handle target).Leads world
      fun result next => Onward world.store next ∧ ∀ region,
        result = .ok region →
          region.length = (world.store.handles handle).size := by
    unfold prepareRegion
    refine leads_entry_bind.mpr ?_
    simp only
    split
    · refine (Onward.evicting.ensureCudaCapacity start _ [handle]
        none).bind ?_ ?_
      · intro _ next here
        exact filled here
      · intro failure next here
        exact ⟨here, nofun⟩
    · exact filled start
  refine prepares.bind ?_ ?_
  · intro region next given
    obtain ⟨here, length⟩ := given
    refine leads_pure.mpr ⟨here.honest, ?_, ?_⟩
    · exact Nat.lt_of_lt_of_le made here.ages.count
    · rw [here.ages.value handle made, ← size]
      exact length region rfl
  · intro failure next given
    obtain ⟨here, _⟩ := given
    exact ⟨here.honest, trivial⟩

theorem next_went {restoring : Restoring} (truthful : Truthful world.store)
    (underway : Underway world.store restoring)
    (complete : restoring.stage.isPrepared = true →
      ((world.store.handles restoring.handle).blocks.map (·.size)).sum =
        (world.store.handles restoring.handle).size) :
    (restoring.next settings).Leads world
      (Went restoring world.store) := by
  obtain ⟨handle, target, retain, stage⟩ := restoring
  obtain ⟨made, here⟩ := underway
  have start := Honest.refl truthful
  cases stage with
  | sampled => exact prepared_went truthful made target retain
  | prepared region =>
      obtain ⟨named, sized, _, backed⟩ := truthful.handles handle
      refine leads_entry_bind.mpr (leads_pure.mpr ⟨start, made, here, [],
        (world.store.handles handle).value, rfl, rfl, rfl, ?_, named⟩)
      rcases backed with bare | backs
      · have size := complete rfl
        simp only [bare, List.map_nil, List.sum_nil] at size
        rw [sized] at size
        simp only [bare]
        exact List.eq_nil_of_length_eq_zero size.symm
      · exact backs
  | copying rest offset region =>
      obtain ⟨length, front, back, split, begun, copied, backs, named⟩ := here
      simp only at length split
      cases rest with
      | nil =>
          have whole : region = (world.store.handles handle).value := by
            simp only [Backs] at backs
            subst backs
            rw [List.append_nil] at split
            rw [split, ← copied, List.take_of_length_le]
            rw [length, split]
            exact Nat.le_of_eq begun
          refine (promote_honest truthful whole target retain).bind ?_ ?_
          · intro bytes next given
            obtain ⟨honest, restored⟩ := given
            refine leads_pure.mpr ⟨honest, ?_⟩
            simp only
            rw [restored bytes rfl, whole]
          · intro failure next given
            obtain ⟨honest, _⟩ := given
            exact ⟨honest, trivial⟩
      | cons block blocks =>
          obtain ⟨piece, others, rfl, held, backs⟩ := backs
          refine (copyBlock_spec block offset region world).bind ?_ ?_
          · intro given next given'
            obtain ⟨_, _⟩ := given
            obtain ⟨quiet, got⟩ := given'
            obtain ⟨bytes, found, fits, same⟩ := got _ rfl
            cases same
            have right : bytes = piece := by
              rcases held with lost | held
              · rw [lost] at found
                cases found
              · exact Option.some.inj (found.symm.trans held)
            subst right
            refine leads_pure.mpr ⟨start.undisturbed quiet, ?_⟩
            refine Underway.later ?_ (start.undisturbed quiet).ages
            refine ⟨made, ?_, front ++ bytes, others, ?_, ?_, ?_, backs, ?_⟩
            · rw [Slice.length_overwrite fits]
              exact length
            · simp only
              rw [split, List.append_assoc]
            · rw [List.length_append, begun]
            · rw [Slice.take_overwrite_end (by omega), copied]
            · exact fun other member =>
                named other (List.mem_cons_of_mem _ member)
          · intro failure next given
            obtain ⟨quiet, _⟩ := given
            exact ⟨start.undisturbed quiet, trivial⟩

end

end Restores

end TrainPool
