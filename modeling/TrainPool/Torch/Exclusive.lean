import TrainPool.Torch.Moves

namespace TrainPool

/-! Runs of the store, one operation after the other. -/

inductive StoreOperation where
  | offload (tensor : TensorStore.Tensor) (expectedNextUse : Option NextUse)
      (remainingConsumers : Int) (allowVram : Bool)
  | restore (handle : Handle) (device : Option Device) (retain : Bool)
  | ensureCudaCapacity (bytesNeeded : Int) (protect : List Handle)
      (context : Option String)
  | prepareTransient (handles : List Handle)
  | updatePriority (handle : Handle) (nextUse : Option NextUse)
      (remainingConsumers : Option Int)
  | setAccessIndex (index : Int)
  | free (handle : Handle)
  deriving DecidableEq, Repr

namespace StoreOperation

def handles : StoreOperation → List Handle
  | .restore handle _ _ => [handle]
  | .ensureCudaCapacity _ protect _ => protect
  | .prepareTransient handles => handles
  | .updatePriority handle _ _ => [handle]
  | .free handle => [handle]
  | _ => []

def isOffload : StoreOperation → Bool
  | .offload .. => true
  | _ => false

end StoreOperation

namespace TensorStore

open Failing World

section

variable {κ : Type} [LinearOrder κ] (settings : StoreSettings κ)

def perform : StoreOperation → Storing Unit
  | .offload tensor expectedNextUse remainingConsumers allowVram => do
      let _ ← offload settings tensor expectedNextUse remainingConsumers
        allowVram
  | .restore handle device retain => do
      let _ ← restore settings handle device retain
  | .ensureCudaCapacity bytesNeeded protect context =>
      ensureCudaCapacity settings bytesNeeded protect context
  | .prepareTransient handles => prepareTransient settings handles
  | .updatePriority handle nextUse remainingConsumers =>
      updatePriority handle nextUse remainingConsumers
  | .setAccessIndex index => do
      let _ ← setAccessIndex index
  | .free handle => free handle

/-- Handles come from offloads. -/
def Made (store : TensorStore) (operation : StoreOperation) : Prop :=
  ∀ handle ∈ operation.handles, handle < store.count

instance (store : TensorStore) (operation : StoreOperation) :
    Decidable (Made store operation) :=
  inferInstanceAs (Decidable (∀ handle ∈ operation.handles, _))

def step (store : TensorStore) (event : StoreOperation × Surroundings) :
    Option TensorStore :=
  if Made store event.1 then
    some ((perform settings event.1).run ⟨store, event.2⟩).2.store
  else none

theorem perform_finishes (operation : StoreOperation) :
    Finishes (perform settings operation) := by
  cases operation with
  | offload tensor expectedNextUse remainingConsumers allowVram =>
      exact .bind (offload_finishes _ _ _ _) fun _ => .pure ()
  | restore handle device retain =>
      exact .bind (restore_finishes _ _ _) fun _ => .pure ()
  | ensureCudaCapacity bytesNeeded protect context =>
      exact ensureCudaCapacity_finishes _ _ _
  | prepareTransient handles => exact .each spill_finishes handles
  | updatePriority handle nextUse remainingConsumers =>
      exact updatePriority_finishes handle nextUse remainingConsumers
  | setAccessIndex index => exact fun _ => nofun
  | free handle => exact free_finishes handle

structure Lasting (operation : StoreOperation) (store : TensorStore)
    (result : Except StoreFailure Unit) (next : World) : Prop where
  frees : next.Frees
  sound : Sound ∅ next.store
  value : ∀ handle < store.count,
    (next.store.handles handle).value = (store.handles handle).value
  listed : ∀ failure, result = .error failure →
    ∀ handle ∈ store.tensors, handle ∈ next.store.tensors
  failed : ∀ failure, result = .error failure → operation.isOffload = true →
    next.store.tensors = store.tensors ∧
      ∀ handle, store.count ≤ handle →
        (next.store.handles handle).blocks = []

theorem Steady.lasting {store : TensorStore} {world : World}
    (steady : Steady store world) (operation : StoreOperation)
    (other : operation.isOffload = false) (result : Except StoreFailure Unit) :
    Lasting operation store result world where
  frees := steady.frees
  sound := steady.sound
  value handle _ := steady.kept.value handle
  listed _ _ _ member := by
    rw [steady.kept.tensors]
    exact member
  failed _ _ offloads := by
    rw [other] at offloads
    cases offloads

theorem Sound.start (gpuDevice : Bool) :
    Sound ∅ { gpuDevice := gpuDevice } where
  holdings := by
    have same : (fun id => ((fun _ => none : Uuid → Option (List UInt8))
        id).isSome = true) = fun _ => False := by
      funext id
      simp
    have empty : Holdings (fun _ : Handle => []) (fun _ => False) 0 := .empty
    rw [← same] at empty
    exact empty
  blank _ _ := rfl
  nodup := List.nodup_nil
  known _ absent := absurd absent List.not_mem_nil
  sized _ := rfl
  counted := rfl
  settled _ absent := absurd absent List.not_mem_nil

theorem call_calm {world : World} (calm : world.surroundings.faults = []) :
    call.Leads world fun result next => result = .ok () ∧
      next.store = world.store ∧ next.surroundings.faults = [] := by
  unfold call
  simp only [leads_get_bind, leads_set_bind, calm]
  exact ⟨rfl, rfl, rfl⟩

theorem fill_calm {list : List BackingBlock} {offset : Nat}
    {region bytes : List UInt8} {world : World}
    (calm : world.surroundings.faults = [])
    (held : contents world.store.blocks list = some bytes)
    (fits : offset + bytes.length ≤ region.length) :
    (fill list offset region).Leads world fun result next =>
      result = .ok (Slice.overwrite region offset bytes) ∧
        next.surroundings.faults = [] := by
  induction list generalizing offset region bytes world with
  | nil =>
      cases held
      rw [Slice.overwrite_nil]
      exact leads_pure.mpr ⟨rfl, calm⟩
  | cons block rest ih =>
      simp only [contents, Option.pure_def, Option.bind_eq_bind,
        Option.bind_eq_some_iff, Option.some.injEq] at held
      obtain ⟨first, found, others, held, rfl⟩ := held
      rw [List.length_append] at fits
      have read : (readBlock block).Leads world fun result next =>
          result = .ok first ∧ next.store = world.store ∧
            next.surroundings.faults = [] := by
        refine (call_calm calm).bind ?_ ?_
        · intro _ next given
          obtain ⟨_, same, calm'⟩ := given
          refine leads_get_bind.mpr ?_
          rw [same, found]
          exact leads_pure.mpr ⟨rfl, same, calm'⟩
        · intro failure next given
          obtain ⟨ended, _⟩ := given
          cases ended
      have here : offset + first.length ≤ region.length := by omega
      have copied : (copyBlock block offset region).Leads world
          fun result next => result = .ok (offset + first.length,
            Slice.overwrite region offset first) ∧
              next.store = world.store ∧ next.surroundings.faults = [] := by
        refine read.bind ?_ ?_
        · intro got next given
          obtain ⟨ended, same, calm'⟩ := given
          cases ended
          rw [if_pos here]
          exact leads_pure.mpr ⟨rfl, same, calm'⟩
        · intro failure next given
          obtain ⟨ended, _⟩ := given
          cases ended
      refine copied.bind ?_ ?_
      · intro given next given'
        obtain ⟨_, _⟩ := given
        obtain ⟨ended, same, calm'⟩ := given'
        cases ended
        rw [← Slice.overwrite_overwrite here]
        refine ih calm' (by rw [same]; exact held) ?_
        rw [Slice.length_overwrite here]
        omega
      · intro failure next given
        obtain ⟨ended, _⟩ := given
        cases ended

/-- The tensor comes back on the CPU if no call fails. -/
def Restorable (store : TensorStore) (handle : Handle) (value : List UInt8) :
    Prop :=
  ∀ surroundings : Surroundings, surroundings.faults = [] → ∀ retain,
    (restore settings handle (some .cpu) retain).Leads ⟨store, surroundings⟩
      fun result _ => result = .ok value

omit [LinearOrder κ] in
theorem sampleResident_calm {world : World} {handle : Handle}
    (calm : world.surroundings.faults = [])
    (clean : (world.store.handles handle).dirty = false) :
    (sampleResident settings handle (some .cpu)).Leads world
      fun result next =>
        result = .ok (.cpu, (world.store.handles handle).resident) ∧
          next.surroundings.faults = [] ∧
          next.store.blocks = world.store.blocks ∧
          (next.store.handles handle).blocks =
            (world.store.handles handle).blocks ∧
          (next.store.handles handle).size =
            (world.store.handles handle).size := by
  refine (call_calm calm).bind ?_ ?_
  · intro _ next given
    obtain ⟨_, same, calm'⟩ := given
    refine leads_entry_bind.mpr ?_
    rw [same, if_neg (by simp [clean])]
    refine Leads.across (fun result final =>
      result = .ok () ∧ final = next) ⟨rfl, rfl⟩ ?_ ?_
    · intro _ final given
      obtain ⟨_, here⟩ := given
      cases here
      rw [if_neg (by simp)]
      refine leads_change_bind.mpr (leads_get_bind.mpr
        (leads_change_bind.mpr (leads_entry_bind.mpr (leads_pure.mpr ?_))))
      simp [altered, same, calm']
    · intro failure final given
      obtain ⟨ended, _⟩ := given
      cases ended
  · intro failure next given
    obtain ⟨ended, _⟩ := given
    cases ended

theorem restorable_of_tier {store : TensorStore} {handle : Handle}
    {value : List UInt8} (clean : (store.handles handle).dirty = false)
    (sized : (store.handles handle).size = value.length)
    (tier : (store.handles handle).resident = some value ∨
      (store.handles handle).resident = none ∧
        contents store.blocks (store.handles handle).blocks = some value) :
    Restorable settings store handle value := by
  intro surroundings calm retain
  refine Leads.bind (sampleResident_calm settings calm clean) ?_ ?_
  · intro given next given'
    obtain ⟨target, resident⟩ := given
    obtain ⟨sampled, calm', blocks, listed, size⟩ := given'
    cases sampled
    rcases tier with warm | ⟨cold, held⟩
    · simp only [warm]
      refine (call_calm calm').bind ?_ ?_
      · intro _ _ _
        exact leads_pure.mpr rfl
      · intro failure final given
        obtain ⟨ended, _⟩ := given
        cases ended
    · simp only [cold]
      have region : (prepareRegion settings handle .cpu).Leads next
          fun result final => final.surroundings.faults = [] ∧
            final.store = next.store ∧ ∃ region, result = .ok region ∧
              region.length = value.length := by
        refine leads_entry_bind.mpr ?_
        simp only
        rw [if_neg (by decide), size, sized]
        refine (call_calm calm').bind ?_ ?_
        · intro _ final given
          obtain ⟨_, same, calm''⟩ := given
          refine leads_get_bind.mpr (leads_set_bind.mpr (leads_pure.mpr
            ⟨calm'', same, _, rfl, ?_⟩))
          simp
          omega
        · intro failure final given
          obtain ⟨ended, _⟩ := given
          cases ended
      refine region.bind ?_ ?_
      · intro made final given
        obtain ⟨calm'', same, _, ended, length⟩ := given
        cases ended
        refine leads_entry_bind.mpr ?_
        rw [same, listed]
        refine (fill_calm calm'' (by rw [same, blocks]; exact held)
          (by rw [length]; omega)).bind ?_ ?_
        · intro filled last given
          obtain ⟨ended, _⟩ := given
          cases ended
          rw [Slice.overwrite_all length.symm]
          exact leads_pure.mpr rfl
        · intro failure last given
          obtain ⟨ended, _⟩ := given
          cases ended
      · intro failure final given
        obtain ⟨_, _, _, ended, _⟩ := given
        cases ended
  · intro failure next given
    obtain ⟨ended, _⟩ := given
    cases ended

theorem Sound.restorable {store : TensorStore} (sound : Sound ∅ store)
    {handle : Handle} (member : handle ∈ store.tensors) :
    Restorable settings store handle (store.handles handle).value := by
  obtain ⟨clean, tier⟩ := sound.settled handle member (Set.notMem_empty _)
  refine restorable_of_tier settings clean (sound.sized handle) ?_
  rcases tier with ⟨warm, _⟩ | written
  · exact .inl warm
  · exact .inr written

end

def abcSettings : StoreSettings Nat where
  blockBytes := 2
  computeProvider := true
  gpuBudgetBytes := 100
  evictionKey candidate _ := candidate.id
  positive := by decide

/-- A tensor that is retained on the GPU, and one that is written in two
blocks. -/
def abcOffloads : List (StoreOperation × Surroundings) :=
  [(.offload ⟨[1, 2, 3], .cuda, true⟩ none 1 true,
      { readings := [⟨33554432, 0, 0⟩, ⟨33554432, 0, 0⟩] }),
    (.offload ⟨[4, 5, 6], .cpu, true⟩ none 1 false, {})]

end TensorStore

end TrainPool
