import TrainPool.Torch.Arranged
import TrainPool.Torch.Selection

namespace TrainPool

/-! Room on the GPU: when the evictions come to an end, what they spare, and
what is left of the tensors that they move. -/

namespace TensorStore

open Failing World

section

variable {κ : Type} [LinearOrder κ] (settings : StoreSettings κ)

/-- The refusal of `ensure_cuda_capacity`. -/
def unsupported (bytesNeeded additional : Int) (context : Option String)
    (snapshot : CudaReading) (store : TensorStore) : StoreFailure :=
  let detail := context.elim "" (s!" {·}")
  .error s!"TRAINPOOL_UNSUPPORTED_WORKING_SET:{detail} required={bytesNeeded} additional={additional} {diagnostic settings snapshot store.residentBytes}"

/-- `evictUntil` with the snapshot that the loop ends on. -/
def evictUntilFits (bytesNeeded additional : Int) (protect : List Handle)
    (context : Option String) : Nat → Storing CudaReading
  | 0 => throw .unfinished
  | rounds + 1 => do
      let snapshot ← reading
      let safe := safeAllocatableNow settings snapshot
      if additional ≤ safe then
        pure snapshot
      else do
        let store := (← get).store
        let selected := selectEvictions settings
          (store.residentCandidates protect) (additional - safe)
          store.accessIndex
        if selected = [] then
          throw (unsupported settings bytesNeeded additional context snapshot
            store)
        else do
          Failing.each (fun candidate => spill settings candidate.id) selected
          evictUntilFits bytesNeeded additional protect context rounds

/-- The bytes of the protected tensors that are resident, each counted once. -/
def protectedResident (store : TensorStore) (protect : List Handle) : Nat :=
  ((protect.dedup.filter fun handle =>
    (store.handles handle).resident.isSome).map fun handle =>
      (store.handles handle).size).sum

/-- `ensure_cuda_capacity` with the snapshot that it returns. -/
def cudaCapacity (bytesNeeded : Int) (protect : List Handle)
    (context : Option String) : Storing (Option CudaReading) := do
  let store := (← get).store
  if store.gpuDevice then
    let snapshot ← evictUntilFits settings bytesNeeded
      (max 0 (bytesNeeded - protectedResident store protect)) protect context
      (store.tensors.length + 1)
    pure (some snapshot)
  else
    pure none

theorem evictUntil_eq (bytesNeeded additional : Int) (protect : List Handle)
    (context : Option String) (rounds : Nat) :
    evictUntil settings bytesNeeded additional protect context rounds = (do
      let _ ← evictUntilFits settings bytesNeeded additional protect context
        rounds
      pure ()) := by
  induction rounds with
  | zero => rfl
  | succ rounds ih =>
      unfold evictUntil evictUntilFits
      rw [bind_assoc]
      congr 1
      funext snapshot
      simp only
      split
      · rfl
      · rw [bind_assoc]
        congr 1
        funext world
        split
        · rfl
        · rw [bind_assoc]
          congr 1
          funext _
          exact ih

theorem ensureCudaCapacity_eq (bytesNeeded : Int) (protect : List Handle)
    (context : Option String) :
    ensureCudaCapacity settings bytesNeeded protect context = (do
      let _ ← cudaCapacity settings bytesNeeded protect context
      pure ()) := by
  unfold ensureCudaCapacity cudaCapacity
  rw [bind_assoc]
  congr 1
  funext world
  simp only
  split
  · rw [evictUntil_eq, bind_assoc]
    rfl
  · rfl

end

/-! What an operation raises comes from the calls that it makes. -/

/-- One of the calls to come raises the failure. -/
def Raised (world : World) (failure : StoreFailure) : Prop :=
  ∃ message, some message ∈ world.surroundings.faults ∧
    failure = .error message

def Consumes (world next : World) : Prop :=
  next.surroundings.faults ⊆ world.surroundings.faults

theorem Consumes.trans {first second third : World}
    (early : Consumes first second) (late : Consumes second third) :
    Consumes first third :=
  List.Subset.trans late early

theorem Raised.earlier {world next : World} {failure : StoreFailure}
    (consumes : Consumes world next) (raised : Raised next failure) :
    Raised world failure := by
  obtain ⟨message, member, same⟩ := raised
  exact ⟨message, consumes member, same⟩

def Tells {α : Type} (program : Storing α) : Prop :=
  ∀ world, program.Leads world fun result next =>
    Consumes world next ∧ ∀ failure, result = .error failure →
      Raised world failure

namespace Tells

theorem quiet {α : Type} {program : Storing α}
    (ends : ∀ world, program.Leads world fun result next =>
      next.surroundings.faults = world.surroundings.faults ∧
        ∃ value, result = .ok value) : Tells program := by
  intro world
  refine (ends world).mono ?_
  intro result next given
  obtain ⟨same, value, rfl⟩ := given
  exact ⟨fun fault member => same ▸ member, by intros; contradiction⟩

theorem pure {α : Type} (value : α) : Tells (Pure.pure value) :=
  .quiet fun _ => leads_pure.mpr ⟨rfl, value, rfl⟩

theorem change (handle : Handle) (update : TensorHandle → TensorHandle) :
    Tells (change handle update) :=
  .quiet fun _ => leads_change.mpr ⟨rfl, (), rfl⟩

theorem bind {α β : Type} {first : Storing α} {second : α → Storing β}
    (early : Tells first) (late : ∀ value, Tells (second value)) :
    Tells (first >>= second) := by
  intro world
  refine (early world).bind ?_ ?_
  · intro value next given
    obtain ⟨consumes, _⟩ := given
    refine (late value next).mono ?_
    intro result final given
    obtain ⟨consumes', raised⟩ := given
    exact ⟨consumes.trans consumes',
      fun failure same => (raised failure same).earlier consumes⟩
  · intro failure next given
    obtain ⟨consumes, raised⟩ := given
    refine ⟨consumes, fun other same => ?_⟩
    cases same
    exact raised failure rfl

theorem rescue {α : Type} {body : Storing α} {clean : Storing Unit}
    (tells : Tells body) (quiet : Respects Consumes clean)
    (ends : ∀ world, clean.Leads world fun result _ => result = .ok ()) :
    Tells (tryCatch body fun failure => do
      clean
      throw failure) := by
  intro world
  refine (tells world).rescue (fun _ _ here => ⟨here.1, ?_⟩) ?_
  · intros
    contradiction
  · intro failure next given
    obtain ⟨consumes, raised⟩ := given
    refine (Leads.and (quiet next) (ends next)).bind ?_ ?_
    · intro _ final given
      refine leads_throw.mpr ⟨consumes.trans given.1, fun other same => ?_⟩
      cases same
      exact raised failure rfl
    · intro _ final given
      exact nomatch given.2

theorem each {α : Type} {body : α → Storing Unit} {items : List α}
    (all : ∀ item, Tells (body item)) : Tells (Failing.each body items) := by
  induction items with
  | nil => exact .pure ()
  | cons item rest ih => exact .bind (all item) fun _ => ih

theorem call : Tells call := by
  intro world
  refine leads_get_bind.mpr (leads_set_bind.mpr ?_)
  have consumes : world.surroundings.faults.tail ⊆
      world.surroundings.faults := List.tail_subset _
  split
  · rename_i message found
    refine leads_throw.mpr ⟨consumes, fun failure same => ?_⟩
    cases same
    exact ⟨message, List.mem_of_mem_head? found, rfl⟩
  · exact leads_pure.mpr ⟨consumes, by intros; contradiction⟩

theorem freeBlock (block : BackingBlock) :
    Respects Consumes (suppress (freeBlock block)) := by
  intro world
  have freed : (TensorStore.freeBlock block).Leads world fun _ next =>
      Consumes world next := by
    refine leads_get_bind.mpr (leads_set_bind.mpr ?_)
    split
    · exact leads_throw.mpr (List.Subset.refl _)
    · exact leads_modify_bind.mpr (leads_throw.mpr (List.Subset.refl _))
    · exact leads_modify.mpr (List.Subset.refl _)
  exact (suppress_spec freed).mono fun _ _ here => here.2

theorem putChunks (bytes : List UInt8) : Tells (putChunks bytes) := by
  refine .bind (.bind .call fun _ => .quiet fun _ => ⟨rfl, _, rfl⟩)
    fun block => .rescue ?_ (freeBlock block) ?_
  · refine .bind .call fun _ => .bind (.each fun chunk => ?_) fun _ =>
      .bind .call fun _ => .pure block
    exact .bind .call fun _ => .quiet fun _ => ⟨rfl, (), rfl⟩
  · exact fun world =>
      (suppress_freeBlock world block).mono fun _ _ here => here.1

theorem writePieces (handle : Handle) (pieces : List (List UInt8))
    (written : List BackingBlock) :
    Tells (writePieces handle pieces written) := by
  induction pieces generalizing written with
  | nil => exact .pure written
  | cons piece rest ih =>
      refine .bind (.rescue (.bind .call fun _ => putChunks piece) ?_ ?_)
        fun block => .bind (.change _ _) fun _ => ih _
      · have frees : Respects Consumes (Failing.each
            (fun block => suppress (TensorStore.freeBlock block))
            written) := by
          apply Respects.each
          · exact fun _ => List.Subset.refl _
          · exact Consumes.trans
          · exact fun block _ => freeBlock block
        refine Respects.bind Consumes.trans frees fun _ _ => ?_
        exact leads_change.mpr (List.Subset.refl _)
      · intro world
        refine (suppress_freeBlocks world written).bind ?_ ?_
        · intro _ next _
          exact leads_change.mpr rfl
        · intro failure next given
          exact nomatch given.1

variable {κ : Type} {settings : StoreSettings κ}

theorem spill (handle : Handle) : Tells (spill settings handle) := by
  refine .bind (.quiet fun _ => ⟨rfl, _, rfl⟩) fun entry => ?_
  split
  · exact .pure ()
  · refine .bind (.change _ _) fun _ => .bind (.rescue
      (writePieces _ _ _) (fun _ => ?_) fun _ => ?_) fun blocks => ?_
    · exact leads_change.mpr (List.Subset.refl _)
    · exact leads_change.mpr rfl
    · refine .bind (.change _ _) fun _ => .bind
        (.quiet fun _ => ⟨rfl, _, rfl⟩) fun _ => .bind
        (.quiet fun _ => ⟨rfl, (), rfl⟩) fun _ => .change _ _

end Tells

/-! What evictions spare, and what they leave of what they do not. -/

/-- An eviction may take the tensor. -/
def Evictable (store : TensorStore) (protect : List Handle)
    (handle : Handle) : Prop :=
  handle ∈ store.tensors ∧ handle ∉ protect ∧
    (store.handles handle).dirty = false

structure Durable (store : TensorStore) (handle : Handle)
    (bytes : List UInt8) : Prop where
  clean : (store.handles handle).dirty = false
  sized : (store.handles handle).size = bytes.length
  cold : (store.handles handle).resident = none
  held : contents store.blocks (store.handles handle).blocks = some bytes

/-- Every tensor is as it was, or an eviction that might take it has written
it. -/
structure Evacuates (protect : List Handle) (start next : TensorStore) :
    Prop where
  arranged : Arranged next
  tensors : next.tensors = start.tensors
  drawn : start.drawn ≤ next.drawn
  old : ∀ id, id < start.drawn → next.blocks id = start.blocks id
  handles : ∀ handle, next.handles handle = start.handles handle ∨
    Evictable start protect handle ∧ ∃ bytes,
      (start.handles handle).resident = some bytes ∧
        Durable next handle bytes

section Evacuates

variable {protect : List Handle} {start store next : TensorStore}
  {handle : Handle}

theorem Durable.later {bytes : List UInt8} (arranged : Arranged store)
    (durable : Durable store handle bytes)
    (same : next.handles handle = store.handles handle)
    (old : ∀ id, id < store.drawn → next.blocks id = store.blocks id) :
    Durable next handle bytes := by
  obtain ⟨clean, sized, cold, held⟩ := durable
  constructor
  · rwa [same]
  · rwa [same]
  · rwa [same]
  · rw [same, ← held]
    exact contents_congr fun block member =>
      old block.id ((arranged.handles handle).named block member)

namespace Evacuates

theorem refl (arranged : Arranged start) : Evacuates protect start start :=
  ⟨arranged, rfl, Nat.le_refl _, fun _ _ => rfl, fun _ => .inl rfl⟩

theorem trans (early : Evacuates protect start store)
    (late : Evacuates protect store next) :
    Evacuates protect start next where
  arranged := late.arranged
  tensors := late.tensors.trans early.tensors
  drawn := Nat.le_trans early.drawn late.drawn
  old id below := by
    rw [late.old id (Nat.lt_of_lt_of_le below early.drawn),
      early.old id below]
  handles handle := by
    rcases late.handles handle with same | ⟨evictable, bytes, warm, durable⟩
    · rcases early.handles handle with kept | ⟨evictable, bytes, warm, durable⟩
      · exact .inl (same.trans kept)
      · exact .inr ⟨evictable, bytes, warm,
          durable.later early.arranged same late.old⟩
    · rcases early.handles handle with kept | ⟨_, _, _, before⟩
      · rw [kept] at warm
        unfold Evictable at evictable
        rw [early.tensors, kept] at evictable
        exact .inr ⟨evictable, bytes, warm, durable⟩
      · rw [before.cold] at warm
        cases warm

end Evacuates

theorem Evicts.evacuates (arranged : Arranged store)
    (evicts : Evicts handle store next)
    (spared : (store.handles handle).resident = none ∨
      Evictable store protect handle) :
    Evacuates protect store next := by
  refine ⟨(evicts.orders arranged).arranged, evicts.tensors, evicts.drawn,
    evicts.old, fun other => ?_⟩
  obtain ⟨entry, eviction, handles⟩ := evicts.entry
  by_cases here : other = handle
  · subst here
    have entry_eq : next.handles other = entry := by
      rw [handles, Function.update_self]
    rw [entry_eq]
    rcases spared with cold | evictable
    · cases eviction with
      | cold _ => exact .inl rfl
      | failed warm => exact absurd cold warm
      | moved resident blocks cost warm named held =>
          rw [cold] at warm
          cases warm
    · obtain ⟨listed, free, clean⟩ := evictable
      cases eviction with
      | cold _ => exact .inl rfl
      | failed warm =>
          rw [← clean]
          exact .inl rfl
      | moved resident blocks cost warm named held =>
          refine .inr ⟨⟨listed, free, clean⟩, resident, warm, ?_⟩
          have sized := ((arranged.handles other).warm resident warm).2
          constructor
          · rw [entry_eq]
          · rw [entry_eq]
            exact sized.symm
          · rw [entry_eq]
          · rw [entry_eq]
            exact held
  · rw [handles, Function.update_of_ne here]
    exact .inl rfl

section

variable {κ : Type} {settings : StoreSettings κ} {world : World}

theorem Evacuates.candidate {candidate : ResidencyCandidate}
    (evacuates : Evacuates protect start store)
    (member : candidate ∈ store.residentCandidates protect) :
    Evictable start protect candidate.id := by
  unfold residentCandidates at member
  obtain ⟨handle, listed, rfl⟩ := List.mem_map.mp member
  rw [List.mem_filter] at listed
  simp only [Bool.and_eq_true, decide_eq_true_eq, Bool.not_eq_eq_eq_not,
    Bool.not_true] at listed
  obtain ⟨listed, ⟨warm, free⟩, clean⟩ := listed
  rcases evacuates.handles handle with same | ⟨_, _, _, durable⟩
  · exact ⟨evacuates.tensors ▸ listed, free, same ▸ clean⟩
  · rw [durable.cold] at warm
    cases warm

theorem spill_evacuates
    (evacuates : Evacuates protect start world.store)
    (evictable : Evictable start protect handle) :
    (spill settings handle).Leads world fun _ next =>
      Evacuates protect start next.store := by
  refine (spill_evicts evacuates.arranged).mono ?_
  intro _ next evicts
  refine evacuates.trans (evicts.evacuates evacuates.arranged ?_)
  rcases evacuates.handles handle with same | ⟨_, _, _, durable⟩
  · refine .inr ?_
    unfold Evictable
    rw [evacuates.tensors, same]
    exact evictable
  · exact .inl durable.cold

theorem spills_evacuate {begin : World}
    (evacuates : Evacuates protect begin.store world.store)
    (consumes : Consumes begin world)
    {selected : List ResidencyCandidate}
    (evictable : ∀ candidate ∈ selected,
      Evictable begin.store protect candidate.id) :
    (each (fun candidate => spill settings candidate.id) selected).Leads world
      fun result next => Evacuates protect begin.store next.store ∧
        Consumes begin next ∧ ∀ failure, result = .error failure →
          Raised begin failure := by
  have tells : Tells (each (fun candidate => spill settings candidate.id)
      selected) := Tells.each fun candidate => Tells.spill candidate.id
  have spills : (each (fun candidate => spill settings candidate.id)
      selected).Leads world fun _ next =>
        Evacuates protect begin.store next.store :=
    Leads.each (fun next : World => Evacuates protect begin.store next.store)
      evacuates fun candidate member _ here =>
        spill_evacuates here (evictable candidate member)
  refine (Leads.and spills (tells world)).mono ?_
  intro result next given
  obtain ⟨evacuates, consumes', raised⟩ := given
  exact ⟨evacuates, consumes.trans consumes',
    fun failure same => (raised failure same).earlier consumes⟩

variable [LinearOrder κ]

theorem selectEvictions_nil {candidates : List ResidencyCandidate}
    {needed currentStep : Int} (positive : 0 < needed)
    (nothing : selectEvictions settings candidates needed currentStep = []) :
    ((candidates.map (·.size)).sum : Nat) < needed := by
  rcases @selectEvictions_cases κ settings _ needed positive candidates
    currentStep with ⟨below, _⟩ | ⟨_, minimal⟩
  · exact below
  · have enough := minimal.covers
    rw [nothing] at enough
    exact absurd enough (Int.not_le.mpr positive)

/-- How the loop ends: enough is free, a call has raised, or what could still
be evicted is not enough. -/
def Concluded (settings : StoreSettings κ) (bytesNeeded additional : Int)
    (protect : List Handle) (context : Option String) (start : World) :
    Except StoreFailure CudaReading → World → Prop :=
  Ending (fun snapshot _ => additional ≤ safeAllocatableNow settings snapshot)
    fun failure next => failure = .unfinished ∨ Raised start failure ∨
      ∃ snapshot, failure = unsupported settings bytesNeeded additional context
          snapshot next.store ∧
        (((next.store.residentCandidates protect).map (·.size)).sum : Nat) <
          additional - safeAllocatableNow settings snapshot

theorem evictUntilFits_spec {begin : World} (bytesNeeded additional : Int)
    (context : Option String) (rounds : Nat)
    (evacuates : Evacuates protect begin.store world.store)
    (consumes : Consumes begin world) :
    (evictUntilFits settings bytesNeeded additional protect context
      rounds).Leads world fun result next =>
        Evacuates protect begin.store next.store ∧
          Concluded settings bytesNeeded additional protect context begin
            result next := by
  induction rounds generalizing world with
  | zero => exact leads_throw.mpr ⟨evacuates, .inl rfl⟩
  | succ rounds ih =>
      have quiet : reading.Leads world fun result next =>
          next.store = world.store ∧ Consumes world next ∧
            ∃ snapshot, result = .ok snapshot :=
        ⟨rfl, List.Subset.refl _, _, rfl⟩
      refine quiet.bind ?_ ?_
      · intro snapshot ready given
        obtain ⟨same, consumes', _⟩ := given
        have consumes := consumes.trans consumes'
        rw [← same] at evacuates
        simp only
        split
        · rename_i fits
          exact leads_pure.mpr ⟨evacuates, fits⟩
        · rename_i short
          have short := Int.not_le.mp short
          refine leads_get_bind.mpr ?_
          split
          · rename_i nothing
            have rest := selectEvictions_nil (by omega) nothing
            exact leads_throw.mpr
              ⟨evacuates, .inr (.inr ⟨snapshot, rfl, rest⟩)⟩
          · refine (spills_evacuate evacuates consumes fun candidate member =>
              evacuates.candidate (selectEvictions_subset _ _ _ member)).bind
                ?_ ?_
            · intro _ next given
              exact ih given.1 given.2.1
            · intro failure next given
              obtain ⟨evacuates, _, raised⟩ := given
              exact ⟨evacuates, .inr (.inl (raised failure rfl))⟩
      · intro failure next given
        obtain ⟨_, _, _, ended⟩ := given
        cases ended

theorem cudaCapacity_finishes (bytesNeeded : Int) (protect : List Handle)
    (context : Option String) (world : World) :
    (cudaCapacity settings bytesNeeded protect context).Leads world
      fun result _ => result ≠ .error .unfinished := by
  have finishes : Finishes (do
      let _ ← cudaCapacity settings bytesNeeded protect context
      pure () : Storing Unit) := by
    rw [← ensureCudaCapacity_eq]
    exact ensureCudaCapacity_finishes bytesNeeded protect context
  have ends := finishes world
  unfold Leads at ends ⊢
  rw [run_bind] at ends
  intro ended
  generalize (cudaCapacity settings bytesNeeded protect context).run world =
    outcome at ends ended
  obtain ⟨result, next⟩ := outcome
  cases ended
  exact ends rfl

/-- How `ensure_cuda_capacity` ends. -/
def Ensured (settings : StoreSettings κ) (bytesNeeded : Int)
    (protect : List Handle) (context : Option String) (start : World) :
    Except StoreFailure (Option CudaReading) → World → Prop :=
  let additional :=
    max 0 (bytesNeeded - protectedResident start.store protect)
  Ending
    (fun snapshot _ => match snapshot with
      | some snapshot => additional ≤ safeAllocatableNow settings snapshot
      | none => start.store.gpuDevice = false)
    fun failure next => Raised start failure ∨
      ∃ snapshot, failure = unsupported settings bytesNeeded additional context
          snapshot next.store ∧
        (((next.store.residentCandidates protect).map (·.size)).sum : Nat) <
          additional - safeAllocatableNow settings snapshot

theorem cudaCapacity_spec (arranged : Arranged world.store)
    (bytesNeeded : Int) (protect : List Handle) (context : Option String) :
    (cudaCapacity settings bytesNeeded protect context).Leads world
      fun result next => Evacuates protect world.store next.store ∧
        (result = .error .unfinished ∨
          Ensured settings bytesNeeded protect context world result next) := by
  refine leads_get_bind.mpr ?_
  simp only
  split
  · refine (evictUntilFits_spec bytesNeeded _ context _ (.refl arranged)
      (List.Subset.refl _)).bind ?_ ?_
    · intro snapshot next given
      exact leads_pure.mpr ⟨given.1, .inr given.2⟩
    · intro failure next given
      obtain ⟨evacuates, ended⟩ := given
      rcases ended with rfl | concluded
      · exact ⟨evacuates, .inl rfl⟩
      · exact ⟨evacuates, .inr concluded⟩
  · rename_i off
    exact leads_pure.mpr
      ⟨.refl arranged, .inr (Bool.eq_false_iff.mpr off)⟩

/-- The tensor is where it can be restored from. -/
def Available (store : TensorStore) (handle : Handle) (bytes : List UInt8) :
    Prop :=
  (store.handles handle).dirty = false ∧
    ((store.handles handle).resident = some bytes ∨
      (store.handles handle).resident = none ∧
        (store.handles handle).size = bytes.length ∧
        contents store.blocks (store.handles handle).blocks = some bytes)

theorem Evacuates.restorable {bytes : List UInt8} (arranged : Arranged start)
    (evacuates : Evacuates protect start next)
    (available : Available start handle bytes) :
    Restorable settings next handle bytes := by
  obtain ⟨clean, tier⟩ := available
  rcases evacuates.handles handle with same | ⟨_, found, warm, durable⟩
  · rcases tier with warm | ⟨cold, sized, held⟩
    · have sized := ((arranged.handles handle).warm bytes warm).2
      apply restorable_of_tier
      · rwa [same]
      · rw [same]
        exact sized.symm
      · rw [same]
        exact .inl warm
    · have durable : Durable next handle bytes :=
        Durable.later arranged ⟨clean, sized, cold, held⟩ same evacuates.old
      exact restorable_of_tier settings durable.clean durable.sized
        (.inr ⟨durable.cold, durable.held⟩)
  · have same : found = bytes := by
      rcases tier with here | ⟨cold, _⟩
      · rw [warm] at here
        exact Option.some.inj here
      · rw [warm] at cold
        cases cold
    subst same
    exact restorable_of_tier settings durable.clean durable.sized
      (.inr ⟨durable.cold, durable.held⟩)

variable (settings)

/-- In every store that two threads reach, whatever the allocator says: the
loop comes to an end, it spills no protected or dirty tensor, it returns a
snapshot in which the request fits, it refuses only what the remaining
candidates cannot make room for, and every tensor that could be restored still
can. -/
theorem capacity_ensured (gpuDevice : Bool)
    {events : List (RestoreEvent × Surroundings)} {state : Restores}
    (ran : Execution.run (Restores.step settings)
      { store := { gpuDevice := gpuDevice } } events = some state)
    (bytesNeeded : Int) (protect : List Handle) (context : Option String)
    (surroundings : Surroundings) :
    (cudaCapacity settings bytesNeeded protect context).Leads
      ⟨state.store, surroundings⟩ fun result next =>
        result ≠ .error .unfinished ∧
        (∀ handle, next.store.handles handle ≠ state.store.handles handle →
          Evictable state.store protect handle) ∧
        Ensured settings bytesNeeded protect context
          ⟨state.store, surroundings⟩ result next ∧
        ∀ handle bytes, Available state.store handle bytes →
          Restorable settings next.store handle bytes := by
  have arranged := (Restores.Regular.run ran).arranged
  have spec := Leads.and
    (cudaCapacity_finishes bytesNeeded protect context
      ⟨state.store, surroundings⟩)
    (@cudaCapacity_spec κ settings ⟨state.store, surroundings⟩ _ arranged
      bytesNeeded protect context)
  refine spec.mono ?_
  intro result next given
  obtain ⟨finished, evacuates, ended⟩ := given
  refine ⟨finished, fun handle changed => ?_, ended.resolve_left finished,
    fun handle bytes available => evacuates.restorable arranged available⟩
  rcases evacuates.handles handle with same | ⟨evictable, _⟩
  · exact absurd same changed
  · exact evictable

end

end Evacuates

def abcResident : List (RestoreEvent × Surroundings) :=
  abcOffloads.map fun event => (.operate event.1, event.2)

def abcResidentState : Restores :=
  (Execution.run (Restores.step abcSettings)
    { store := { gpuDevice := true } } abcResident).getD {}

theorem abcResident_ran :
    Execution.run (Restores.step abcSettings)
      { store := { gpuDevice := true } } abcResident =
        some abcResidentState := by
  have made : (Execution.run (Restores.step abcSettings)
      { store := { gpuDevice := true } } abcResident).isSome = true := by
    decide +kernel
  obtain ⟨state, found⟩ := Option.isSome_iff_exists.mp made
  rw [abcResidentState, found]
  rfl

/-- The allocator has room for 10 bytes, and for 13 once the resident tensor is
spilled. -/
def abcReadings : Surroundings :=
  { readings := [⟨10, 0, 0⟩, ⟨13, 0, 0⟩] }

theorem capacity_ensured_abc :
    ∃ next, (cudaCapacity abcSettings 12 [1] none).run
        ⟨abcResidentState.store, abcReadings⟩ =
          (.ok (some ⟨13, 0, 0⟩), next) ∧
      (next.store.handles 0).resident = none ∧
      Restorable abcSettings next.store 0 [1, 2, 3] ∧
      Restorable abcSettings next.store 1 [4, 5, 6] := by
  have ensured := capacity_ensured abcSettings true abcResident_ran 12 [1]
    none abcReadings
  obtain ⟨_, _, _, restorable⟩ := ensured
  refine ⟨_, Prod.ext ?_ rfl, ?_, ?_, ?_⟩
  · decide +kernel
  · decide +kernel
  · exact restorable 0 [1, 2, 3] ⟨by decide +kernel, .inl (by decide +kernel)⟩
  · exact restorable 1 [4, 5, 6] ⟨by decide +kernel, .inr
      ⟨by decide +kernel, by decide +kernel, by decide +kernel⟩⟩

end TensorStore

end TrainPool
