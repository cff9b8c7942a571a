import TrainPool.Torch.Backing

namespace TrainPool

/-! Evictions: what they leave alone, and that they come to an end. -/

namespace TensorStore

open Failing World

variable {κ : Type} {settings : StoreSettings κ}

structure Writes (handle : Handle) (world next : World) : Prop where
  count : next.store.count = world.store.count
  tensors : next.store.tensors = world.store.tensors
  handles : ∃ blocks, next.store.handles =
    Function.update world.store.handles handle
      { world.store.handles handle with blocks := blocks }

namespace Writes

variable {handle : Handle} {world next final : World}

theorem of_same (count : next.store.count = world.store.count)
    (tensors : next.store.tensors = world.store.tensors)
    (handles : next.store.handles = world.store.handles) :
    Writes handle world next := by
  refine ⟨count, tensors, (world.store.handles handle).blocks, ?_⟩
  rw [handles, Function.update_eq_self]

theorem trans (early : Writes handle world next)
    (late : Writes handle next final) : Writes handle world final := by
  obtain ⟨blocks, first⟩ := early.handles
  obtain ⟨blocks', second⟩ := late.handles
  refine ⟨late.count.trans early.count, late.tensors.trans early.tensors,
    blocks', ?_⟩
  rw [second, first]
  simp

theorem of_undisturbed (quiet : world.Undisturbed next) :
    Writes handle world next := by
  apply of_same
  · rw [quiet.1]
  · rw [quiet.1]
  · rw [quiet.1]

end Writes

section Writes

variable {handle : Handle}

theorem Writes.bind {α β : Type} {first : Storing α} {second : α → Storing β}
    (early : first.Respects (Writes handle))
    (late : ∀ value, (second value).Respects (Writes handle)) :
    (first >>= second).Respects (Writes handle) :=
  Respects.bind Writes.trans early late

theorem Writes.each {α : Type} {body : α → Storing Unit} {items : List α}
    (all : ∀ item, (body item).Respects (Writes handle)) :
    (each body items).Respects (Writes handle) := by
  apply Respects.each
  · exact fun _ => .of_same rfl rfl rfl
  · exact Writes.trans
  · exact fun item _ => all item

theorem call_writes : call.Respects (Writes handle) :=
  fun world => .of_undisturbed (call_undisturbed world)

theorem freeBlock_writes (block : BackingBlock) :
    (suppress (freeBlock block)).Respects (Writes handle) := by
  intro world
  refine (suppress_freeBlock world block).mono ?_
  intro result next given
  obtain ⟨_, freed⟩ := given
  apply Writes.of_same
  · rw [freed.stored]
    rfl
  · rw [freed.stored]
    rfl
  · rw [freed.stored]
    rfl

theorem putChunks_writes (bytes : List UInt8) :
    (putChunks bytes).Respects (Writes handle) := by
  have allocates : (allocateBlock bytes.length).Respects (Writes handle) :=
    Writes.bind call_writes fun _ _ => .of_same rfl rfl rfl
  have chunk (id : Uuid) (chunk : List UInt8) :
      (writeChunk id chunk).Respects (Writes handle) :=
    Writes.bind call_writes fun _ _ => .of_same rfl rfl rfl
  refine Writes.bind allocates fun block => ?_
  refine Respects.rescue Writes.trans ?_ fun failure => ?_
  · refine Writes.bind call_writes fun _ => ?_
    refine Writes.bind (Writes.each fun _ => chunk _ _) fun _ => ?_
    exact Writes.bind call_writes fun _ _ => .of_same rfl rfl rfl
  · exact Writes.bind (freeBlock_writes block) fun _ _ =>
      .of_same rfl rfl rfl

theorem change_writes (update : List BackingBlock → List BackingBlock) :
    (change handle fun entry =>
      { entry with blocks := update entry.blocks }).Respects
        (Writes handle) :=
  fun _ => ⟨rfl, rfl, _, rfl⟩

theorem writePieces_writes (pieces : List (List UInt8))
    (written : List BackingBlock) :
    (writePieces handle pieces written).Respects (Writes handle) := by
  induction pieces generalizing written with
  | nil => exact fun _ => .of_same rfl rfl rfl
  | cons piece rest ih =>
      refine Writes.bind (Respects.rescue Writes.trans ?_ fun failure => ?_)
        fun block => ?_
      · exact Writes.bind call_writes fun _ => putChunks_writes piece
      · refine Writes.bind (Writes.bind ?_ fun _ => ?_) fun _ _ =>
          .of_same rfl rfl rfl
        · exact Writes.each fun block => freeBlock_writes block
        · exact change_writes fun blocks => blocks.filter (· ∉ written)
      · exact Writes.bind (change_writes fun blocks => blocks ++ [block])
          fun _ => ih _

end Writes

structure Spilled (store next : TensorStore) : Prop where
  count : next.count = store.count
  tensors : next.tensors = store.tensors
  value : ∀ handle,
    (next.handles handle).value = (store.handles handle).value
  cold : ∀ handle, (store.handles handle).resident = none →
    next.handles handle = store.handles handle

namespace Spilled

variable {store next final : TensorStore} {handle : Handle}

theorem refl (store : TensorStore) : Spilled store store :=
  ⟨rfl, rfl, fun _ => rfl, fun _ _ => rfl⟩

theorem trans (early : Spilled store next) (late : Spilled next final) :
    Spilled store final where
  count := late.count.trans early.count
  tensors := late.tensors.trans early.tensors
  value handle := (late.value handle).trans (early.value handle)
  cold handle bare := by
    have same := early.cold handle bare
    rw [late.cold handle (same ▸ bare), same]

theorem of_update (warm : (store.handles handle).resident ≠ none)
    (entry : TensorHandle)
    (handles : next.handles = Function.update store.handles handle entry)
    (value : entry.value = (store.handles handle).value)
    (count : next.count = store.count)
    (tensors : next.tensors = store.tensors) : Spilled store next where
  count := count
  tensors := tensors
  value other := by
    by_cases here : other = handle
    · subst here
      rw [handles, Function.update_self, value]
    · rw [handles, Function.update_of_ne here]
  cold other bare := by
    have differ : other ≠ handle := fun here => warm (here ▸ bare)
    rw [handles, Function.update_of_ne differ]

end Spilled

def marked (store : TensorStore) (handle : Handle) : TensorStore :=
  store.altered handle ({ · with dirty := true })

def evicted (store : TensorStore) (handle : Handle)
    (blocks : List BackingBlock) : TensorStore :=
  { store.altered handle fun entry => { entry with
      transferCost := transferCost blocks entry.size
      resident := none
      dirty := false } with
    residentBytes :=
      store.residentBytes + -((store.handles handle).size : Int) }

theorem leads_evict {world : World} {handle : Handle}
    {blocks : List BackingBlock}
    {post : Except StoreFailure Unit → World → Prop} :
    (do
      change handle fun entry => { entry with
        transferCost := transferCost blocks entry.size
        resident := none }
      addResident (-(← entry handle).size)
      change handle ({ · with dirty := false }) : Storing Unit).Leads world
        post ↔
      post (.ok ())
        { world with store := world.store.evicted handle blocks } := by
  simp only [leads_change_bind, leads_entry_bind, leads_changeStore_bind,
    leads_change, addResident]
  simp [evicted, altered]

theorem spill_spilled (handle : Handle) (world : World) :
    (spill settings handle).Leads world fun result next =>
      Spilled world.store next.store ∧
        (result = .ok () → (next.store.handles handle).resident = none) := by
  refine leads_entry_bind.mpr ?_
  cases warm : (world.store.handles handle).resident with
  | none => exact leads_pure.mpr ⟨Spilled.refl _, fun _ => warm⟩
  | some resident =>
      have hot : (world.store.handles handle).resident ≠ none := by simp [warm]
      refine leads_change_bind.mpr ?_
      refine Leads.across (Ending
        (fun _ next => Writes handle
          { world with store := world.store.marked handle } next)
        fun _ next => Spilled world.store next.store) ?_ ?_ ?_
      · refine Leads.rescue (writePieces_writes _ _ _) ?_ ?_
        · intro _ next writes
          exact writes
        · intro failure next writes
          obtain ⟨blocks, handles⟩ := writes.handles
          refine leads_change_bind.mpr (leads_throw.mpr
            (.of_update hot { world.store.handles handle with
              dirty := false
              blocks := blocks } ?_ rfl writes.count writes.tensors))
          simp [altered, handles]
      · intro new next writes
        obtain ⟨blocks, handles⟩ := writes.handles
        have entry : next.store.handles handle =
            { world.store.handles handle with
              dirty := true
              blocks := blocks } := by
          simp [handles, altered, TensorStore.marked]
        refine leads_evict.mpr ⟨.of_update hot
          { next.store.handles handle with
            transferCost := transferCost new (next.store.handles handle).size
            resident := none
            dirty := false } ?_ ?_ writes.count writes.tensors, fun _ => ?_⟩
        · simp [evicted, altered, handles, TensorStore.marked]
        · simp [entry]
        · simp [evicted, altered]
      · intro failure next here
        exact ⟨here, (by intros; contradiction)⟩

theorem spills_spilled (handles : List Handle) (world : World) :
    (each (spill settings) handles).Leads world fun result next =>
      Spilled world.store next.store ∧ (result = .ok () →
        ∀ handle ∈ handles, (next.store.handles handle).resident = none) := by
  induction handles generalizing world with
  | nil =>
      exact ⟨Spilled.refl _, fun _ _ absent => absurd absent List.not_mem_nil⟩
  | cons handle rest ih =>
      refine (spill_spilled handle world).bind ?_ ?_
      · intro _ next given
        obtain ⟨first, gone⟩ := given
        refine (ih next).mono ?_
        intro result final given
        obtain ⟨spilled, all⟩ := given
        refine ⟨first.trans spilled, fun ended => ?_⟩
        intro other member
        rcases List.mem_cons.mp member with rfl | member
        · rw [spilled.cold other (gone rfl)]
          exact gone rfl
        · exact all ended other member
      · intro failure next given
        obtain ⟨first, _⟩ := given
        exact ⟨first, nofun⟩

theorem gather_subset (needed released : Int)
    (candidates : List ResidencyCandidate) :
    (gather needed released candidates).1 ⊆ candidates := by
  induction candidates generalizing released with
  | nil => exact List.Subset.refl _
  | cons candidate rest ih =>
      unfold gather
      simp only
      split
      · exact List.cons_subset_cons _ (List.nil_subset _)
      · exact List.cons_subset_cons _ (ih _)

theorem effectiveVramCapacity_undisturbed :
    (effectiveVramCapacity settings).Respects Undisturbed := by
  intro world
  refine leads_get_bind.mpr ?_
  simp only
  split
  · refine (reading_undisturbed world).bind ?_ ?_
    · intro _ next quiet
      exact quiet
    · intro failure next quiet
      exact quiet
  · exact Undisturbed.refl world

theorem selectEvictions_subset [LinearOrder κ]
    (candidates : List ResidencyCandidate)
    (needed currentStep : Int) :
    selectEvictions settings candidates needed currentStep ⊆ candidates := by
  intro candidate member
  unfold selectEvictions at member
  simp only at member
  split at member
  · exact List.mem_mergeSort.mp (gather_subset _ _ _ member)
  · exact absurd member List.not_mem_nil

theorem residentCandidates_spec {store : TensorStore}
    {excluded : List Handle} {candidate : ResidencyCandidate}
    (member : candidate ∈ store.residentCandidates excluded) :
    candidate.id ∈ store.tensors ∧
      (store.handles candidate.id).resident.isSome = true := by
  unfold residentCandidates at member
  obtain ⟨handle, listed, rfl⟩ := List.mem_map.mp member
  rw [List.mem_filter] at listed
  simp only [Bool.and_eq_true] at listed
  exact ⟨listed.1, listed.2.1.1⟩

def residents (store : TensorStore) : List Handle :=
  store.tensors.filter fun handle => (store.handles handle).resident.isSome

theorem Spilled.fewer {store next : TensorStore}
    (spilled : Spilled store next) {handle : Handle}
    (listed : handle ∈ store.tensors)
    (warm : (store.handles handle).resident.isSome = true)
    (gone : (next.handles handle).resident = none) :
    next.residents.length < store.residents.length := by
  have nested : next.residents = store.residents.filter fun handle =>
      (next.handles handle).resident.isSome := by
    unfold residents
    rw [spilled.tensors, List.filter_filter]
    refine List.filter_congr fun other _ => ?_
    cases bare : (store.handles other).resident with
    | none => simp [spilled.cold other bare, bare]
    | some bytes => simp
  rw [nested]
  refine List.length_filter_lt_length_iff_exists.mpr
    ⟨handle, List.mem_filter.mpr ⟨listed, warm⟩, ?_⟩
  simp [gone]

structure Evicting (settings : StoreSettings κ) (holds : World → Prop) :
    Prop where
  quiet : ∀ world next, holds world → world.Undisturbed next → holds next
  spills : ∀ world handle, holds world →
    (spill settings handle).Leads world fun _ next => holds next

namespace Evicting

variable {holds : World → Prop} {world : World}

theorem quietly (evicting : Evicting settings holds) (here : holds world)
    {α β : Type} {first : Storing α} {second : α → Storing β}
    {post : Except StoreFailure β → World → Prop}
    (quiet : first.Respects Undisturbed)
    (goes : ∀ value next, holds next → (second value).Leads next post)
    (fails : ∀ failure next, holds next → post (.error failure) next) :
    (first >>= second).Leads world post :=
  (quiet world).bind
    (fun value next same => goes value next
      (evicting.quiet world next here same))
    fun failure next same => fails failure next
      (evicting.quiet world next here same)

theorem evictions (evicting : Evicting settings holds) (here : holds world)
    (candidates : List ResidencyCandidate) :
    (each (fun candidate => spill settings candidate.id) candidates).Leads
      world fun _ next => holds next :=
  Leads.each holds here fun _ _ world here => evicting.spills world _ here

theorem prepareTransient (evicting : Evicting settings holds)
    (here : holds world) (handles : List Handle) :
    (TensorStore.prepareTransient settings handles).Leads world
      fun _ next => holds next :=
  Leads.each holds here fun _ _ world here => evicting.spills world _ here

variable [LinearOrder κ]

theorem evictUntil (evicting : Evicting settings holds) (here : holds world)
    (bytesNeeded additional : Int) (protect : List Handle)
    (context : Option String) (rounds : Nat) :
    (TensorStore.evictUntil settings bytesNeeded additional protect context
      rounds).Leads world fun _ next => holds next := by
  induction rounds generalizing world with
  | zero => exact leads_throw.mpr here
  | succ rounds ih =>
      refine evicting.quietly here reading_undisturbed ?_ fun _ _ here => here
      intro snapshot ready here
      simp only
      split
      · exact leads_pure.mpr here
      · refine leads_get_bind.mpr ?_
        split
        · exact leads_throw.mpr here
        · refine (evicting.evictions here _).bind ?_ fun _ _ here => here
          intro _ next here
          exact ih here

theorem ensureCudaCapacity (evicting : Evicting settings holds)
    (here : holds world) (bytesNeeded : Int) (protect : List Handle)
    (context : Option String) :
    (TensorStore.ensureCudaCapacity settings bytesNeeded protect
      context).Leads world fun _ next => holds next := by
  refine leads_get_bind.mpr ?_
  simp only
  split
  · exact evicting.evictUntil here _ _ _ _ _
  · exact leads_pure.mpr here

theorem makeRoom (evicting : Evicting settings holds) (here : holds world)
    (handle : Handle) :
    (TensorStore.makeRoom settings handle).Leads world
      fun _ next => holds next := by
  refine evicting.quietly here effectiveVramCapacity_undisturbed ?_
    fun _ _ here => here
  intro capacity ready here
  refine leads_get_bind.mpr ?_
  simp only
  split
  · exact leads_pure.mpr here
  · split
    · exact leads_pure.mpr here
    · refine (evicting.evictions here _).bind ?_ fun _ _ here => here
      intro _ next here
      exact leads_pure.mpr here

theorem tryRetain (evicting : Evicting settings holds) (here : holds world)
    (value : List UInt8) (handle : Handle) :
    (TensorStore.tryRetain settings value handle).Leads world
      fun result next => match result with
        | .ok true => ∃ middle, holds ⟨middle, next.surroundings⟩ ∧
            next.store = { middle.altered handle
                ({ · with resident := some value }) with
              residentBytes := middle.residentBytes +
                (world.store.handles handle).size }
        | _ => holds next := by
  refine leads_get_bind.mpr ?_
  simp only
  split
  · exact leads_pure.mpr here
  · refine (evicting.makeRoom here handle).bind ?_ fun _ _ here => here
    intro room next here
    split
    · refine evicting.quietly here reading_undisturbed ?_ fun _ _ here => here
      intro snapshot ready here
      split
      · exact leads_pure.mpr here
      · refine evicting.quietly here call_undisturbed ?_ fun _ _ here => here
        intro _ copied here
        refine evicting.quietly here outOfMemory_undisturbed ?_
          fun _ _ here => here
        intro exhausted final here
        split
        · exact leads_pure.mpr here
        · exact leads_change_bind.mpr (leads_changeStore_bind.mpr
            (leads_pure.mpr ⟨final.store, here, rfl⟩))
    · exact leads_pure.mpr here

end Evicting

structure Tinkers (update : TensorHandle → TensorHandle) : Prop where
  blocks : ∀ entry, (update entry).blocks = entry.blocks
  size : ∀ entry, (update entry).size = entry.size
  value : ∀ entry, (update entry).value = entry.value
  resident : ∀ entry, (update entry).resident = entry.resident
  dirty : ∀ entry, (update entry).dirty = entry.dirty

theorem Tinkers.of_rfl {update : TensorHandle → TensorHandle}
    (same : ∀ entry, ((update entry).blocks, (update entry).size,
      (update entry).value, (update entry).resident, (update entry).dirty) =
        (entry.blocks, entry.size, entry.value, entry.resident,
          entry.dirty)) : Tinkers update := by
  simp only [Prod.mk.injEq] at same
  exact ⟨fun entry => (same entry).1, fun entry => (same entry).2.1,
    fun entry => (same entry).2.2.1, fun entry => (same entry).2.2.2.1,
    fun entry => (same entry).2.2.2.2⟩

theorem updatePriority_spec (handle : Handle) (nextUse : Option NextUse)
    (remainingConsumers : Option Int) (world : World) :
    (updatePriority handle nextUse remainingConsumers).Leads world
      fun _ next => ∃ update, Tinkers update ∧
        next = { world with store := world.store.altered handle update } := by
  have same : world.store.altered handle id = world.store := by
    simp [altered]
  have hinted : Tinkers ({ · with expectedNextUse := nextUse }) :=
    .of_rfl fun _ => rfl
  cases remainingConsumers with
  | none =>
      refine leads_entry_bind.mpr ?_
      simp only
      split
      · exact leads_change_bind.mpr (leads_pure.mpr ⟨_, hinted, rfl⟩)
      · refine leads_pure.mpr ⟨id, .of_rfl fun _ => rfl, ?_⟩
        rw [same]
  | some remaining =>
      have last (update : TensorHandle → TensorHandle)
          (tinkers : Tinkers update) :
          (change handle ({ · with remainingConsumers := remaining })).Leads
            { world with store := world.store.altered handle update }
            fun _ next => ∃ update, Tinkers update ∧ next =
              { world with store := world.store.altered handle update } := by
        refine leads_change.mpr ⟨fun entry =>
          { update entry with remainingConsumers := remaining },
            ⟨tinkers.blocks, tinkers.size, tinkers.value, tinkers.resident,
              tinkers.dirty⟩, ?_⟩
        simp [altered]
      refine leads_entry_bind.mpr ?_
      simp only
      split
      · exact leads_change_bind.mpr (last _ hinted)
      · have rest := last id (.of_rfl fun _ => rfl)
        rwa [same] at rest

/-! No loop runs into its bound. -/

def Finishes {α : Type} (program : Storing α) : Prop :=
  ∀ world, program.Leads world fun result _ => result ≠ .error .unfinished

namespace Finishes

theorem pure {α : Type} (value : α) :
    Finishes (Pure.pure value : Storing α) :=
  fun _ => nofun

theorem modify (change : World → World) :
    Finishes (modify change : Storing PUnit) :=
  fun _ => nofun

theorem raise {α : Type} (message : String) :
    Finishes (throw (.error message) : Storing α) :=
  fun _ => nofun

theorem bind {α β : Type} {first : Storing α} {second : α → Storing β}
    (early : Finishes first) (late : ∀ value, Finishes (second value)) :
    Finishes (first >>= second) :=
  fun world => (early world).bind (fun value next _ => late value next)
    fun _ _ here same => here (by cases same; rfl)

theorem get {β : Type} {program : World → Storing β}
    (rest : ∀ world, Finishes (program world)) :
    Finishes ((MonadState.get : Storing World) >>= program) :=
  fun world => leads_get_bind.mpr (rest world world)

theorem rescue {α : Type} {body : Storing α}
    {handler : StoreFailure → Storing α} (early : Finishes body)
    (late : ∀ failure, failure ≠ .unfinished → Finishes (handler failure)) :
    Finishes (tryCatch body handler) := by
  intro world
  refine (early world).rescue (fun _ _ _ => nofun) ?_
  intro failure next here
  exact late failure (fun same => here (by rw [same])) next

theorem throw {α : Type} {failure : StoreFailure}
    (differ : failure ≠ .unfinished) :
    Finishes (MonadExcept.throw failure : Storing α) :=
  fun _ same => differ (by cases same; rfl)

theorem each {α : Type} {body : α → Storing Unit}
    (all : ∀ item, Finishes (body item)) (items : List α) :
    Finishes (Failing.each body items) := by
  induction items with
  | nil => exact pure ()
  | cons item rest ih => exact bind (all item) fun _ => ih

theorem ite {α : Type} {condition : Prop} [Decidable condition]
    {first second : Storing α} (yes : Finishes first)
    (no : Finishes second) : Finishes (if condition then first else second) := by
  split
  · exact yes
  · exact no

end Finishes

section Finishes

theorem call_finishes : Finishes call := by
  intro world
  unfold call
  simp only [leads_get_bind, leads_set_bind]
  split
  · exact leads_throw.mpr fun same => by cases same
  · exact leads_pure.mpr fun same => by cases same

theorem suppress_finishes {α : Type} (body : Storing α) :
    Finishes (suppress body) :=
  fun world => by
    have ran : body.Leads world fun _ _ => True := trivial
    refine (suppress_spec ran).mono ?_
    intro result next given same
    obtain ⟨ended, _⟩ := given
    rw [ended] at same
    cases same

theorem reading_finishes : Finishes reading :=
  fun _ same => by cases same

theorem freeBlock_finishes (block : BackingBlock) :
    Finishes (freeBlock block) := by
  intro world
  unfold freeBlock
  simp only [leads_get_bind, leads_set_bind]
  split
  · exact leads_throw.mpr fun same => by cases same
  · exact fun same => by cases same
  · exact fun same => by cases same

theorem putChunks_finishes (bytes : List UInt8) :
    Finishes (putChunks bytes) := by
  have allocates : Finishes (allocateBlock bytes.length) :=
    .bind call_finishes fun _ _ => nofun
  refine .bind allocates fun block => .rescue ?_ fun failure differ => ?_
  · refine .bind call_finishes fun _ => .bind (.each (fun chunk => ?_) _)
      fun _ => .bind call_finishes fun _ => .pure block
    exact .bind call_finishes fun _ => .modify _
  · exact .bind (suppress_finishes _) fun _ => .throw differ

theorem writePieces_finishes (handle : Handle) (pieces : List (List UInt8))
    (written : List BackingBlock) :
    Finishes (writePieces handle pieces written) := by
  induction pieces generalizing written with
  | nil => exact .pure written
  | cons piece rest ih =>
      refine .bind (.rescue ?_ fun failure differ => ?_) fun block => ?_
      · exact .bind call_finishes fun _ => putChunks_finishes piece
      · refine .bind (.bind (.each (fun _ => suppress_finishes _) _)
          fun _ => .modify _) fun _ => .throw differ
      · exact .bind (.modify _) fun _ => ih _

theorem spill_finishes (handle : Handle) :
    Finishes (spill settings handle) := by
  refine .bind (fun _ => nofun) fun entry => ?_
  cases entry.resident with
  | none => exact .pure ()
  | some resident =>
      refine .bind (.modify _) fun _ => .bind (.rescue
        (writePieces_finishes _ _ _) fun failure differ => ?_) fun blocks => ?_
      · exact .bind (.modify _) fun _ => .throw differ
      · refine .bind (.modify _) fun _ => .bind (fun _ => nofun) fun entry =>
          .bind (.modify _) fun _ => .modify _

theorem requireCuda_finishes (device : Device) :
    Finishes (requireCuda settings device) :=
  .ite (.ite (.modify _) (.raise _)) (.pure _)

theorem updatePriority_finishes (handle : Handle) (nextUse : Option NextUse)
    (remainingConsumers : Option Int) :
    Finishes (updatePriority handle nextUse remainingConsumers) := by
  refine .bind (fun _ same => by cases same) fun entry => ?_
  cases remainingConsumers with
  | none => exact .ite (.bind (.modify _) fun _ => .pure ()) (.pure ())
  | some remaining =>
      exact .ite (.bind (.modify _) fun _ => .modify _) (.modify _)

theorem effectiveVramCapacity_finishes :
    Finishes (effectiveVramCapacity settings) :=
  .get fun _ => .ite (.bind reading_finishes fun _ => .pure _) (.pure _)

variable [LinearOrder κ]

theorem evictUntil_finishes (bytesNeeded additional : Int)
    (protect : List Handle) (context : Option String) {rounds : Nat}
    {world : World} (enough : world.store.residents.length < rounds) :
    (evictUntil settings bytesNeeded additional protect context
      rounds).Leads world fun result _ => result ≠ .error .unfinished := by
  induction rounds generalizing world with
  | zero => exact absurd enough (Nat.not_lt_zero _)
  | succ rounds ih =>
      refine (Leads.and (reading_undisturbed world)
        (reading_finishes world)).bind ?_ fun _ _ here same =>
          here.2 (by cases same; rfl)
      intro snapshot ready given
      obtain ⟨quiet, _⟩ := given
      simp only
      split
      · exact leads_pure.mpr nofun
      · refine leads_get_bind.mpr ?_
        split
        · exact leads_throw.mpr nofun
        · rename_i selected
          obtain ⟨candidate, member⟩ := List.exists_mem_of_ne_nil _ selected
          obtain ⟨listed, warm⟩ := residentCandidates_spec
            (selectEvictions_subset _ _ _ member)
          rw [← each_map (spill settings) ResidencyCandidate.id]
          refine (Leads.and (spills_spilled _ ready)
            (Finishes.each spill_finishes _ ready)).bind ?_ ?_
          · intro _ next given
            obtain ⟨⟨spilled, gone⟩, _⟩ := given
            have fewer := spilled.fewer listed warm
              (gone rfl _ (List.mem_map_of_mem member))
            rw [quiet.1] at fewer
            exact ih (by omega)
          · intro failure next given same
            obtain ⟨_, here⟩ := given
            exact here (by cases same; rfl)

theorem ensureCudaCapacity_finishes (bytesNeeded : Int)
    (protect : List Handle) (context : Option String) :
    Finishes (ensureCudaCapacity settings bytesNeeded protect context) := by
  intro world
  refine leads_get_bind.mpr ?_
  simp only
  split
  · exact evictUntil_finishes _ _ _ _
      (Nat.lt_succ_of_le (List.length_filter_le _ _))
  · exact leads_pure.mpr nofun

theorem tryRetain_finishes (value : List UInt8) (handle : Handle) :
    Finishes (tryRetain settings value handle) := by
  have room : Finishes (makeRoom settings handle) := by
    refine .bind effectiveVramCapacity_finishes fun _ => .get fun world =>
      .ite (.pure _) ?_
    refine .ite (.pure _) (.bind (.each (fun _ => spill_finishes _) _)
      fun _ => .pure _)
  refine .get fun world => .ite (.pure _) (.bind room fun _ => .ite ?_
    (.pure _))
  refine .bind reading_finishes fun _ => .ite (.pure _) ?_
  refine .bind call_finishes fun _ => .bind (fun _ => nofun) fun _ =>
    .ite (.pure _) ?_
  exact .bind (.modify _) fun _ => .bind (.modify _) fun _ => .pure _

theorem dropBlocks_finishes (handle : Handle) :
    Finishes (dropBlocks handle) :=
  .bind (fun _ => nofun) fun _ => .bind (.modify _) fun _ =>
    .each freeBlock_finishes _

theorem free_finishes (handle : Handle) : Finishes (free handle) := by
  refine .get fun world => .ite ?_ (.pure _)
  refine .bind (dropBlocks_finishes handle) fun _ =>
    .bind (fun _ => nofun) fun _ => .ite ?_ (.modify _)
  exact .bind (.modify _) fun _ => .bind (.modify _) fun _ => .modify _

theorem offload_finishes (tensor : Tensor)
    (expectedNextUse : Option NextUse) (remainingConsumers : Int)
    (allowVram : Bool) :
    Finishes (offload settings tensor expectedNextUse remainingConsumers
      allowVram) := by
  have writes (handle : Handle) :
      Finishes (writeBacking settings tensor.bytes handle) :=
    writePieces_finishes _ _ _
  have uploads (handle : Handle) :
      Finishes (upload settings tensor allowVram handle) := by
    have rest (retained : Bool) : Finishes (if retained = true then
        change handle ({ · with dirty := false })
      else do
        let blocks ← writeBacking settings tensor.bytes handle
        change handle fun entry => { entry with
          dirty := false
          transferCost := if tensor.device = .cuda then
            transferCost blocks entry.size else entry.transferCost }) :=
      .ite (.modify _) (.bind (writes handle) fun _ => .modify _)
    unfold upload
    cases allowVram with
    | false => exact rest false
    | true => exact .bind (tryRetain_finishes _ _) rest
  refine .bind call_finishes fun _ => .ite ?_ (.raise _)
  refine .bind (requireCuda_finishes _) fun _ => .bind (fun _ => nofun)
    fun handle => .bind (.rescue (uploads handle) fun failure differ => ?_)
      fun _ => .pure _
  exact .bind (suppress_finishes _) fun _ => .throw differ

theorem restore_finishes (handle : Handle) (device : Option Device)
    (retain : Bool) : Finishes (restore settings handle device retain) := by
  have samples : Finishes (sampleResident settings handle device) := by
    refine .bind call_finishes fun _ => .bind (fun _ => nofun) fun entry =>
      .ite (.raise _) (.bind (requireCuda_finishes _) fun _ =>
        .ite (.raise _) ?_)
    exact .bind (.modify _) fun _ => .get fun _ => .bind (.modify _)
      fun _ => .bind (fun _ => nofun) fun _ => .pure _
  have fills (list : List BackingBlock) (offset : Nat)
      (region : List UInt8) : Finishes (fill list offset region) := by
    induction list generalizing offset region with
    | nil => exact .pure region
    | cons block rest ih =>
        refine .bind (.bind (.bind call_finishes fun _ => .get fun world => ?_)
          fun _ => .ite (.pure _) (.raise _)) fun _ => ih _ _
        cases world.store.blocks block.id with
        | none => exact .raise _
        | some bytes => exact .pure bytes
  refine .bind samples fun (target, resident) => ?_
  cases resident with
  | some bytes => exact .bind call_finishes fun _ => .pure bytes
  | none =>
      refine .bind ?_ fun region => .bind (fun _ => nofun) fun entry =>
        .bind (fills _ _ _) fun result => ?_
      · have made (size : Nat) : Finishes (empty size) :=
          .bind call_finishes fun _ _ => nofun
        refine .bind (fun _ => nofun) fun entry => ?_
        simp only
        split
        · exact .bind (ensureCudaCapacity_finishes _ _ _) fun _ => made _
        · exact made _
      · unfold promote
        split
        · refine .bind (.modify _) fun _ => ?_
          split
          · refine .bind (fun _ => nofun) fun entry =>
              .bind effectiveVramCapacity_finishes fun _ =>
                .get fun world => .ite ?_ (.pure _)
            exact .bind (.modify _) fun _ => .bind (.modify _) fun _ =>
              .bind (dropBlocks_finishes handle) fun _ =>
                .bind call_finishes fun _ => .pure _
          · exact .pure _
        · exact .pure _

end Finishes

end TensorStore

end TrainPool
