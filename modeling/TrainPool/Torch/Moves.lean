import TrainPool.Torch.Tiers

namespace TrainPool

namespace TensorStore

open Failing World

/-! Freeing a tensor. -/

section

variable {busy : Set Handle} {world : World} {handle : Handle}

theorem dropBlocks_spec (world : World) (handle : Handle) :
    (dropBlocks handle).Leads world fun result next =>
      (world.Frees → result = .ok ()) ∧
        Freed (world.store.handles handle).blocks
          { world with
            store := world.store.altered handle ({ · with blocks := [] }) }
          next := by
  refine leads_entry_bind.mpr (leads_change_bind.mpr ?_)
  exact (freeBlocks_spec _ _).mono fun _ _ ⟨freed, ended⟩ => ⟨ended, freed⟩

theorem Sound.erased {store : TensorStore}
    (sound : Sound (insert handle busy) store) :
    Sound busy { store with tensors := store.tensors.erase handle } where
  holdings := sound.holdings
  blank := sound.blank
  nodup := sound.nodup.erase handle
  known other member := sound.known other (List.mem_of_mem_erase member)
  sized := sound.sized
  counted := sound.counted
  settled other member free := by
    obtain ⟨differ, listed⟩ := sound.nodup.mem_erase_iff.mp member
    exact sound.settled other listed (by simp [differ, free])

structure Removed (handle : Handle) (store next : TensorStore) : Prop where
  count : next.count = store.count
  tensors : next.tensors = store.tensors.erase handle
  value : ∀ other,
    (next.handles other).value = (store.handles other).value
  bare : handle ∈ store.tensors → (next.handles handle).blocks = []

theorem free_keeps (frees : world.Frees) (sound : Sound busy world.store) :
    (free handle).Leads world fun result next =>
      result = .ok () ∧ next.Frees ∧ Sound busy next.store ∧
        Removed handle world.store next.store := by
  refine leads_get_bind.mpr ?_
  split
  · rename_i member
    have made := sound.known handle member
    refine (dropBlocks_spec world handle).bind ?_ ?_
    · intro _ next given
      obtain ⟨_, freed⟩ := given
      have dropped := sound.dropped made rfl freed frees
      have stored := freed.stored
      have count : next.store.count = world.store.count := by
        rw [stored]
        rfl
      have tensors : next.store.tensors = world.store.tensors := by
        rw [stored]
        rfl
      have bare : (next.store.handles handle).blocks = [] := by
        rw [stored]
        simp [altered]
      have value (other : Handle) : (next.store.handles other).value =
          (world.store.handles other).value := by
        rw [stored]
        by_cases here : other = handle
        · subst here
          simp [altered]
        · simp [altered, here]
      refine leads_entry_bind.mpr ?_
      simp only
      split
      · rename_i warm
        have moved := dropped.retier (count ▸ made)
          ({ · with resident := none }) (next.store.residentBytes +
            -((next.store.handles handle).size : Int))
          (fun _ => rfl) (fun _ => rfl) (fun _ => rfl)
          (by simp [TensorHandle.residentSize, warm]; ring)
        rw [Set.insert_idem] at moved
        refine leads_change_bind.mpr (leads_changeStore_bind.mpr
          (leads_changeStore.mpr ⟨rfl, freed.frees frees, moved.erased, ?_⟩))
        refine ⟨count, ?_, fun other => ?_, fun _ => ?_⟩
        · simp [altered, tensors]
        · rw [← value other]
          by_cases here : other = handle
          · subst here
            simp [altered]
          · simp [altered, here]
        · simp [altered, bare]
      · refine leads_changeStore.mpr
          ⟨rfl, freed.frees frees, dropped.erased, count, ?_, value,
            fun _ => bare⟩
        rw [← tensors]
    · intro failure next given
      obtain ⟨ended, _⟩ := given
      cases ended frees
  · rename_i absent
    refine leads_pure.mpr ⟨rfl, frees, sound, rfl, ?_, fun _ => rfl, ?_⟩
    · exact (List.erase_of_not_mem absent).symm
    · exact fun member => absurd member absent

end

/-! Offloading a tensor. -/

section

variable {κ : Type} {settings : StoreSettings κ}
  {world : World} {handle : Handle}

theorem Sound.registered {store next : TensorStore} (sound : Sound ∅ store)
    (entry : TensorHandle) (sized : entry.size = entry.value.length)
    (cold : entry.resident = none) (bare : entry.blocks = [])
    (handles : next.handles =
      Function.update store.handles store.count entry)
    (count : next.count = store.count + 1)
    (tensors : next.tensors = store.tensors ++ [store.count])
    (residentBytes : next.residentBytes = store.residentBytes)
    (blocks : next.blocks = store.blocks) (drawn : next.drawn = store.drawn) :
    Sound {store.count} next := by
  have blank := sound.blank store.count (Nat.le_refl _)
  have here : next.handles store.count = entry := by
    rw [handles, Function.update_self]
  have elsewhere {other : Handle} (differ : other ≠ store.count) :
      next.handles other = store.handles other := by
    rw [handles, Function.update_of_ne differ]
  constructor
  case holdings =>
    have same : (fun other => (next.handles other).owned) =
        fun other => (store.handles other).owned := by
      funext other
      by_cases new : other = store.count
      · subst new
        rw [here, blank, TensorHandle.owned, bare]
        rfl
      · rw [elsewhere new]
    rw [same, blocks, drawn]
    exact sound.holdings
  case blank =>
    intro other unmade
    rw [count] at unmade
    rw [elsewhere (Nat.ne_of_gt unmade)]
    exact sound.blank other (Nat.le_of_succ_le unmade)
  case nodup =>
    rw [tensors]
    refine sound.nodup.append (List.nodup_singleton _) ?_
    intro other member same
    rw [List.mem_singleton] at same
    exact Nat.ne_of_lt (sound.known other member) same
  case known =>
    rw [tensors, count]
    intro other member
    rcases List.mem_append.mp member with old | new
    · exact Nat.lt_succ_of_lt (sound.known other old)
    · rw [List.mem_singleton.mp new]
      exact Nat.lt_succ_self _
  case sized =>
    intro other
    by_cases new : other = store.count
    · subst new
      rw [here, sized]
    · rw [elsewhere new]
      exact sound.sized other
  case counted =>
    have rest : ∑ other ∈ Finset.range store.count,
        (next.handles other).residentSize =
          ∑ other ∈ Finset.range store.count,
            (store.handles other).residentSize := by
      refine Finset.sum_congr rfl fun other member => ?_
      rw [elsewhere (Nat.ne_of_lt (Finset.mem_range.mp member))]
    rw [count, Finset.sum_range_succ, rest, here, TensorHandle.residentSize,
      cold, residentBytes, sound.counted]
    simp
  case settled =>
    rw [tensors]
    intro other member free
    rcases List.mem_append.mp member with old | new
    · rw [Settled, elsewhere (Nat.ne_of_lt (sound.known other old)), blocks]
      exact sound.settled other old (Set.notMem_empty _)
    · exact absurd (List.mem_singleton.mp new) free

structure Beside (store next : TensorStore) : Prop where
  handles : next.handles = store.handles
  count : next.count = store.count
  tensors : next.tensors = store.tensors
  residentBytes : next.residentBytes = store.residentBytes
  blocks : next.blocks = store.blocks
  drawn : next.drawn = store.drawn

theorem Sound.beside {busy : Set Handle} {store next : TensorStore}
    (sound : Sound busy store) (beside : Beside store next) :
    Sound busy next := by
  obtain ⟨handles, count, tensors, residentBytes, blocks, drawn⟩ := beside
  obtain ⟨holdings, blank, nodup, known, sized, counted, settled⟩ := sound
  constructor
  case holdings => rwa [handles, blocks, drawn]
  case blank => rwa [handles, count]
  case nodup => rwa [tensors]
  case known => rwa [tensors, count]
  case sized => rwa [handles]
  case counted => rwa [handles, count, residentBytes]
  case settled =>
    rw [tensors]
    intro handle member free
    rw [Settled, handles, blocks]
    exact settled handle member free

structure Kept (store next : TensorStore) : Prop where
  count : next.count = store.count
  tensors : next.tensors = store.tensors
  value : ∀ handle,
    (next.handles handle).value = (store.handles handle).value

namespace Kept

variable {store next final : TensorStore} {handle : Handle}

theorem trans (early : Kept store next) (late : Kept next final) :
    Kept store final where
  count := late.count.trans early.count
  tensors := late.tensors.trans early.tensors
  value handle := (late.value handle).trans (early.value handle)

theorem of_update (handle : Handle) (entry : TensorHandle)
    (handles : next.handles = Function.update store.handles handle entry)
    (value : entry.value = (store.handles handle).value)
    (count : next.count = store.count)
    (tensors : next.tensors = store.tensors) : Kept store next where
  count := count
  tensors := tensors
  value other := by
    by_cases here : other = handle
    · subst here
      rw [handles, Function.update_self, value]
    · rw [handles, Function.update_of_ne here]

theorem altered {store next : TensorStore} (kept : Kept store next)
    (handle : Handle) (update : TensorHandle → TensorHandle)
    (value : ∀ entry, (update entry).value = entry.value) :
    Kept store (next.altered handle update) :=
  kept.trans (.of_update handle _ rfl (value _) rfl rfl)

end Kept

theorem Spilled.kept {store next : TensorStore}
    (spilled : Spilled store next) : Kept store next :=
  ⟨spilled.count, spilled.tensors, spilled.value⟩

theorem Beside.kept {store next : TensorStore} (beside : Beside store next) :
    Kept store next :=
  ⟨beside.count, beside.tensors, fun _ => by rw [beside.handles]⟩

theorem Wrote.kept {new : List BackingBlock} {bytes : List UInt8}
    {store next : TensorStore} (wrote : Wrote handle new bytes store next) :
    Kept store next := by
  refine .of_update handle { store.handles handle with
    blocks := (store.handles handle).blocks ++ new } ?_ rfl ?_ ?_
  · rw [wrote.stored]
    rfl
  · rw [wrote.stored]
    rfl
  · rw [wrote.stored]
    rfl

theorem requireCuda_beside (settings : StoreSettings κ) (device : Device)
    (world : World) :
    (requireCuda settings device).Leads world fun _ next =>
      (world.Frees → next.Frees) ∧ Beside world.store next.store := by
  unfold requireCuda
  split
  · split
    · exact ⟨id, rfl, rfl, rfl, rfl, rfl, rfl⟩
    · exact ⟨id, rfl, rfl, rfl, rfl, rfl, rfl⟩
  · exact ⟨id, rfl, rfl, rfl, rfl, rfl, rfl⟩

structure Arriving (handle : Handle) (tensor : Tensor)
    (store : TensorStore) : Prop where
  sound : Sound {handle} store
  made : handle < store.count
  cold : (store.handles handle).resident = none
  bare : (store.handles handle).blocks = []
  valued : (store.handles handle).value = tensor.bytes

def Uploaded (handle : Handle) (start : TensorStore)
    (result : Except StoreFailure Unit) (next : World) : Prop :=
  next.Frees ∧ Kept start next.store ∧ Sound {handle} next.store ∧
    (result = .ok () → next.store.Settled handle)

theorem Arriving.retained {tensor : Tensor} {start : TensorStore}
    (arriving : Arriving handle tensor start) {next : World}
    {middle : TensorStore}
    (here : Between {handle} start ⟨middle, next.surroundings⟩)
    (stored : next.store = middle.retained handle tensor.bytes) :
    (change handle ({ · with dirty := false })).Leads next
      (Uploaded handle start) := by
  have entry : middle.handles handle = start.handles handle :=
    here.spilled.cold handle arriving.cold
  have moved := here.sound.retier (here.spilled.count ▸ arriving.made)
    (fun entry => { entry with
      resident := some tensor.bytes
      dirty := false })
    (middle.residentBytes + (middle.handles handle).size)
    (fun _ => rfl) (fun _ => rfl) (fun _ => rfl)
    (by simp [TensorHandle.residentSize, entry, arriving.cold])
  rw [Set.insert_eq_of_mem (Set.mem_singleton handle)] at moved
  refine leads_change.mpr ⟨here.frees, ?_, ?_,
    fun _ => ⟨?_, .inl ⟨?_, ?_⟩⟩⟩
  · have kept := here.spilled.kept.altered handle
      ({ · with resident := some tensor.bytes }) fun _ => rfl
    have kept' : Kept start (middle.retained handle tensor.bytes) :=
      ⟨kept.count, kept.tensors, kept.value⟩
    rw [stored]
    exact kept'.altered handle ({ · with dirty := false }) fun _ => rfl
  · rw [stored]
    simpa [TensorStore.retained, altered] using moved
  · simp [altered]
  · simp [stored, TensorStore.retained, altered, entry, arriving.valued]
  · simp [stored, TensorStore.retained, altered, entry, arriving.bare]

theorem Arriving.written {tensor : Tensor} {start : TensorStore}
    (arriving : Arriving handle tensor start)
    (between : Between {handle} start world)
    (cost : List BackingBlock → TensorHandle → Nat) :
    (do
      let blocks ← writeBacking settings tensor.bytes handle
      change handle fun entry => { entry with
        dirty := false
        transferCost := cost blocks entry } : Storing Unit).Leads world
          (Uploaded handle start) := by
  have entry : world.store.handles handle = start.handles handle :=
    between.spilled.cold handle arriving.cold
  have made : handle < world.store.count :=
    between.spilled.count ▸ arriving.made
  have busy : insert handle ({handle} : Set Handle) = {handle} :=
    Set.insert_eq_of_mem (Set.mem_singleton handle)
  refine (writePieces_spec between.sound.fresh between.sound.below
    (Wrote.nil _) (Slice.pieces settings.blockBytes tensor.bytes)).bind ?_ ?_
  · intro new final given
    obtain ⟨frees, wrote⟩ := given
    rw [List.nil_append, Slice.flatten_pieces settings.positive] at wrote
    have grown := between.sound.wrote made wrote
    have kept : Kept start final.store :=
      between.spilled.kept.trans wrote.kept
    have entry' : final.store.handles handle =
        { start.handles handle with blocks := new } := by
      rw [wrote.stored]
      simp [altered, entry, arriving.bare]
    have moved := grown.touched (kept.count ▸ arriving.made)
      (fun entry => { entry with
        dirty := false
        transferCost := cost new entry })
      (fun _ => rfl) (fun _ => rfl) (fun _ => rfl) fun _ => rfl
    rw [busy, busy] at moved
    refine leads_change.mpr ⟨frees between.frees,
      kept.altered handle (fun entry => { entry with
        dirty := false
        transferCost := cost new entry }) fun _ => rfl, moved,
      fun _ => ⟨?_, .inr ⟨?_, ?_⟩⟩⟩
    · simp [altered]
    · simp [altered, entry', arriving.cold]
    · simp [altered, entry', wrote.held, arriving.valued]
  · intro failure final given
    obtain ⟨frees, left⟩ := given
    have same : final.store = world.store.stocked final.store.drawn
        world.store.blocks := by
      conv_lhs => rw [left.stored, left.undone between.frees]
    refine ⟨frees between.frees, ?_, ?_, (by intros; contradiction)⟩
    · have kept := between.spilled.kept
      rw [same]
      exact ⟨kept.count, kept.tensors, kept.value⟩
    · rw [same]
      exact between.sound.raise left.ordered

variable [LinearOrder κ]

theorem upload_keeps {tensor : Tensor} (frees : world.Frees)
    (arriving : Arriving handle tensor world.store) (allowVram : Bool) :
    (upload settings tensor allowVram handle).Leads world
      (Uploaded handle world.store) := by
  have between : Between {handle} world.store world :=
    .refl frees arriving.sound
  unfold upload
  cases allowVram with
  | false => exact arriving.written between _
  | true =>
      refine (Between.evicting.tryRetain between tensor.bytes handle).bind
        ?_ ?_
      · intro retained next here
        cases retained with
        | true =>
            obtain ⟨middle, here, stored⟩ := here
            rw [← here.spilled.cold handle arriving.cold] at stored
            exact arriving.retained here stored
        | false => exact arriving.written here _
      · intro failure next here
        exact ⟨here.frees, here.spilled.kept, here.sound, nofun⟩

structure Registered (tensor : Tensor) (store next : TensorStore) : Prop where
  arriving : Arriving store.count tensor next
  count : next.count = store.count + 1
  tensors : next.tensors = store.tensors ++ [store.count]
  value : ∀ handle < store.count,
    (next.handles handle).value = (store.handles handle).value

theorem register_keeps (frees : world.Frees) (sound : Sound ∅ world.store)
    (tensor : Tensor) (expectedNextUse : Option NextUse)
    (remainingConsumers : Int) :
    (register tensor expectedNextUse remainingConsumers).Leads world
      fun result next => result = .ok world.store.count ∧ next.Frees ∧
        Registered tensor world.store next.store := by
  refine leads_get_bind.mpr (leads_changeStore_bind.mpr (leads_pure.mpr
    ⟨rfl, frees, ⟨?_, ?_, ?_, ?_, ?_⟩, rfl, rfl, ?_⟩))
  · exact sound.registered {
      value := tensor.bytes
      size := tensor.bytes.length
      device := tensor.device
      expectedNextUse := expectedNextUse
      dirty := true
      remainingConsumers := remainingConsumers
      accessIndex := world.store.accessIndex } rfl rfl rfl rfl rfl rfl rfl
        rfl rfl
  · exact Nat.lt_succ_self _
  · simp
  · simp
  · simp
  · intro handle old
    simp [Nat.ne_of_lt old]

theorem Uploaded.gone {start : TensorStore} {failure : StoreFailure}
    {next : World} (uploaded : Uploaded handle start (.error failure) next) :
    (do
      suppress (free handle)
      throw failure : Storing Unit).Leads next fun result final =>
        result = .error failure ∧ final.Frees ∧ Sound ∅ final.store ∧
          Removed handle start final.store := by
  obtain ⟨frees, kept, sound, _⟩ := uploaded
  refine Leads.bind (suppress_spec
    ((free_keeps frees sound).mono fun _ _ here => here.2)) ?_ ?_
  · intro _ final given
    obtain ⟨_, frees', sound', removed⟩ := given
    refine leads_throw.mpr ⟨rfl, frees', ?_, ?_⟩
    · rw [← insert_empty_eq] at sound'
      refine sound'.settle fun member _ => ?_
      rw [removed.tensors] at member
      exact absurd member sound.nodup.not_mem_erase
    · refine ⟨removed.count.trans kept.count, ?_, fun other => ?_, ?_⟩
      · rw [removed.tensors, kept.tensors]
      · rw [removed.value, kept.value]
      · rw [← kept.tensors]
        exact removed.bare
  · intro _ final given
    obtain ⟨ended, _⟩ := given
    cases ended

structure Offloaded (tensor : Tensor) (store : TensorStore)
    (result : Except StoreFailure Handle) (next : World) : Prop where
  frees : next.Frees
  sound : Sound ∅ next.store
  count : store.count ≤ next.store.count
  value : ∀ handle < store.count,
    (next.store.handles handle).value = (store.handles handle).value
  made : ∀ handle, result = .ok handle → handle = store.count ∧
    next.store.tensors = store.tensors ++ [handle] ∧
      (next.store.handles handle).value = tensor.bytes
  failed : ∀ failure, result = .error failure →
    next.store.tensors = store.tensors ∧
      ∀ handle, store.count ≤ handle →
        (next.store.handles handle).blocks = []

theorem Registered.failed {tensor : Tensor} {store start : TensorStore}
    (registered : Registered tensor store start) {final : World}
    (known : ∀ handle ∈ store.tensors, handle < store.count)
    (frees : final.Frees) (sound : Sound ∅ final.store)
    (removed : Removed store.count start final.store)
    (failure : StoreFailure) :
    Offloaded tensor store (.error failure) final := by
  have count : final.store.count = store.count + 1 :=
    removed.count.trans registered.count
  refine ⟨frees, sound, ?_, fun handle old => ?_, nofun, fun _ _ => ⟨?_, ?_⟩⟩
  · rw [count]
    exact Nat.le_succ _
  · rw [removed.value, registered.value handle old]
  · rw [removed.tensors, registered.tensors,
      List.erase_append_right _ fun member =>
        Nat.lt_irrefl _ (known _ member)]
    simp
  · intro handle unmade
    rcases Nat.eq_or_lt_of_le unmade with rfl | later
    · exact removed.bare (by simp [registered.tensors])
    · rw [sound.blank handle (count ▸ later)]

theorem Registered.done {tensor : Tensor} {store start : TensorStore}
    (registered : Registered tensor store start) {final : World}
    (uploaded : Uploaded store.count start (.ok ()) final) :
    Offloaded tensor store (.ok store.count) final := by
  obtain ⟨frees, kept, sound, settled⟩ := uploaded
  refine ⟨frees, ?_, ?_, fun handle old => ?_, ?_, nofun⟩
  · rw [← insert_empty_eq] at sound
    exact sound.settle fun _ _ => settled rfl
  · rw [kept.count, registered.count]
    exact Nat.le_succ _
  · rw [kept.value, registered.value handle old]
  · intro handle made
    cases made
    refine ⟨rfl, kept.tensors.trans registered.tensors, ?_⟩
    rw [kept.value, registered.arriving.valued]

theorem Beside.registered {tensor : Tensor} {store next start : TensorStore}
    (beside : Beside store next) (registered : Registered tensor next start) :
    Registered tensor store start := by
  obtain ⟨arriving, count, tensors, value⟩ := registered
  rw [beside.count] at arriving count tensors value
  rw [beside.tensors] at tensors
  rw [beside.handles] at value
  exact ⟨arriving, count, tensors, value⟩

theorem offload_keeps (frees : world.Frees) (sound : Sound ∅ world.store)
    (tensor : Tensor) (expectedNextUse : Option NextUse)
    (remainingConsumers : Int) (allowVram : Bool) :
    (offload settings tensor expectedNextUse remainingConsumers
      allowVram).Leads world (Offloaded tensor world.store) := by
  have stopped {failure : StoreFailure} {next : World}
      (frees : next.Frees) (beside : Beside world.store next.store) :
      Offloaded tensor world.store (.error failure) next := by
    refine ⟨frees, sound.beside beside, Nat.le_of_eq beside.count.symm,
      fun handle _ => beside.kept.value handle, (by intros; contradiction),
      fun _ _ => ⟨beside.tensors, fun handle unmade => ?_⟩⟩
    rw [beside.handles, sound.blank handle unmade]
  refine (call_undisturbed world).bind ?_ ?_
  · intro _ ready quiet
    have same : Beside world.store ready.store := by
      rw [quiet.1]
      exact ⟨rfl, rfl, rfl, rfl, rfl, rfl⟩
    split
    · refine (requireCuda_beside settings tensor.device ready).bind ?_ ?_
      · intro _ next given
        obtain ⟨frees₁, beside⟩ := given
        rw [quiet.1] at beside
        refine (register_keeps (frees₁ (quiet.2 frees)) (sound.beside beside)
          tensor expectedNextUse remainingConsumers).bind ?_ ?_
        · intro handle start given
          obtain ⟨named, frees₂, registered⟩ := given
          cases named
          have registered := beside.registered registered
          rw [beside.count]
          refine Leads.across (Ending
            (fun _ final =>
              Uploaded world.store.count start.store (.ok ()) final)
            fun failure final =>
              Offloaded tensor world.store (.error failure) final) ?_ ?_ ?_
          · refine (upload_keeps frees₂ registered.arriving
              allowVram).rescue (fun _ _ here => here) ?_
            intro failure failing uploaded
            refine uploaded.gone.mono ?_
            intro result final given
            obtain ⟨ended, frees₃, sound', removed⟩ := given
            rw [ended]
            exact registered.failed sound.known frees₃ sound' removed failure
          · intro _ final uploaded
            exact leads_pure.mpr (registered.done uploaded)
          · intro failure final here
            exact here
        · intro failure start given
          obtain ⟨ended, _⟩ := given
          cases ended
      · intro failure next given
        obtain ⟨frees', beside⟩ := given
        rw [quiet.1] at beside
        exact stopped (frees' (quiet.2 frees)) beside
    · exact leads_throw.mpr (stopped (quiet.2 frees) same)
  · intro failure next quiet
    refine stopped (quiet.2 frees) ?_
    rw [quiet.1]
    exact ⟨rfl, rfl, rfl, rfl, rfl, rfl⟩

end

/-! Restoring a tensor. -/

section

variable {κ : Type} {settings : StoreSettings κ} {world : World}
  {handle : Handle}

theorem Sound.tinkered {busy : Set Handle} {store : TensorStore}
    (sound : Sound busy store) (made : handle < store.count)
    {update : TensorHandle → TensorHandle} (tinkers : Tinkers update) :
    Sound busy (store.altered handle update) := by
  obtain ⟨blocks, size, value, resident, dirty⟩ := tinkers
  refine (sound.touched made update blocks size value resident).settle ?_
  intro member free
  obtain ⟨clean, tier⟩ := sound.settled handle member free
  refine ⟨?_, ?_⟩
  · simpa [altered, dirty] using clean
  · simpa [Exclusive, altered, blocks, value, resident] using tier

/-- What an operation that makes no tensor and frees none leaves. -/
structure Steady (store : TensorStore) (next : World) : Prop where
  frees : next.Frees
  sound : Sound ∅ next.store
  kept : Kept store next.store

theorem Steady.undisturbed {store : TensorStore} (steady : Steady store world)
    {next : World} (quiet : world.Undisturbed next) : Steady store next := by
  refine ⟨quiet.2 steady.frees, ?_, ?_⟩
  · rw [quiet.1]
    exact steady.sound
  · rw [quiet.1]
    exact steady.kept

theorem Steady.beside {store : TensorStore} (steady : Steady store world)
    {next : World} (frees : world.Frees → next.Frees)
    (beside : Beside world.store next.store) : Steady store next :=
  ⟨frees steady.frees, steady.sound.beside beside,
    steady.kept.trans beside.kept⟩

theorem Steady.tinkered {store : TensorStore} (steady : Steady store world)
    (made : handle < store.count) (update : TensorHandle → TensorHandle)
    (tinkers : Tinkers update) :
    Steady store { world with store := world.store.altered handle update } :=
  ⟨steady.frees, steady.sound.tinkered (steady.kept.count ▸ made) tinkers,
    steady.kept.altered handle update tinkers.value⟩

theorem sampleResident_keeps {store : TensorStore}
    (steady : Steady store world) (made : handle < store.count)
    (device : Option Device) :
    (sampleResident settings handle device).Leads world fun result next =>
      Steady store next ∧ ∀ target resident,
        result = .ok (target, resident) →
          resident = (next.store.handles handle).resident := by
  refine (call_undisturbed world).bind ?_ ?_
  · intro _ ready quiet
    have here := steady.undisturbed quiet
    refine leads_entry_bind.mpr ?_
    simp only
    split
    · exact leads_throw.mpr ⟨here, nofun⟩
    · refine (requireCuda_beside settings _ ready).bind ?_ ?_
      · intro _ next given
        obtain ⟨frees, beside⟩ := given
        have here := here.beside frees beside
        split
        · exact leads_throw.mpr ⟨here, nofun⟩
        · have first := here.tinkered made
            (fun entry => { entry with reuseCount := entry.reuseCount + 1 })
            (.of_rfl fun _ => rfl)
          have second := first.tinkered made
            (fun entry =>
              { entry with accessIndex := next.store.accessIndex })
            (.of_rfl fun _ => rfl)
          refine leads_change_bind.mpr (leads_get_bind.mpr
            (leads_change_bind.mpr (leads_entry_bind.mpr (leads_pure.mpr
              ⟨second, ?_⟩))))
          intro target resident same
          cases same
          rfl
      · intro failure next given
        obtain ⟨frees, beside⟩ := given
        exact ⟨here.beside frees beside, nofun⟩
  · intro failure next quiet
    exact ⟨steady.undisturbed quiet, nofun⟩

theorem copyBlock_spec (block : BackingBlock) (offset : Nat)
    (region : List UInt8) (world : World) :
    (copyBlock block offset region).Leads world fun result next =>
      world.Undisturbed next ∧ ∀ copied, result = .ok copied →
        ∃ bytes, world.store.blocks block.id = some bytes ∧
          offset + bytes.length ≤ region.length ∧
            copied = (offset + bytes.length,
              Slice.overwrite region offset bytes) := by
  refine (readBlock_spec block world).bind ?_ ?_
  · intro bytes next given
    obtain ⟨quiet, found⟩ := given
    split
    · rename_i fits
      refine leads_pure.mpr ⟨quiet, fun copied same => ?_⟩
      cases same
      exact ⟨bytes, found bytes rfl, fits, rfl⟩
    · exact leads_throw.mpr ⟨quiet, nofun⟩
  · intro failure next given
    obtain ⟨quiet, _⟩ := given
    exact ⟨quiet, nofun⟩

theorem fill_spec (list : List BackingBlock) {offset : Nat}
    {region : List UInt8} (bounded : offset ≤ region.length)
    (world : World) :
    (fill list offset region).Leads world fun result next =>
      world.Undisturbed next ∧ ∀ filled, result = .ok filled →
        ∃ bytes, contents world.store.blocks list = some bytes ∧
          offset + bytes.length ≤ region.length ∧
            filled = Slice.overwrite region offset bytes := by
  induction list generalizing offset region world with
  | nil =>
      refine leads_pure.mpr ⟨Undisturbed.refl world, fun filled same => ?_⟩
      cases same
      exact ⟨[], rfl, bounded, (Slice.overwrite_nil region offset).symm⟩
  | cons block rest ih =>
      refine (copyBlock_spec block offset region world).bind ?_ ?_
      · intro given next given'
        obtain ⟨_, _⟩ := given
        obtain ⟨quiet, copied⟩ := given'
        obtain ⟨bytes, found, fits, same⟩ := copied _ rfl
        cases same
        have length := Slice.length_overwrite fits
        refine (ih (by rw [length]; exact fits) next).mono ?_
        intro result final given
        obtain ⟨quiet', ended⟩ := given
        refine ⟨quiet.trans quiet', fun filled same => ?_⟩
        obtain ⟨others, held, fits', rfl⟩ := ended filled same
        rw [quiet.1] at held
        rw [length] at fits'
        refine ⟨bytes ++ others, ?_, ?_, ?_⟩
        · simp [contents, found, held]
        · rw [List.length_append]
          omega
        · exact Slice.overwrite_overwrite fits
      · intro failure next given
        obtain ⟨quiet, _⟩ := given
        exact ⟨quiet, (by intros; contradiction)⟩

theorem Between.steady {store start : TensorStore}
    (between : Between ∅ start world) (kept : Kept store start) :
    Steady store world :=
  ⟨between.frees, between.sound, kept.trans between.spilled.kept⟩

theorem Steady.promoted {store : TensorStore} (steady : Steady store world)
    (made : handle < store.count)
    (cold : (world.store.handles handle).resident = none)
    {bytes : List UInt8} (whole : handle ∈ store.tensors →
      bytes = (store.handles handle).value) :
    (dropBlocks handle).Leads
      { world with store := world.store.retained handle bytes }
      fun result next => result = .ok () ∧ Steady store next := by
  have made' : handle < world.store.count := steady.kept.count ▸ made
  have warm := steady.sound.retier made'
    ({ · with resident := some bytes })
    (world.store.residentBytes + (world.store.handles handle).size)
    (fun _ => rfl) (fun _ => rfl) (fun _ => rfl)
    (by simp [TensorHandle.residentSize, cold])
  refine (dropBlocks_spec _ handle).mono ?_
  intro result next given
  obtain ⟨ended, freed⟩ := given
  have dropped := warm.dropped made' rfl freed steady.frees
  have entry : next.store.handles = Function.update world.store.handles handle
      { world.store.handles handle with
        resident := some bytes
        blocks := [] } := by
    rw [freed.stored]
    simp [retained, altered]
  have kept : Kept world.store next.store := by
    refine .of_update handle _ entry rfl ?_ ?_
    · rw [freed.stored]
      rfl
    · rw [freed.stored]
      rfl
  refine ⟨ended steady.frees, freed.frees steady.frees, ?_,
    steady.kept.trans kept⟩
  rw [Set.insert_idem, insert_empty_eq] at dropped
  rw [← insert_empty_eq] at dropped
  refine dropped.settle fun member _ => ?_
  rw [kept.tensors] at member
  obtain ⟨clean, _⟩ := steady.sound.settled handle member
    (Set.notMem_empty handle)
  rw [steady.kept.tensors] at member
  have valued := steady.kept.value handle
  refine ⟨?_, .inl ⟨?_, ?_⟩⟩
  · simp [entry, clean]
  · simp [entry, valued, whole member]
  · simp [entry]

theorem promote_keeps {store : TensorStore} (steady : Steady store world)
    (made : handle < store.count)
    (cold : (world.store.handles handle).resident = none)
    {bytes : List UInt8} (whole : handle ∈ store.tensors →
      bytes = (store.handles handle).value)
    (target : Device) (retain : Bool) :
    (promote settings handle target retain bytes).Leads world
      fun result next => Steady store next ∧
        ∀ restored, result = .ok restored → restored = bytes := by
  have unchanged {world : World} (steady : Steady store world) :
      (pure bytes : Storing (List UInt8)).Leads world fun result next =>
        Steady store next ∧
          ∀ restored, result = .ok restored → restored = bytes := by
    refine leads_pure.mpr ⟨steady, fun restored same => ?_⟩
    cases same
    rfl
  unfold promote
  split
  · have priced := steady.tinkered made
      (fun entry =>
        { entry with transferCost := transferCost entry.blocks entry.size })
      (.of_rfl fun _ => rfl)
    refine leads_change_bind.mpr ?_
    split
    · refine leads_entry_bind.mpr ?_
      simp only
      refine (effectiveVramCapacity_undisturbed _).bind ?_ ?_
      · intro capacity next quiet
        have here := priced.undisturbed quiet
        refine leads_get_bind.mpr ?_
        split
        · have cold' : (next.store.handles handle).resident = none := by
            rw [quiet.1]
            simp [altered, cold]
          have stored : next.store = world.store.altered handle
              (fun entry => { entry with
                transferCost := transferCost entry.blocks entry.size }) :=
            quiet.1
          rw [← stored]
          refine leads_change_bind.mpr (leads_changeStore_bind.mpr ?_)
          refine (here.promoted made cold' whole).bind ?_ ?_
          · intro _ final given
            obtain ⟨_, moved⟩ := given
            refine (call_undisturbed final).bind ?_ ?_
            · intro _ last quiet
              exact unchanged (moved.undisturbed quiet)
            · intro failure last quiet
              exact ⟨moved.undisturbed quiet, (by intros; contradiction)⟩
          · intro failure final given
            obtain ⟨ended, _⟩ := given
            cases ended
        · exact unchanged here
      · intro failure next quiet
        exact ⟨priced.undisturbed quiet, (by intros; contradiction)⟩
    · exact unchanged priced
  · exact unchanged steady

variable [LinearOrder κ]

theorem prepareRegion_keeps (between : Between ∅ world.store world)
    (target : Device) :
    (prepareRegion settings handle target).Leads world fun result next =>
      Between ∅ world.store next ∧ ∀ region, result = .ok region →
        region.length = (world.store.handles handle).size := by
  have filled {next : World} (here : Between ∅ world.store next) :
      (empty (world.store.handles handle).size).Leads next fun result final =>
        Between ∅ world.store final ∧ ∀ region, result = .ok region →
          region.length = (world.store.handles handle).size := by
    refine Leads.mono (.and (empty_undisturbed _ next)
      (length_empty (world.store.handles handle).size next)) ?_
    intro result final given
    obtain ⟨quiet, length⟩ := given
    exact ⟨here.undisturbed quiet, length⟩
  unfold prepareRegion
  refine leads_entry_bind.mpr ?_
  simp only
  split
  · refine (Between.evicting.ensureCudaCapacity between _ [handle]
      none).bind ?_ ?_
    · intro _ next here
      exact filled here
    · intro failure next here
      exact ⟨here, nofun⟩
  · exact filled between

/-- A tensor of the table is restored as it was offloaded, or the restore
raises. -/
theorem restore_keeps (frees : world.Frees) (sound : Sound ∅ world.store)
    (made : handle < world.store.count) (device : Option Device)
    (retain : Bool) :
    (restore settings handle device retain).Leads world fun result next =>
      Steady world.store next ∧ ∀ bytes, result = .ok bytes →
        handle ∈ world.store.tensors →
          bytes = (world.store.handles handle).value := by
  have steady : Steady world.store world :=
    ⟨frees, sound, rfl, rfl, fun _ => rfl⟩
  refine (sampleResident_keeps steady made device).bind ?_ ?_
  · intro given next given'
    obtain ⟨target, resident⟩ := given
    obtain ⟨here, sampled⟩ := given'
    have sampled := sampled target resident rfl
    have settled (member : handle ∈ world.store.tensors) :
        Exclusive next.store.blocks (next.store.handles handle) :=
      (here.sound.settled handle (here.kept.tensors ▸ member)
        (Set.notMem_empty _)).2
    have valued := here.kept.value handle
    cases resident with
    | some bytes =>
        refine (call_undisturbed next).bind ?_ ?_
        · intro _ final quiet
          refine leads_pure.mpr ⟨here.undisturbed quiet, ?_⟩
          intro restored same member
          cases same
          rcases settled member with tier | tier
          · rw [tier.1, Option.some.injEq] at sampled
            rw [sampled, valued]
          · rw [tier.1] at sampled
            cases sampled
        · intro failure final quiet
          exact ⟨here.undisturbed quiet, nofun⟩
    | none =>
        refine (prepareRegion_keeps (.refl here.frees here.sound) target).bind
          ?_ ?_
        · intro region ready given
          obtain ⟨between, length⟩ := given
          have cold := between.spilled.cold handle sampled.symm
          have bare : (ready.store.handles handle).resident = none := by
            rw [cold, ← sampled]
          refine leads_entry_bind.mpr ?_
          refine (fill_spec (ready.store.handles handle).blocks
            (Nat.zero_le region.length) ready).bind ?_ ?_
          · intro bytes full given
            obtain ⟨quiet, filled⟩ := given
            have there := (between.steady here.kept).undisturbed quiet
            have whole (member : handle ∈ world.store.tensors) :
                bytes = (world.store.handles handle).value := by
              obtain ⟨read, held, _, rfl⟩ := filled bytes rfl
              have tier := (between.sound.settled handle (by
                rw [between.spilled.tensors, here.kept.tensors]
                exact member) (Set.notMem_empty _)).2
              rcases tier with tier | tier
              · rw [bare] at tier
                cases tier.1
              · rw [tier.2, Option.some.injEq] at held
                have size : (ready.store.handles handle).value.length =
                    region.length := by
                  rw [length region rfl, ← between.sound.sized, cold]
                rw [← held, Slice.overwrite_all size, cold, valued]
            have cold' : (full.store.handles handle).resident = none := by
              rw [quiet.1]
              exact bare
            refine (promote_keeps there made cold' whole target
              retain).mono ?_
            intro result final given
            obtain ⟨last, restored⟩ := given
            refine ⟨last, fun other same member => ?_⟩
            rw [restored other same, whole member]
          · intro failure full given
            obtain ⟨quiet, _⟩ := given
            exact ⟨(between.steady here.kept).undisturbed quiet, nofun⟩
        · intro failure ready given
          obtain ⟨between, _⟩ := given
          exact ⟨between.steady here.kept, nofun⟩
  · intro failure next given
    obtain ⟨here, _⟩ := given
    exact ⟨here, nofun⟩

end

end TensorStore

end TrainPool
