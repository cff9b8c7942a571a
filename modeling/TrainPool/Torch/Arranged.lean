import TrainPool.Torch.Prefetch

namespace TrainPool

/-! The order that two threads keep in the store, even where blocks cannot be
freed and where a restore goes through an incomplete list of blocks. -/

namespace TensorStore

open Failing World

/-- No block is listed that is not drawn yet, and a resident tensor has no
blocks. -/
structure InOrder (drawn : Uuid) (entry : TensorHandle) : Prop where
  named : ∀ block ∈ entry.blocks, block.id < drawn
  warm : ∀ resident, entry.resident = some resident →
    entry.blocks = [] ∧ resident.length = entry.size

structure Arranged (store : TensorStore) : Prop where
  fresh : store.Fresh
  handles : ∀ handle, InOrder store.drawn (store.handles handle)

structure Orders (store next : TensorStore) : Prop where
  arranged : Arranged next
  count : store.count ≤ next.count
  size : ∀ handle < store.count,
    (next.handles handle).size = (store.handles handle).size

namespace Orders

variable {store next final : TensorStore} {handle : Handle}

theorem refl (arranged : Arranged store) : Orders store store :=
  ⟨arranged, Nat.le_refl _, fun _ _ => rfl⟩

theorem trans (early : Orders store next) (late : Orders next final) :
    Orders store final where
  arranged := late.arranged
  count := Nat.le_trans early.count late.count
  size handle made := by
    rw [late.size handle (Nat.lt_of_lt_of_le made early.count),
      early.size handle made]

theorem replace (orders : Orders store next) (handle : Handle)
    (entry : TensorHandle)
    (handles : final.handles = Function.update next.handles handle entry)
    (count : next.count = final.count) (drawn : next.drawn ≤ final.drawn)
    (fresh : final.Fresh) (size : entry.size = (next.handles handle).size)
    (here : InOrder final.drawn entry) : Orders store final := by
  refine orders.trans ⟨⟨fresh, fun other => ?_⟩, Nat.le_of_eq count,
    fun other _ => ?_⟩
  · rw [handles]
    by_cases same : other = handle
    · subst same
      rw [Function.update_self]
      exact here
    · rw [Function.update_of_ne same]
      obtain ⟨named, warm⟩ := orders.arranged.handles other
      exact ⟨fun block member => Nat.lt_of_lt_of_le (named block member)
        drawn, warm⟩
  · rw [handles]
    by_cases same : other = handle
    · subst same
      rw [Function.update_self, size]
    · rw [Function.update_of_ne same]

theorem tinkered (orders : Orders store next) (handle : Handle)
    (update : TensorHandle → TensorHandle)
    (blocks : ∀ entry, (update entry).blocks = entry.blocks)
    (size : ∀ entry, (update entry).size = entry.size)
    (resident : ∀ entry, (update entry).resident = entry.resident) :
    Orders store (next.altered handle update) := by
  obtain ⟨named, warm⟩ := orders.arranged.handles handle
  refine orders.replace handle (update (next.handles handle)) rfl rfl
    (Nat.le_refl _) orders.arranged.fresh (size _) ⟨?_, ?_⟩
  · rwa [blocks]
  · rwa [blocks, resident, size]

theorem beside (orders : Orders store next) (beside : Beside next final) :
    Orders store final := by
  refine orders.trans ⟨⟨fun id undrawn => ?_, fun handle => ?_⟩,
    Nat.le_of_eq beside.count.symm, fun handle _ => by rw [beside.handles]⟩
  · rw [beside.blocks]
    exact orders.arranged.fresh id (beside.drawn ▸ undrawn)
  · rw [beside.handles, beside.drawn]
    exact orders.arranged.handles handle

theorem undisturbed {world later : World} (orders : Orders store world.store)
    (quiet : world.Undisturbed later) : Orders store later.store := by
  rw [quiet.1]
  exact orders

theorem dropped {start later : World} (orders : Orders store next)
    (freed : Freed (start.store.handles handle).blocks { start with
      store := start.store.altered handle ({ · with blocks := [] }) } later)
    (others : ∀ other, other ≠ handle →
      start.store.handles other = next.handles other)
    (count : start.store.count = next.count)
    (blocks : start.store.blocks = next.blocks)
    (drawn : start.store.drawn = next.drawn)
    (size : (start.store.handles handle).size = (next.handles handle).size)
    (warm : ∀ resident, (start.store.handles handle).resident =
      some resident → resident.length = (start.store.handles handle).size) :
    Orders store later.store ∧ (later.store.handles handle).blocks = [] := by
  have stored := freed.stored
  have fresh : later.store.Fresh := by
    intro id undrawn
    rcases freed.fewer id with lost | same
    · exact lost
    · rw [same]
      rw [stored] at undrawn
      change start.store.blocks id = none
      rw [blocks]
      exact orders.arranged.fresh id (drawn ▸ undrawn)
  constructor
  · refine orders.replace handle
      { start.store.handles handle with blocks := [] } ?_ ?_ ?_ fresh size
        ⟨by simp, fun resident here => ⟨rfl, warm resident here⟩⟩
    · rw [stored]
      funext other
      by_cases same : other = handle
      · subst same
        simp [altered]
      · simp [altered, same, others other same]
    · rw [stored]
      exact count.symm
    · rw [stored]
      exact Nat.le_of_eq drawn.symm
  · rw [stored]
    simp [altered]

end Orders

section Evictions

variable {κ : Type} {settings : StoreSettings κ} {world : World}
  {handle : Handle}

/-- What becomes of the record of a tensor that is spilled, `next` being the
store afterwards. -/
inductive Eviction (next : TensorStore) : TensorHandle → TensorHandle → Prop
  | cold (entry : TensorHandle) (bare : entry.resident = none) :
      Eviction next entry entry
  | failed (entry : TensorHandle) (warm : entry.resident ≠ none) :
      Eviction next entry { entry with dirty := false }
  | moved (entry : TensorHandle) (resident : List UInt8)
      (blocks : List BackingBlock) (cost : Nat)
      (warm : entry.resident = some resident)
      (named : ∀ block ∈ blocks, block.id < next.drawn)
      (held : contents next.blocks blocks = some resident) :
      Eviction next entry { entry with
        blocks := blocks
        transferCost := cost
        resident := none
        dirty := false }

structure Evicts (handle : Handle) (store next : TensorStore) : Prop where
  count : next.count = store.count
  tensors : next.tensors = store.tensors
  drawn : store.drawn ≤ next.drawn
  fresh : next.Fresh
  old : ∀ id, id < store.drawn → next.blocks id = store.blocks id
  entry : ∃ entry, Eviction next (store.handles handle) entry ∧
    next.handles = Function.update store.handles handle entry

theorem Evicts.kept {store : TensorStore} (fresh : store.Fresh)
    (cold : (store.handles handle).resident = none) :
    Evicts handle store store :=
  ⟨rfl, rfl, Nat.le_refl _, fresh, fun _ _ => rfl, _, .cold _ cold,
    (Function.update_eq_self ..).symm⟩

theorem spill_evicts (arranged : Arranged world.store) :
    (spill settings handle).Leads world fun _ next =>
      Evicts handle world.store next.store := by
  refine leads_entry_bind.mpr ?_
  cases warm : (world.store.handles handle).resident with
  | none => exact leads_pure.mpr (.kept arranged.fresh warm)
  | some resident =>
      obtain ⟨bare, _⟩ := (arranged.handles handle).warm resident warm
      have bare' : ((world.store.marked handle).handles handle).blocks =
          [] := by
        simp [marked, altered, bare]
      have fresh : (world.store.marked handle).Fresh := arranged.fresh
      refine leads_change_bind.mpr ?_
      have writes : (tryCatch (writeBacking settings resident handle)
          fun failure => do
            change handle ({ · with dirty := false })
            throw failure : Storing (List BackingBlock)).Leads
          { world with store := world.store.marked handle }
          (Ending (fun new next => Wrote handle new resident
            (world.store.marked handle) next.store)
            fun _ next => Evicts handle world.store next.store) := by
        refine (writePieces_spec fresh (by simp [bare']) (Wrote.nil _)
          (Slice.pieces settings.blockBytes _)).rescue ?_ ?_
        · intro new next given
          obtain ⟨_, wrote⟩ := given
          rw [List.nil_append, Slice.flatten_pieces settings.positive]
            at wrote
          exact wrote
        · intro failure next given
          obtain ⟨_, left⟩ := given
          refine leads_change_bind.mpr (leads_throw.mpr ?_)
          have stored := left.stored
          refine ⟨?_, ?_, left.ordered, left.fresh, left.old,
            _, .failed _ (by simp [warm]), ?_⟩
          · rw [stored]
            rfl
          · rw [stored]
            rfl
          · rw [stored]
            simp [altered, marked]
      refine writes.bind ?_ fun _ _ evicts => evicts
      intro new next wrote
      refine leads_evict.mpr ?_
      have handles : next.store.handles = Function.update
          world.store.handles handle { world.store.handles handle with
            dirty := true
            blocks := new } := by
        rw [wrote.stored]
        simp [altered, marked, bare]
      refine ⟨?_, ?_, wrote.ordered, wrote.fresh arranged.fresh,
        fun id old => wrote.others id (wrote.old old),
        _, .moved _ resident new
          (transferCost new (world.store.handles handle).size) warm ?_
          wrote.held, ?_⟩
      · simp only [evicted, altered]
        rw [wrote.stored]
        rfl
      · simp only [evicted, altered]
        rw [wrote.stored]
        rfl
      · exact fun block member => (wrote.named block member).2
      · simp [evicted, altered, handles]

theorem Eviction.size {next : TensorStore} {entry entry' : TensorHandle}
    (eviction : Eviction next entry entry') : entry'.size = entry.size := by
  cases eviction <;> rfl

theorem Evicts.orders {store next : TensorStore} (arranged : Arranged store)
    (evicts : Evicts handle store next) : Orders store next := by
  obtain ⟨entry, eviction, handles⟩ := evicts.entry
  apply (Orders.refl arranged).replace handle entry handles evicts.count.symm
    evicts.drawn evicts.fresh eviction.size
  obtain ⟨named, warm⟩ := arranged.handles handle
  cases eviction with
  | cold bare =>
      exact ⟨fun block member =>
        Nat.lt_of_lt_of_le (named block member) evicts.drawn, warm⟩
  | failed hot =>
      exact ⟨fun block member =>
        Nat.lt_of_lt_of_le (named block member) evicts.drawn, warm⟩
  | moved resident blocks cost was named held =>
      exact ⟨named, by intros; contradiction⟩

structure Emptied (start : TensorStore) (world : World) : Prop where
  orders : Orders start world.store
  spilled : Spilled start world.store

theorem Emptied.refl (arranged : Arranged world.store) :
    Emptied world.store world :=
  ⟨Orders.refl arranged, Spilled.refl _⟩

theorem Emptied.evicting {start : TensorStore} :
    Evicting settings (Emptied start) where
  quiet world next emptied quiet := by
    obtain ⟨orders, spilled⟩ := emptied
    rw [← quiet.1] at orders spilled
    exact ⟨orders, spilled⟩
  spills world handle emptied := by
    have arranged := emptied.orders.arranged
    refine (Leads.and (spill_evicts arranged)
      (spill_spilled handle world)).mono ?_
    intro result next given
    obtain ⟨evicts, spilled, _⟩ := given
    exact ⟨emptied.orders.trans (evicts.orders arranged),
      emptied.spilled.trans spilled⟩

end Evictions

section Operations

variable {κ : Type} {settings : StoreSettings κ} {world : World}
  {handle : Handle}

theorem free_orders (arranged : Arranged world.store) :
    (free handle).Leads world fun _ next => Orders world.store next.store := by
  have start := Orders.refl arranged
  refine leads_get_bind.mpr ?_
  split
  · have freeing {next : World} (freed : Freed
        (world.store.handles handle).blocks { world with
          store := world.store.altered handle ({ · with blocks := [] }) }
        next) := start.dropped freed (fun _ _ => rfl) rfl rfl rfl rfl
      fun resident here => ((arranged.handles handle).warm resident here).2
    refine (dropBlocks_spec world handle).bind ?_ ?_
    · intro _ next given
      obtain ⟨_, freed⟩ := given
      obtain ⟨orders, bare⟩ := freeing freed
      refine leads_entry_bind.mpr ?_
      simp only
      split
      · refine leads_change_bind.mpr (leads_changeStore_bind.mpr
          (leads_changeStore.mpr ?_))
        exact orders.replace handle
          { next.store.handles handle with resident := none } rfl rfl
            (Nat.le_refl _) orders.arranged.fresh rfl
            ⟨by simp [bare], by intros; contradiction⟩
      · refine leads_changeStore.mpr ?_
        exact orders.trans ⟨⟨orders.arranged.fresh, orders.arranged.handles⟩,
          Nat.le_refl _, fun _ _ => rfl⟩
    · intro failure next given
      obtain ⟨_, freed⟩ := given
      exact (freeing freed).1
  · exact leads_pure.mpr start

structure Entered (handle : Handle) (bytes : List UInt8)
    (store : TensorStore) : Prop where
  arranged : Arranged store
  cold : (store.handles handle).resident = none
  bare : (store.handles handle).blocks = []
  sized : bytes.length = (store.handles handle).size

theorem register_orders (arranged : Arranged world.store) (tensor : Tensor)
    (expectedNextUse : Option NextUse) (remainingConsumers : Int) :
    (register tensor expectedNextUse remainingConsumers).Leads world
      fun result next => Orders world.store next.store ∧
        ∀ handle, result = .ok handle →
          Entered handle tensor.bytes next.store := by
  refine leads_get_bind.mpr (leads_changeStore_bind.mpr (leads_pure.mpr ?_))
  have registered : Arranged { world.store with
      handles := Function.update world.store.handles world.store.count {
        value := tensor.bytes
        size := tensor.bytes.length
        device := tensor.device
        expectedNextUse := expectedNextUse
        dirty := true
        remainingConsumers := remainingConsumers
        accessIndex := world.store.accessIndex }
      count := world.store.count + 1
      tensors := world.store.tensors ++ [world.store.count] } := by
    refine ⟨arranged.fresh, fun handle => ?_⟩
    by_cases new : handle = world.store.count
    · subst new
      simp only [Function.update_self]
      exact ⟨by simp, by intros; contradiction⟩
    · simp only [Function.update_of_ne new]
      exact arranged.handles handle
  refine ⟨⟨registered, Nat.le_succ _, fun handle old => ?_⟩, ?_⟩
  · simp [Nat.ne_of_lt old]
  · intro handle made
    cases made
    exact ⟨registered, by simp, by simp, by simp⟩

theorem Entered.written {start : TensorStore} {bytes : List UInt8}
    (entered : Entered handle bytes start) (emptied : Emptied start world)
    (cost : List BackingBlock → TensorHandle → Nat) :
    (do
      let blocks ← writeBacking settings bytes handle
      change handle fun entry => { entry with
        dirty := false
        transferCost := cost blocks entry } : Storing Unit).Leads world
          fun _ next => Orders start next.store := by
  have entry : world.store.handles handle = start.handles handle :=
    emptied.spilled.cold handle entered.cold
  have arranged := emptied.orders.arranged
  refine (writePieces_spec arranged.fresh (arranged.handles handle).named
    (Wrote.nil _) (Slice.pieces settings.blockBytes bytes)).bind ?_ ?_
  · intro new next given
    obtain ⟨_, wrote⟩ := given
    refine leads_change.mpr (Orders.tinkered ?_ handle (fun entry =>
      { entry with
        dirty := false
        transferCost := cost new entry }) (fun _ => rfl) (fun _ => rfl)
        fun _ => rfl)
    refine emptied.orders.replace handle { world.store.handles handle with
      blocks := (world.store.handles handle).blocks ++ new } ?_ ?_
        wrote.ordered (wrote.fresh arranged.fresh) rfl ⟨?_, ?_⟩
    · rw [wrote.stored]
      rfl
    · rw [wrote.stored]
      rfl
    · simp only [entry, entered.bare, List.nil_append]
      exact fun block member => (wrote.named block member).2
    · simp [entry, entered.cold]
  · intro failure next given
    obtain ⟨_, left⟩ := given
    have handles : next.store.handles = world.store.handles := by
      rw [left.stored]
      rfl
    refine emptied.orders.trans ⟨⟨left.fresh, fun other => ?_⟩, ?_,
      fun other _ => by rw [handles]⟩
    · rw [handles]
      obtain ⟨named, warm⟩ := arranged.handles other
      exact ⟨fun block member =>
        Nat.lt_of_lt_of_le (named block member) left.ordered, warm⟩
    · rw [left.stored]
      exact Nat.le_refl _

/-! The parts of a restore that make no room. -/

theorem sampleResident_orders (arranged : Arranged world.store)
    (device : Option Device) :
    (sampleResident settings handle device).Leads world fun _ next =>
      Orders world.store next.store := by
  have start := Orders.refl arranged
  refine (call_undisturbed world).bind ?_ ?_
  · intro _ ready quiet
    have here := start.undisturbed quiet
    refine leads_entry_bind.mpr ?_
    simp only
    split
    · exact leads_throw.mpr here
    · refine (requireCuda_beside settings _ ready).bind ?_ ?_
      · intro _ next given
        obtain ⟨_, beside⟩ := given
        have here := here.beside beside
        split
        · exact leads_throw.mpr here
        · have first := here.tinkered handle
            (fun entry => { entry with reuseCount := entry.reuseCount + 1 })
            (fun _ => rfl) (fun _ => rfl) fun _ => rfl
          exact first.tinkered handle
            (fun entry =>
              { entry with accessIndex := next.store.accessIndex })
            (fun _ => rfl) (fun _ => rfl) fun _ => rfl
      · intro failure next given
        obtain ⟨_, beside⟩ := given
        exact here.beside beside
  · intro failure next quiet
    exact start.undisturbed quiet

theorem sample_orders (arranged : Arranged world.store)
    (device : Option Device) :
    (Restoring.sample settings handle device).Leads world fun _ next =>
      Orders world.store next.store := by
  refine (sampleResident_orders arranged device).bind ?_ fun _ _ here => here
  intro given next orders
  obtain ⟨target, resident⟩ := given
  cases resident with
  | none => exact leads_pure.mpr orders
  | some bytes =>
      refine (call_undisturbed next).bind ?_ ?_
      · intro _ final quiet
        exact leads_pure.mpr (orders.undisturbed quiet)
      · intro failure final quiet
        exact orders.undisturbed quiet

theorem promote_orders (arranged : Arranged world.store) {bytes : List UInt8}
    (whole : bytes.length = (world.store.handles handle).size)
    (target : Device) (retain : Bool) :
    (promote settings handle target retain bytes).Leads world
      fun _ next => Orders world.store next.store := by
  have start := Orders.refl arranged
  unfold promote
  split
  · have priced := start.tinkered handle (fun entry => { entry with
      transferCost := transferCost entry.blocks entry.size })
      (fun _ => rfl) (fun _ => rfl) fun _ => rfl
    refine leads_change_bind.mpr ?_
    split
    · refine leads_entry_bind.mpr ?_
      simp only
      refine (effectiveVramCapacity_undisturbed _).bind ?_ ?_
      · intro capacity next quiet
        have stored : next.store = world.store.altered handle
            (fun entry => { entry with
              transferCost := transferCost entry.blocks entry.size }) :=
          quiet.1
        rw [← stored] at priced
        have size : (next.store.handles handle).size = bytes.length := by
          rw [stored, whole]
          simp [altered]
        refine leads_get_bind.mpr ?_
        split
        · refine leads_change_bind.mpr (leads_changeStore_bind.mpr ?_)
          refine Leads.across (fun _ (final : World) =>
            Orders world.store final.store) ?_ ?_ fun _ _ here => here
          · refine (dropBlocks_spec _ handle).mono ?_
            intro result final given
            obtain ⟨_, freed⟩ := given
            refine (priced.dropped freed ?_ rfl rfl rfl ?_ ?_).1
            · intro other differ
              simp [altered, differ]
            · simp [altered]
            · intro resident warm
              simp only [altered, Function.update_self, Option.some.injEq]
                at warm
              simp [altered, size, warm]
          · intro _ final here
            refine (call_undisturbed final).bind ?_ ?_
            · intro _ last quiet
              exact leads_pure.mpr (here.undisturbed quiet)
            · intro failure last quiet
              exact here.undisturbed quiet
        · exact leads_pure.mpr priced
      · intro failure next quiet
        exact priced.undisturbed quiet
    · exact leads_pure.mpr priced
  · exact leads_pure.mpr start

/-! What makes room first. -/

variable [LinearOrder κ]

theorem upload_orders {tensor : Tensor}
    (entered : Entered handle tensor.bytes world.store) (allowVram : Bool) :
    (upload settings tensor allowVram handle).Leads world
      fun _ next => Orders world.store next.store := by
  have start : Emptied world.store world := .refl entered.arranged
  unfold upload
  cases allowVram with
  | false => exact entered.written start _
  | true =>
      refine (Emptied.evicting.tryRetain start tensor.bytes handle).bind ?_
        fun _ _ here => here.orders
      intro retained next here
      cases retained with
      | false => exact entered.written here _
      | true =>
          obtain ⟨middle, emptied, stored⟩ := here
          have entry : middle.handles handle = world.store.handles handle :=
            emptied.spilled.cold handle entered.cold
          simp only [↓reduceIte]
          refine leads_change.mpr (emptied.orders.replace handle
            { middle.handles handle with
              resident := some tensor.bytes
              dirty := false } ?_ ?_ ?_ ?_ rfl ⟨?_, ?_⟩)
          · simp [stored, altered]
          · simp [stored, altered]
          · simp [stored, altered]
          · rw [stored]
            exact emptied.orders.arranged.fresh
          · simp [entry, entered.bare]
          · intro resident same
            cases same
            exact ⟨by simp [entry, entered.bare],
              by simp [entry, entered.sized]⟩

theorem offload_orders (arranged : Arranged world.store) (tensor : Tensor)
    (expectedNextUse : Option NextUse) (remainingConsumers : Int)
    (allowVram : Bool) :
    (offload settings tensor expectedNextUse remainingConsumers
      allowVram).Leads world fun _ next =>
        Orders world.store next.store := by
  have start := Orders.refl arranged
  refine (call_undisturbed world).bind ?_ ?_
  · intro _ ready quiet
    have here := start.undisturbed quiet
    split
    · refine (requireCuda_beside settings tensor.device ready).bind ?_ ?_
      · intro _ next given
        obtain ⟨_, beside⟩ := given
        have here := here.beside beside
        refine (register_orders here.arranged tensor expectedNextUse
          remainingConsumers).bind ?_ fun _ _ given => here.trans given.1
        intro handle made given
        obtain ⟨new, entered⟩ := given
        have here := here.trans new
        have uploads : (tryCatch (upload settings tensor allowVram handle)
            fun failure => do
              suppress (free handle)
              throw failure : Storing Unit).Leads made fun _ final =>
                Orders made.store final.store := by
          refine (upload_orders (entered handle rfl) allowVram).rescue
            (fun _ _ uploaded => uploaded) ?_
          intro failure failing uploaded
          refine Leads.bind (suppress_spec (free_orders uploaded.arranged))
            ?_ ?_
          · intro _ final given
            exact leads_throw.mpr (uploaded.trans given.2)
          · intro _ final given
            exact uploaded.trans given.2
        refine uploads.bind ?_ fun _ _ uploaded => here.trans uploaded
        intro _ final uploaded
        exact leads_pure.mpr (here.trans uploaded)
      · intro failure next given
        obtain ⟨_, beside⟩ := given
        exact here.beside beside
    · exact leads_throw.mpr here
  · intro failure next quiet
    exact start.undisturbed quiet

theorem perform_orders (arranged : Arranged world.store)
    {operation : StoreOperation} (other : operation.isRestore = false) :
    (perform settings operation).Leads world fun _ next =>
      Orders world.store next.store := by
  have start : Emptied world.store world := .refl arranged
  cases operation with
  | offload tensor expectedNextUse remainingConsumers allowVram =>
      refine (offload_orders arranged tensor expectedNextUse
        remainingConsumers allowVram).bind ?_ fun _ _ here => here
      intro handle next here
      exact leads_pure.mpr here
  | restore handle device retain => cases other
  | ensureCudaCapacity bytesNeeded protect context =>
      exact (Emptied.evicting.ensureCudaCapacity start bytesNeeded protect
        context).mono fun _ _ here => here.orders
  | prepareTransient handles =>
      exact (Emptied.evicting.prepareTransient start handles).mono
        fun _ _ here => here.orders
  | updatePriority handle nextUse remainingConsumers =>
      refine (updatePriority_spec handle nextUse remainingConsumers
        world).mono ?_
      intro result next given
      obtain ⟨update, tinkers, same⟩ := given
      rw [same]
      exact start.orders.tinkered handle update tinkers.blocks tinkers.size
        tinkers.resident
  | setAccessIndex index =>
      have beside : Beside world.store { world.store with
          accessIndex := if index ≤ world.store.accessIndex then
            world.store.accessIndex + 1 else index } :=
        ⟨rfl, rfl, rfl, rfl, rfl, rfl⟩
      exact start.orders.beside beside
  | free handle => exact free_orders arranged

theorem prepareRegion_orders (arranged : Arranged world.store)
    (made : handle < world.store.count) (target : Device) :
    (prepareRegion settings handle target).Leads world fun result next =>
      Orders world.store next.store ∧ ∀ region, result = .ok region →
        region.length = (next.store.handles handle).size := by
  have start : Emptied world.store world := .refl arranged
  have filled {next : World} (here : Emptied world.store next) :
      (empty (world.store.handles handle).size).Leads next
        fun result final => Orders world.store final.store ∧
          ∀ region, result = .ok region →
            region.length = (final.store.handles handle).size := by
    refine (Leads.and (empty_undisturbed _ next)
      (length_empty (world.store.handles handle).size next)).mono ?_
    intro result final given
    obtain ⟨quiet, length⟩ := given
    have orders := here.orders.undisturbed quiet
    refine ⟨orders, fun region made' => ?_⟩
    rw [length region made', orders.size handle made]
  unfold prepareRegion
  refine leads_entry_bind.mpr ?_
  simp only
  split
  · refine (Emptied.evicting.ensureCudaCapacity start _ [handle] none).bind
      ?_ ?_
    · intro _ next here
      exact filled here
    · intro failure next here
      exact ⟨here.orders, by intros; contradiction⟩
  · exact filled start

end Operations

end TensorStore

namespace Restores

open TensorStore Failing World

variable {κ : Type} [LinearOrder κ] {settings : StoreSettings κ}

/-- A region has the size of its tensor. -/
def Fits (store : TensorStore) (restoring : Restoring) : Prop :=
  let size := (store.handles restoring.handle).size
  restoring.handle < store.count ∧
    match restoring.stage with
    | .sampled => True
    | .prepared region | .copying _ _ region => region.length = size

theorem Fits.later {store next : TensorStore} {restoring : Restoring}
    (fits : Fits store restoring) (orders : Orders store next) :
    Fits next restoring := by
  obtain ⟨made, stage⟩ := fits
  refine ⟨Nat.lt_of_lt_of_le made orders.count, ?_⟩
  rw [orders.size _ made]
  exact stage

theorem next_orders {world : World} {restoring : Restoring}
    (arranged : Arranged world.store) (fits : Fits world.store restoring) :
    (restoring.next settings).Leads world fun result next =>
      Orders world.store next.store ∧ ∀ later,
        result = .ok (.inl later) → Fits next.store later := by
  obtain ⟨handle, target, retain, stage⟩ := restoring
  obtain ⟨made, length⟩ := fits
  have start := Orders.refl arranged
  cases stage with
  | sampled =>
      refine (prepareRegion_orders arranged made target).bind ?_ ?_
      · intro region next given
        obtain ⟨orders, length⟩ := given
        refine leads_pure.mpr ⟨orders, fun later same => ?_⟩
        cases same
        exact ⟨Nat.lt_of_lt_of_le made orders.count, length region rfl⟩
      · intro failure next given
        obtain ⟨orders, _⟩ := given
        exact ⟨orders, by intros; contradiction⟩
  | prepared region =>
      refine leads_entry_bind.mpr (leads_pure.mpr ⟨start, ?_⟩)
      intro later same
      cases same
      exact ⟨made, length⟩
  | copying rest offset region =>
      cases rest with
      | nil =>
          refine (promote_orders arranged length target retain).bind ?_ ?_
          · intro bytes next orders
            exact leads_pure.mpr ⟨orders, by intro _ same; cases same⟩
          · intro failure next orders
            exact ⟨orders, by intro _ same; cases same⟩
      | cons block blocks =>
          refine (copyBlock_spec block offset region world).bind ?_ ?_
          · intro given next given'
            obtain ⟨_, _⟩ := given
            obtain ⟨quiet, got⟩ := given'
            obtain ⟨bytes, _, fits, same⟩ := got _ rfl
            cases same
            have orders := start.undisturbed quiet
            refine leads_pure.mpr ⟨orders, fun later same => ?_⟩
            cases same
            refine ⟨Nat.lt_of_lt_of_le made orders.count, ?_⟩
            simp only
            rw [Slice.length_overwrite fits, orders.size handle made]
            exact length
          · intro failure next given
            obtain ⟨quiet, _⟩ := given
            exact ⟨start.undisturbed quiet, by intros; contradiction⟩

structure Regular (state : Restores) : Prop where
  arranged : Arranged state.store
  fits : ∀ worker restoring, state.running worker = some restoring →
    Fits state.store restoring

namespace Regular

variable {state next : Restores}

theorem empty (gpuDevice : Bool) :
    Regular { store := { gpuDevice := gpuDevice } } where
  arranged := ⟨fun _ _ => rfl, fun _ => ⟨by simp, by intros; contradiction⟩⟩
  fits _ _ found := by cases found

theorem settle (regular : Regular state) (worker : Worker)
    {store : TensorStore} (orders : Orders state.store store)
    {restoring : Option Restoring}
    (fits : ∀ one, restoring = some one → Fits store one) :
    Regular (state.settle worker store restoring) where
  arranged := orders.arranged
  fits other one found := by
    by_cases same : other = worker
    · subst same
      exact fits one (by simpa [Restores.settle] using found)
    · simp only [Restores.settle, Function.update_of_ne same] at found
      exact (regular.fits other one found).later orders

theorem deliver (regular : Regular state) (worker : Worker)
    {store : TensorStore} (orders : Orders state.store store)
    (handle : Handle) (result : List UInt8) :
    Regular (state.deliver worker store handle result) := by
  have settled := regular.settle worker orders
    (show ∀ one, none = some one → Fits store one by intros; contradiction)
  exact ⟨settled.arranged, settled.fits⟩

theorem step (regular : Regular state)
    {event : RestoreEvent × Surroundings}
    (stepped : Restores.step settings state event = some next) :
    Regular next := by
  obtain ⟨event, surroundings⟩ := event
  cases event with
  | operate operation =>
      simp only [Restores.step] at stepped
      split at stepped
      · rename_i ready
        cases stepped
        have orders : (perform settings operation).Leads
            ⟨state.store, surroundings⟩ fun _ next =>
              Orders state.store next.store :=
          perform_orders regular.arranged ready.2.1
        exact ⟨orders.arranged, fun worker one found =>
          (regular.fits worker one found).later orders⟩
      · cases stepped
  | start worker handle device retain =>
      simp only [Restores.step] at stepped
      split at stepped
      · rename_i ready
        have orders : (Restoring.sample settings handle device).Leads
            ⟨state.store, surroundings⟩ fun _ next =>
              Orders state.store next.store :=
          sample_orders regular.arranged device
        unfold Leads at orders
        split at stepped
        · rename_i target bytes final ran
          cases stepped
          rw [ran] at orders
          exact regular.deliver worker orders handle bytes
        · rename_i target final ran
          cases stepped
          rw [ran] at orders
          refine regular.settle worker orders fun one same => ?_
          cases same
          exact ⟨Nat.lt_of_lt_of_le ready.2 orders.count, trivial⟩
        · rename_i failure final ran
          cases stepped
          rw [ran] at orders
          exact regular.settle worker orders (by intros; contradiction)
      · cases stepped
  | advance worker =>
      simp only [Restores.step, Option.bind_eq_bind, Option.bind_eq_some_iff]
        at stepped
      obtain ⟨restoring, running, stepped⟩ := stepped
      have went : (restoring.next settings).Leads
          ⟨state.store, surroundings⟩ fun result next =>
            Orders state.store next.store ∧ ∀ later,
              result = .ok (.inl later) → Fits next.store later :=
        next_orders regular.arranged (regular.fits worker restoring running)
      unfold Leads at went
      split at stepped
      · rename_i later final ran
        cases stepped
        rw [ran] at went
        refine regular.settle worker went.1 fun one same => ?_
        cases same
        exact went.2 later rfl
      · rename_i result final ran
        cases stepped
        rw [ran] at went
        exact regular.deliver worker went.1 restoring.handle result
      · rename_i failure final ran
        cases stepped
        rw [ran] at went
        exact regular.settle worker went.1 (by intros; contradiction)

theorem run {gpuDevice : Bool} {events : List (RestoreEvent × Surroundings)}
    (ran : Execution.run (Restores.step settings)
      { store := { gpuDevice := gpuDevice } } events = some state) :
    Regular state :=
  Execution.run_invariant Regular
    (fun _ _ _ regular stepped => regular.step stepped)
    (Regular.empty gpuDevice) ran

end Regular

end Restores

end TrainPool
