import TrainPool.Torch.Moves

namespace TrainPool

/-! What the store knows of a tensor is true of it, even where blocks cannot
be freed: a resident copy is the tensor, and the blocks that are listed for it
are its pieces, as far as they are still there. -/

namespace TensorStore

open Failing World

/-- Blocks that hold the pieces of `bytes`, or are lost. -/
def Backs (blocks : Uuid → Option (List UInt8)) :
    List BackingBlock → List UInt8 → Prop
  | [], bytes => bytes = []
  | block :: rest, bytes => ∃ front back, bytes = front ++ back ∧
      (blocks block.id = none ∨ blocks block.id = some front) ∧
        Backs blocks rest back

theorem Backs.of_contents {blocks : Uuid → Option (List UInt8)}
    {list : List BackingBlock} {bytes : List UInt8}
    (held : contents blocks list = some bytes) : Backs blocks list bytes := by
  induction list generalizing bytes with
  | nil =>
      cases held
      rfl
  | cons block rest ih =>
      simp only [contents, Option.pure_def, Option.bind_eq_bind,
        Option.bind_eq_some_iff, Option.some.injEq] at held
      obtain ⟨front, found, back, held, rfl⟩ := held
      exact ⟨front, back, rfl, .inr found, ih held⟩

theorem Backs.fewer {blocks blocks' : Uuid → Option (List UInt8)}
    {list : List BackingBlock} {bytes : List UInt8}
    (backs : Backs blocks list bytes) (fewer : ∀ block ∈ list,
      blocks' block.id = none ∨ blocks' block.id = blocks block.id) :
    Backs blocks' list bytes := by
  induction list generalizing bytes with
  | nil => exact backs
  | cons block rest ih =>
      obtain ⟨front, back, rfl, held, backs⟩ := backs
      refine ⟨front, back, rfl, ?_, ih backs fun other member =>
        fewer other (List.mem_cons_of_mem _ member)⟩
      rcases fewer block List.mem_cons_self with lost | same
      · exact .inl lost
      · rwa [same]

structure Ages (store next : TensorStore) : Prop where
  count : store.count ≤ next.count
  drawn : store.drawn ≤ next.drawn
  blocks : ∀ id, id < store.drawn →
    next.blocks id = none ∨ next.blocks id = store.blocks id
  value : ∀ handle < store.count,
    (next.handles handle).value = (store.handles handle).value

namespace Ages

variable {store next final : TensorStore}

theorem refl (store : TensorStore) : Ages store store :=
  ⟨Nat.le_refl _, Nat.le_refl _, fun _ _ => .inr rfl, fun _ _ => rfl⟩

theorem trans (early : Ages store next) (late : Ages next final) :
    Ages store final where
  count := Nat.le_trans early.count late.count
  drawn := Nat.le_trans early.drawn late.drawn
  blocks id old := by
    rcases late.blocks id (Nat.lt_of_lt_of_le old early.drawn) with lost | same
    · exact .inl lost
    · rw [same]
      exact early.blocks id old
  value handle old := by
    rw [late.value handle (Nat.lt_of_lt_of_le old early.count),
      early.value handle old]

theorem backs (ages : Ages store next) {list : List BackingBlock}
    {bytes : List UInt8} (named : ∀ block ∈ list, block.id < store.drawn)
    (backs : Backs store.blocks list bytes) : Backs next.blocks list bytes :=
  backs.fewer fun block member => ages.blocks block.id (named block member)

theorem of_kept (kept : Kept store next) (drawn : store.drawn ≤ next.drawn)
    (blocks : ∀ id, id < store.drawn →
      next.blocks id = none ∨ next.blocks id = store.blocks id) :
    Ages store next :=
  ⟨Nat.le_of_eq kept.count.symm, drawn, blocks,
    fun handle _ => kept.value handle⟩

end Ages

structure TrueOf (blocks : Uuid → Option (List UInt8)) (drawn : Uuid)
    (entry : TensorHandle) : Prop where
  named : ∀ block ∈ entry.blocks, block.id < drawn
  sized : entry.size = entry.value.length
  warm : ∀ resident, entry.resident = some resident →
    resident = entry.value ∧ entry.blocks = []
  backed : entry.blocks = [] ∨ Backs blocks entry.blocks entry.value

structure Truthful (store : TensorStore) : Prop where
  fresh : store.Fresh
  handles : ∀ handle, TrueOf store.blocks store.drawn (store.handles handle)

namespace Truthful

variable {store next : TensorStore} {handle : Handle}

theorem older {blocks' : Uuid → Option (List UInt8)} {drawn' : Uuid}
    {entry : TensorHandle} (true_of : TrueOf store.blocks store.drawn entry)
    (drawn : store.drawn ≤ drawn') (fewer : ∀ id, id < store.drawn →
      blocks' id = none ∨ blocks' id = store.blocks id) :
    TrueOf blocks' drawn' entry where
  named block member := Nat.lt_of_lt_of_le (true_of.named block member) drawn
  sized := true_of.sized
  warm := true_of.warm
  backed := true_of.backed.imp id fun backs =>
    backs.fewer fun block member => fewer block.id (true_of.named block member)

theorem replace (truthful : Truthful store) (handle : Handle)
    (entry : TensorHandle)
    (handles : next.handles = Function.update store.handles handle entry)
    (drawn : store.drawn ≤ next.drawn) (fewer : ∀ id, id < store.drawn →
      next.blocks id = none ∨ next.blocks id = store.blocks id)
    (fresh : next.Fresh) (here : TrueOf next.blocks next.drawn entry) :
    Truthful next where
  fresh := fresh
  handles other := by
    rw [handles]
    by_cases same : other = handle
    · subst same
      rw [Function.update_self]
      exact here
    · rw [Function.update_of_ne same]
      exact older (truthful.handles other) drawn fewer

theorem tinkered (truthful : Truthful store) (handle : Handle)
    (update : TensorHandle → TensorHandle)
    (blocks : ∀ entry, (update entry).blocks = entry.blocks)
    (size : ∀ entry, (update entry).size = entry.size)
    (value : ∀ entry, (update entry).value = entry.value)
    (resident : ∀ entry, (update entry).resident = entry.resident) :
    Truthful (store.altered handle update) := by
  refine truthful.replace handle _ rfl (Nat.le_refl _) (fun _ _ => .inr rfl)
    truthful.fresh ?_
  obtain ⟨named, sized, warm, backed⟩ := truthful.handles handle
  constructor
  · rwa [blocks]
  · rwa [size, value]
  · rwa [resident, value, blocks]
  · rwa [blocks, value]

theorem beside (truthful : Truthful store) (beside : Beside store next) :
    Truthful next := by
  refine ⟨fun id undrawn => ?_, fun handle => ?_⟩
  · rw [beside.blocks]
    exact truthful.fresh id (beside.drawn ▸ undrawn)
  · rw [beside.handles, beside.blocks, beside.drawn]
    exact truthful.handles handle

end Truthful

theorem Beside.ages {store next : TensorStore} (beside : Beside store next) :
    Ages store next :=
  .of_kept beside.kept (Nat.le_of_eq beside.drawn.symm) fun id _ =>
    .inr (by rw [beside.blocks])

section

variable {κ : Type} {settings : StoreSettings κ} {world : World}
  {handle : Handle}

/-- The copy of a resident tensor is written, or the tensor stays where it
is. -/
theorem spill_writes_truthful (truthful : Truthful world.store)
    {resident : List UInt8}
    (warm : (world.store.handles handle).resident = some resident) :
    (tryCatch (writeBacking settings resident handle) fun failure => do
      change handle ({ · with dirty := false })
      throw failure : Storing (List BackingBlock)).Leads
        { world with store := world.store.marked handle }
        fun result next => match result with
          | .ok new =>
              Wrote handle new resident (world.store.marked handle) next.store
          | .error _ => Truthful next.store ∧ Ages world.store next.store := by
  obtain ⟨rfl, bare⟩ := (truthful.handles handle).warm resident warm
  have bare' : ((world.store.marked handle).handles handle).blocks = [] := by
    simp [marked, altered, bare]
  have fresh : (world.store.marked handle).Fresh := truthful.fresh
  refine (writePieces_spec fresh (by simp [bare']) (Wrote.nil _)
    (Slice.pieces settings.blockBytes _)).rescue ?_ ?_
  · intro new next given
    obtain ⟨_, wrote⟩ := given
    rw [List.nil_append, Slice.flatten_pieces settings.positive] at wrote
    exact wrote
  · intro failure next given
    obtain ⟨_, left⟩ := given
    refine leads_change_bind.mpr (leads_throw.mpr ?_)
    have stored := left.stored
    have kept : Kept world.store next.store := by
      refine .of_update handle
        { world.store.handles handle with dirty := true } ?_ rfl ?_ ?_
      · rw [stored]
        rfl
      · rw [stored]
        rfl
      · rw [stored]
        rfl
    have ages : Ages world.store next.store :=
      .of_kept kept left.ordered fun id old => .inr (left.old id old)
    refine ⟨?_, ages.trans (.of_kept (.of_update handle _ rfl rfl rfl rfl)
      (Nat.le_refl _) fun _ _ => .inr rfl)⟩
    refine truthful.replace handle
      { world.store.handles handle with dirty := false } ?_ left.ordered
        (fun id old => .inr (left.old id old)) left.fresh ?_
    · rw [stored]
      simp [marked, altered]
    · obtain ⟨_, sized, hot, _⟩ := truthful.handles handle
      exact ⟨by simp [bare], sized, hot, .inl bare⟩

theorem spill_truthful (truthful : Truthful world.store) :
    (spill settings handle).Leads world fun _ next =>
      Truthful next.store ∧ Ages world.store next.store := by
  refine leads_entry_bind.mpr ?_
  cases warm : (world.store.handles handle).resident with
  | none => exact leads_pure.mpr ⟨truthful, Ages.refl _⟩
  | some resident =>
      refine leads_change_bind.mpr ?_
      refine (spill_writes_truthful truthful warm).bind ?_ ?_
      · intro new next wrote
        refine leads_evict.mpr ?_
        obtain ⟨rfl, bare⟩ := (truthful.handles handle).warm resident warm
        have handles : next.store.handles = Function.update
            world.store.handles handle { world.store.handles handle with
              dirty := true
              blocks := new } := by
          rw [wrote.stored]
          simp [altered, TensorStore.marked, bare]
        have older (id : Uuid) (old : id < world.store.drawn) :
            next.store.blocks id = none ∨
              next.store.blocks id = world.store.blocks id :=
          .inr (wrote.others id (wrote.old old))
        refine ⟨truthful.replace handle
          { next.store.handles handle with
            transferCost := transferCost new (next.store.handles handle).size
            resident := none
            dirty := false } ?_ wrote.ordered older
              (wrote.fresh truthful.fresh) ⟨?_, ?_, (by intros; contradiction), ?_⟩, ?_⟩
        · simp [evicted, altered, handles]
        · simp only [handles, Function.update_self]
          exact fun block member => (wrote.named block member).2
        · simp only [handles, Function.update_self]
          exact (truthful.handles handle).sized
        · simp only [handles, Function.update_self]
          exact .inr (.of_contents wrote.held)
        · refine .of_kept (.of_update handle
            { next.store.handles handle with
              transferCost :=
                transferCost new (next.store.handles handle).size
              resident := none
              dirty := false } ?_ ?_ ?_ ?_) wrote.ordered older
          · simp [evicted, altered, handles]
          · simp [handles]
          · simp only [evicted, altered]
            rw [wrote.stored]
            rfl
          · simp only [evicted, altered]
            rw [wrote.stored]
            rfl
      · intro failure next here
        exact here

structure Onward (start : TensorStore) (world : World) : Prop where
  truthful : Truthful world.store
  ages : Ages start world.store
  spilled : Spilled start world.store

theorem Onward.refl (truthful : Truthful world.store) :
    Onward world.store world :=
  ⟨truthful, Ages.refl _, Spilled.refl _⟩

theorem Onward.evicting {start : TensorStore} :
    Evicting settings (Onward start) where
  quiet world next onward quiet := by
    obtain ⟨truthful, ages, spilled⟩ := onward
    rw [← quiet.1] at truthful ages spilled
    exact ⟨truthful, ages, spilled⟩
  spills world handle onward :=
    (Leads.and (spill_truthful onward.truthful)
      (spill_spilled handle world)).mono
      fun _ _ ⟨⟨truthful, ages⟩, spilled, _⟩ =>
        ⟨truthful, onward.ages.trans ages, onward.spilled.trans spilled⟩

end

section

variable {κ : Type} {settings : StoreSettings κ} {world : World}
  {handle : Handle}

structure Honest (store next : TensorStore) : Prop where
  truthful : Truthful next
  ages : Ages store next

namespace Honest

variable {store next final : TensorStore}

theorem refl (truthful : Truthful store) : Honest store store :=
  ⟨truthful, Ages.refl _⟩

theorem tinkered (honest : Honest store next) (handle : Handle)
    (update : TensorHandle → TensorHandle)
    (blocks : ∀ entry, (update entry).blocks = entry.blocks)
    (size : ∀ entry, (update entry).size = entry.size)
    (value : ∀ entry, (update entry).value = entry.value)
    (resident : ∀ entry, (update entry).resident = entry.resident) :
    Honest store (next.altered handle update) :=
  ⟨honest.truthful.tinkered handle update blocks size value resident,
    honest.ages.trans (.of_kept (.of_update handle _ rfl (value _) rfl rfl)
      (Nat.le_refl _) fun _ _ => .inr rfl)⟩

theorem beside (honest : Honest store next) (beside : Beside next final) :
    Honest store final :=
  ⟨honest.truthful.beside beside, honest.ages.trans beside.ages⟩

theorem undisturbed {store : TensorStore} {world next : World}
    (honest : Honest store world.store) (quiet : world.Undisturbed next) :
    Honest store next.store := by
  rw [quiet.1]
  exact honest

theorem bare (honest : Honest store next) (handle : Handle)
    (entry : TensorHandle)
    (handles : final.handles = Function.update next.handles handle entry)
    (count : final.count = next.count)
    (value : entry.value = (next.handles handle).value)
    (size : entry.size = (next.handles handle).size)
    (none_listed : entry.blocks = [])
    (warm : ∀ resident, entry.resident = some resident →
      resident = entry.value)
    (drawn : final.drawn = next.drawn) (fewer : ∀ id,
      final.blocks id = none ∨ final.blocks id = next.blocks id) :
    Honest store final := by
  have fresh : final.Fresh := by
    intro id undrawn
    rcases fewer id with lost | same
    · exact lost
    · rw [same]
      exact honest.truthful.fresh id (drawn ▸ undrawn)
  refine ⟨honest.truthful.replace handle _ handles (Nat.le_of_eq drawn.symm)
    (fun id _ => fewer id) fresh ⟨?_, ?_, fun resident here => ?_, ?_⟩,
    honest.ages.trans ⟨Nat.le_of_eq count.symm, Nat.le_of_eq drawn.symm,
      fun id _ => fewer id, fun other _ => ?_⟩⟩
  · simp [none_listed]
  · rw [size, value]
    exact (honest.truthful.handles handle).sized
  · exact ⟨warm resident here, none_listed⟩
  · exact .inl none_listed
  · rw [handles]
    by_cases same : other = handle
    · subst same
      rw [Function.update_self, value]
    · rw [Function.update_of_ne same]

end Honest

/-- The list of the blocks goes first, so that a request that fails leaves
none. -/
theorem Honest.dropped {store : TensorStore} {start next : World}
    (honest : Honest store world.store)
    (freed : Freed (start.store.handles handle).blocks { start with
      store := start.store.altered handle ({ · with blocks := [] }) } next)
    (others : ∀ other, other ≠ handle →
      start.store.handles other = world.store.handles other)
    (count : start.store.count = world.store.count)
    (blocks : start.store.blocks = world.store.blocks)
    (drawn : start.store.drawn = world.store.drawn)
    (value : (start.store.handles handle).value =
      (world.store.handles handle).value)
    (size : (start.store.handles handle).size =
      (world.store.handles handle).size)
    (warm : ∀ resident, (start.store.handles handle).resident = some resident →
      resident = (start.store.handles handle).value) :
    Honest store next.store ∧ (next.store.handles handle).blocks = [] := by
  have stored := freed.stored
  refine ⟨honest.bare handle
    { start.store.handles handle with blocks := [] } ?_ ?_ value size rfl
      warm ?_ ?_, ?_⟩
  · rw [stored]
    funext other
    by_cases same : other = handle
    · subst same
      simp [altered]
    · simp [altered, same, others other same]
  · rw [stored]
    exact count
  · rw [stored]
    exact drawn
  · rw [← blocks]
    exact freed.fewer
  · rw [stored]
    simp [altered]

theorem free_honest (truthful : Truthful world.store) :
    (free handle).Leads world fun _ next => Honest world.store next.store := by
  have start := Honest.refl truthful
  refine leads_get_bind.mpr ?_
  split
  · have freeing {next : World} (freed : Freed
        (world.store.handles handle).blocks { world with
          store := world.store.altered handle ({ · with blocks := [] }) }
        next) := start.dropped freed (fun _ _ => rfl) rfl rfl rfl rfl rfl
      fun resident here => ((truthful.handles handle).warm resident here).1
    refine (dropBlocks_spec world handle).bind ?_ ?_
    · intro _ next given
      obtain ⟨_, freed⟩ := given
      obtain ⟨honest, bare⟩ := freeing freed
      refine leads_entry_bind.mpr ?_
      simp only
      split
      · refine leads_change_bind.mpr (leads_changeStore_bind.mpr
          (leads_changeStore.mpr ?_))
        exact honest.bare handle
          { next.store.handles handle with resident := none } rfl rfl rfl
            rfl bare nofun rfl fun _ => .inr rfl
      · refine leads_changeStore.mpr ?_
        exact honest.bare handle _
          (Function.update_eq_self ..).symm rfl rfl rfl bare
          (fun resident here =>
            ((honest.truthful.handles handle).warm resident here).1)
          rfl fun _ => .inr rfl
    · intro failure next given
      obtain ⟨_, freed⟩ := given
      exact (freeing freed).1
  · exact leads_pure.mpr start

end

section

variable {κ : Type} {settings : StoreSettings κ} {world : World}
  {handle : Handle}

theorem Onward.honest {start : TensorStore} (onward : Onward start world) :
    Honest start world.store :=
  ⟨onward.truthful, onward.ages⟩

theorem Honest.trans {store next final : TensorStore}
    (early : Honest store next) (late : Honest next final) :
    Honest store final :=
  ⟨late.truthful, early.ages.trans late.ages⟩

structure Blank (handle : Handle) (bytes : List UInt8) (store : TensorStore) :
    Prop where
  truthful : Truthful store
  made : handle < store.count
  cold : (store.handles handle).resident = none
  bare : (store.handles handle).blocks = []
  valued : (store.handles handle).value = bytes

theorem register_honest (truthful : Truthful world.store) (tensor : Tensor)
    (expectedNextUse : Option NextUse) (remainingConsumers : Int) :
    (register tensor expectedNextUse remainingConsumers).Leads world
      fun result next => Honest world.store next.store ∧
        ∀ handle, result = .ok handle →
          Blank handle tensor.bytes next.store := by
  refine leads_get_bind.mpr (leads_changeStore_bind.mpr (leads_pure.mpr ?_))
  have registered : Truthful { world.store with
      handles := Function.update world.store.handles world.store.count {
        value := tensor.bytes
        size := tensor.bytes.length
        device := tensor.device
        expectedNextUse := expectedNextUse
        dirty := true
        remainingConsumers := remainingConsumers
        accessIndex := world.store.accessIndex }
      count := world.store.count + 1
      tensors := world.store.tensors ++ [world.store.count] } :=
    truthful.replace _ _ rfl (Nat.le_refl _) (fun _ _ => .inr rfl) truthful.fresh
      ⟨nofun, rfl, nofun, .inl rfl⟩
  refine ⟨⟨registered, Nat.le_succ _, Nat.le_refl _, fun _ _ => .inr rfl,
    fun handle old => ?_⟩, ?_⟩
  · simp [Nat.ne_of_lt old]
  · intro handle made
    cases made
    exact ⟨registered, Nat.lt_succ_self _, by simp, by simp, by simp⟩

theorem Blank.written {start : TensorStore} {bytes : List UInt8}
    (blank : Blank handle bytes start) (onward : Onward start world)
    (cost : List BackingBlock → TensorHandle → Nat) :
    (do
      let blocks ← writeBacking settings bytes handle
      change handle fun entry => { entry with
        dirty := false
        transferCost := cost blocks entry } : Storing Unit).Leads world
          fun _ next => Honest start next.store := by
  have entry : world.store.handles handle = start.handles handle :=
    onward.spilled.cold handle blank.cold
  have below : ∀ block ∈ (world.store.handles handle).blocks,
      block.id < world.store.drawn := by
    simp [entry, blank.bare]
  refine (writePieces_spec onward.truthful.fresh below (Wrote.nil _)
    (Slice.pieces settings.blockBytes bytes)).bind ?_ ?_
  · intro new next given
    obtain ⟨_, wrote⟩ := given
    rw [List.nil_append, Slice.flatten_pieces settings.positive] at wrote
    have older (id : Uuid) (old : id < world.store.drawn) :
        next.store.blocks id = none ∨
          next.store.blocks id = world.store.blocks id :=
      .inr (wrote.others id (wrote.old old))
    have handles : next.store.handles = Function.update world.store.handles
        handle { world.store.handles handle with blocks := new } := by
      rw [wrote.stored]
      simp [altered, entry, blank.bare]
    have truthful : Truthful next.store := by
      refine onward.truthful.replace handle _ handles wrote.ordered older
        (wrote.fresh onward.truthful.fresh)
        ⟨fun block member => (wrote.named block member).2,
          (onward.truthful.handles handle).sized, ?_, .inr ?_⟩
      · simp [entry, blank.cold]
      · simp only [entry, blank.valued]
        exact .of_contents wrote.held
    have ages : Ages world.store next.store :=
      .of_kept wrote.kept wrote.ordered older
    refine leads_change.mpr ?_
    exact (onward.honest.trans ⟨truthful, ages⟩).tinkered handle
      (fun entry => { entry with
        dirty := false
        transferCost := cost new entry })
      (fun _ => rfl) (fun _ => rfl) (fun _ => rfl) fun _ => rfl
  · intro failure next given
    obtain ⟨_, left⟩ := given
    have kept : Kept world.store next.store := by
      rw [left.stored]
      exact ⟨rfl, rfl, fun _ => rfl⟩
    have ages : Ages world.store next.store :=
      .of_kept kept left.ordered fun id old => .inr (left.old id old)
    refine onward.honest.trans ⟨⟨left.fresh, fun other => ?_⟩, ages⟩
    have same : next.store.handles other = world.store.handles other := by
      rw [left.stored]
      rfl
    rw [same]
    exact Truthful.older (onward.truthful.handles other) left.ordered
      fun id old => .inr (left.old id old)

variable [LinearOrder κ]

theorem upload_honest {tensor : Tensor}
    (blank : Blank handle tensor.bytes world.store) (allowVram : Bool) :
    (upload settings tensor allowVram handle).Leads world
      fun _ next => Honest world.store next.store := by
  have start : Onward world.store world := .refl blank.truthful
  unfold upload
  cases allowVram with
  | false => exact blank.written start _
  | true =>
      refine (Onward.evicting.tryRetain start tensor.bytes handle).bind ?_ ?_
      · intro retained next here
        cases retained with
        | false => exact blank.written here _
        | true =>
            obtain ⟨middle, onward, stored⟩ := here
            have entry : middle.handles handle = world.store.handles handle :=
              onward.spilled.cold handle blank.cold
            simp only [↓reduceIte]
            refine leads_change.mpr ?_
            refine onward.honest.bare handle
              { middle.handles handle with
                resident := some tensor.bytes
                dirty := false } ?_ ?_ rfl rfl ?_ ?_ ?_ ?_
            · simp [stored, altered]
            · simp [stored, altered]
            · simp [entry, blank.bare]
            · simp [entry, blank.valued]
            · simp [stored, altered]
            · simp [stored, altered]
      · intro failure next here
        exact here.honest

theorem offload_honest (truthful : Truthful world.store) (tensor : Tensor)
    (expectedNextUse : Option NextUse) (remainingConsumers : Int)
    (allowVram : Bool) :
    (offload settings tensor expectedNextUse remainingConsumers
      allowVram).Leads world fun result next =>
        Honest world.store next.store ∧ ∀ handle, result = .ok handle →
          handle < next.store.count ∧
            (next.store.handles handle).value = tensor.bytes := by
  have start := Honest.refl truthful
  refine (call_undisturbed world).bind ?_ ?_
  · intro _ ready quiet
    have here := start.undisturbed quiet
    split
    · refine (requireCuda_beside settings tensor.device ready).bind ?_ ?_
      · intro _ next given
        obtain ⟨_, beside⟩ := given
        have here := here.beside beside
        refine (register_honest here.truthful tensor expectedNextUse
          remainingConsumers).bind ?_ ?_
        · intro handle made given
          obtain ⟨new, blank⟩ := given
          have blank := blank handle rfl
          refine Leads.across (fun _ (final : World) =>
            Honest made.store final.store) ?_ ?_ ?_
          · refine (upload_honest blank allowVram).rescue
              (fun _ _ here => here) ?_
            intro failure failing uploaded
            refine Leads.bind (suppress_spec
              (free_honest uploaded.truthful)) ?_ ?_
            · intro _ final given
              obtain ⟨_, freed⟩ := given
              exact leads_throw.mpr (uploaded.trans freed)
            · intro _ final given
              obtain ⟨_, freed⟩ := given
              exact uploaded.trans freed
          · intro _ final uploaded
            refine leads_pure.mpr ⟨(here.trans new).trans uploaded, ?_⟩
            intro handle same
            cases same
            refine ⟨Nat.lt_of_lt_of_le blank.made uploaded.ages.count, ?_⟩
            rw [uploaded.ages.value _ blank.made, blank.valued]
          · intro failure final uploaded
            exact ⟨(here.trans new).trans uploaded, nofun⟩
        · intro failure made given
          obtain ⟨new, _⟩ := given
          exact ⟨here.trans new, nofun⟩
      · intro failure next given
        obtain ⟨_, beside⟩ := given
        exact ⟨here.beside beside, nofun⟩
    · exact leads_throw.mpr ⟨here, nofun⟩
  · intro failure next quiet
    exact ⟨start.undisturbed quiet, nofun⟩

end

end TensorStore

end TrainPool
