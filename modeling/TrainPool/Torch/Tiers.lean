import Mathlib.Algebra.BigOperators.Group.Finset.Piecewise
import TrainPool.Library.Execution
import TrainPool.Library.Holdings
import TrainPool.Torch.Evictions

namespace TrainPool

/-! Every tensor is on one tier: on the GPU, or backed by blocks. -/

namespace TensorHandle

def residentSize (entry : TensorHandle) : Int :=
  if entry.resident.isSome then entry.size else 0

def owned (entry : TensorHandle) : List Uuid := entry.blocks.map (·.id)

end TensorHandle

namespace TensorStore

open Failing World

/-- A resident copy and no blocks, or blocks with the value and no resident
copy. -/
def Exclusive (blocks : Uuid → Option (List UInt8)) (entry : TensorHandle) :
    Prop :=
  entry.resident = some entry.value ∧ entry.blocks = [] ∨
    entry.resident = none ∧ contents blocks entry.blocks = some entry.value

def Settled (store : TensorStore) (handle : Handle) : Prop :=
  (store.handles handle).dirty = false ∧
    Exclusive store.blocks (store.handles handle)

/-- The books of a store in which only the tensors of `busy` may be on their
way from one tier to another. -/
structure Sound (busy : Set Handle) (store : TensorStore) : Prop where
  holdings : Holdings (fun handle => (store.handles handle).owned)
    (fun id => (store.blocks id).isSome = true) store.drawn
  blank : ∀ handle, store.count ≤ handle → store.handles handle = {}
  nodup : store.tensors.Nodup
  known : ∀ handle ∈ store.tensors, handle < store.count
  sized : ∀ handle, (store.handles handle).size =
    (store.handles handle).value.length
  counted : store.residentBytes = ∑ handle ∈ Finset.range store.count,
    (store.handles handle).residentSize
  settled : ∀ handle ∈ store.tensors, handle ∉ busy → store.Settled handle

namespace Sound

variable {busy : Set Handle} {store next : TensorStore} {handle : Handle}

theorem fresh (sound : Sound busy store) : store.Fresh := by
  intro id undrawn
  by_contra present
  have below := sound.holdings.below id
    (Option.isSome_iff_ne_none.mpr present)
  exact Nat.not_le_of_lt below undrawn

theorem below (sound : Sound busy store) :
    ∀ block ∈ (store.handles handle).blocks, block.id < store.drawn :=
  fun _ member => sound.holdings.held_below handle
    (List.mem_map_of_mem member)

theorem others (sound : Sound busy store) {other : Handle}
    (differ : other ≠ handle) :
    ∀ block ∈ (store.handles other).blocks,
      block.id ∉ (store.handles handle).owned := by
  intro block member mine
  exact differ (sound.holdings.apart other handle block.id
    (List.mem_map_of_mem member) mine)

theorem settle (sound : Sound (insert handle busy) store)
    (settled : handle ∈ store.tensors → handle ∉ busy →
      store.Settled handle) : Sound busy store :=
  { sound with
    settled := by
      intro other member free
      by_cases same : other = handle
      · subst same
        exact settled member free
      · exact sound.settled other member (by simp [same, free]) }

theorem raise (sound : Sound busy store) {drawn : Uuid}
    (ordered : store.drawn ≤ drawn) :
    Sound busy (store.stocked drawn store.blocks) where
  holdings := sound.holdings.raise ordered
  blank := sound.blank
  nodup := sound.nodup
  known := sound.known
  sized := sound.sized
  counted := sound.counted
  settled := sound.settled

theorem sum_update (handles : Handle → TensorHandle) {count : Handle}
    (made : handle < count) (entry : TensorHandle) :
    ∑ other ∈ Finset.range count,
        (Function.update handles handle entry other).residentSize =
      (∑ other ∈ Finset.range count, (handles other).residentSize) -
        (handles handle).residentSize + entry.residentSize := by
  have member : handle ∈ Finset.range count := Finset.mem_range.mpr made
  have moved : (fun other =>
      (Function.update handles handle entry other).residentSize) =
        Function.update (fun other => (handles other).residentSize) handle
          entry.residentSize := by
    funext other
    by_cases here : other = handle
    · subst here
      rw [Function.update_self, Function.update_self]
    · rw [Function.update_of_ne here, Function.update_of_ne here]
  have split := Finset.add_sum_erase (Finset.range count)
    (fun other => (handles other).residentSize) member
  rw [moved, Finset.sum_update_of_mem member,
    Finset.sdiff_singleton_eq_erase, ← split]
  ring

theorem replace (sound : Sound busy store) (made : handle < store.count)
    (entry : TensorHandle)
    (handles : next.handles = Function.update store.handles handle entry)
    (count : next.count = store.count)
    (tensors : next.tensors = store.tensors)
    (sized : entry.size = entry.value.length)
    (counted : next.residentBytes = store.residentBytes -
      (store.handles handle).residentSize + entry.residentSize)
    (kept : ∀ id, id < store.drawn → id ∉ (store.handles handle).owned →
      next.blocks id = store.blocks id)
    (holdings : Holdings (Function.update
      (fun other => (store.handles other).owned) handle entry.owned)
      (fun id => (next.blocks id).isSome = true) next.drawn) :
    Sound (insert handle busy) next := by
  have elsewhere {other : Handle} (differ : other ≠ handle) :
      next.handles other = store.handles other := by
    rw [handles, Function.update_of_ne differ]
  constructor
  case holdings =>
    have same : (fun other => (next.handles other).owned) =
        Function.update (fun other => (store.handles other).owned) handle
          entry.owned := by
      funext other
      by_cases here : other = handle
      · subst here
        rw [handles, Function.update_self, Function.update_self]
      · rw [elsewhere here, Function.update_of_ne here]
    rwa [same]
  case blank =>
    intro other unmade
    rw [count] at unmade
    rw [elsewhere (Nat.ne_of_gt (Nat.lt_of_lt_of_le made unmade))]
    exact sound.blank other unmade
  case nodup =>
    rw [tensors]
    exact sound.nodup
  case known =>
    rw [tensors, count]
    exact sound.known
  case sized =>
    intro other
    by_cases here : other = handle
    · subst here
      rw [handles, Function.update_self, sized]
    · rw [elsewhere here]
      exact sound.sized other
  case counted =>
    rw [count, handles, sum_update store.handles made, counted,
      sound.counted]
  case settled =>
    intro other member free
    rw [tensors] at member
    have differ : other ≠ handle := fun same => free (by simp [same])
    obtain ⟨clean, tier⟩ := sound.settled other member fun mine =>
      free (by simp [mine])
    rw [Settled, elsewhere differ]
    refine ⟨clean, ?_⟩
    rw [Exclusive, contents_congr fun block member =>
      kept block.id (sound.below block member)
        (sound.others differ block member)]
    exact tier

theorem retier (sound : Sound busy store) (made : handle < store.count)
    (update : TensorHandle → TensorHandle) (bytes : Int)
    (blocks : ∀ entry, (update entry).blocks = entry.blocks)
    (size : ∀ entry, (update entry).size = entry.size)
    (value : ∀ entry, (update entry).value = entry.value)
    (counted : bytes = store.residentBytes -
      (store.handles handle).residentSize +
        (update (store.handles handle)).residentSize) :
    Sound (insert handle busy)
      { store.altered handle update with residentBytes := bytes } := by
  have owned : (update (store.handles handle)).owned =
      (store.handles handle).owned := by
    rw [TensorHandle.owned, blocks]
    rfl
  refine sound.replace made _ rfl rfl rfl ?_ counted (fun _ _ _ => rfl) ?_
  · rw [size, value]
    exact sound.sized handle
  · rw [owned, Function.update_eq_self]
    exact sound.holdings

theorem touched (sound : Sound busy store) (made : handle < store.count)
    (update : TensorHandle → TensorHandle)
    (blocks : ∀ entry, (update entry).blocks = entry.blocks)
    (size : ∀ entry, (update entry).size = entry.size)
    (value : ∀ entry, (update entry).value = entry.value)
    (resident : ∀ entry, (update entry).resident = entry.resident) :
    Sound (insert handle busy) (store.altered handle update) := by
  refine sound.retier made update _ blocks size value ?_
  rw [TensorHandle.residentSize, TensorHandle.residentSize, resident, size]
  ring

theorem wrote (sound : Sound busy store) (made : handle < store.count)
    {new : List BackingBlock} {bytes : List UInt8}
    (wrote : Wrote handle new bytes store next) :
    Sound (insert handle busy) next := by
  have stored := wrote.stored
  refine sound.replace made { store.handles handle with
    blocks := (store.handles handle).blocks ++ new } ?_ ?_ ?_
    (sound.sized handle) ?_ ?_ ?_
  · rw [stored]
    rfl
  · rw [stored]
    rfl
  · rw [stored]
    rfl
  · rw [stored]
    simp [TensorHandle.residentSize, altered, stocked]
  · intro id old _
    exact wrote.others id (wrote.old old)
  · have after (key : Uuid) : (next.blocks key).isSome = true ↔
        (store.blocks key).isSome = true ∨ key ∈ new.map (·.id) := by
      by_cases member : key ∈ new.map (·.id)
      · obtain ⟨block, listed, rfl⟩ := List.mem_map.mp member
        simp [isSome_of_contents wrote.held block listed, member]
      · rw [wrote.others key member]
        simp [member]
    have between : ∀ key ∈ new.map (·.id),
        store.drawn ≤ key ∧ key < next.drawn := by
      intro key member
      obtain ⟨block, listed, rfl⟩ := List.mem_map.mp member
      exact wrote.named block listed
    have owned : TensorHandle.owned { store.handles handle with
        blocks := (store.handles handle).blocks ++ new } =
          (store.handles handle).owned ++ new.map (·.id) :=
      List.map_append
    rw [owned]
    exact sound.holdings.grow handle wrote.ordered wrote.nodup between after

theorem dropped (sound : Sound busy store) (made : handle < store.count)
    {world final : World} (stored : world.store =
      store.altered handle ({ · with blocks := [] }))
    (freed : Freed (store.handles handle).blocks world final)
    (frees : world.Frees) : Sound (insert handle busy) final.store := by
  have left : final.store = (store.altered handle
      ({ · with blocks := [] })).stocked store.drawn final.store.blocks := by
    conv_lhs => rw [freed.stored, stored]
    rfl
  have others (id : Uuid) (member : id ∉ (store.handles handle).owned) :
      final.store.blocks id = store.blocks id := by
    rw [freed.others id member, stored]
    rfl
  refine sound.replace made
    { store.handles handle with blocks := [] } ?_ ?_ ?_
    (sound.sized handle) ?_ (fun id _ => others id) ?_
  · rw [left]
    rfl
  · rw [left]
    rfl
  · rw [left]
    rfl
  · rw [left]
    simp [TensorHandle.residentSize, altered, stocked]
  · have after (key : Uuid) : (final.store.blocks key).isSome = true ↔
        (store.blocks key).isSome = true ∧
          key ∉ (store.handles handle).owned := by
      by_cases member : key ∈ (store.handles handle).owned
      · simp [freed.gone frees key member, member]
      · simp [others key member, member]
    have drawn : final.store.drawn = store.drawn := by
      rw [left]
      rfl
    rw [drawn]
    exact sound.holdings.drop handle after

end Sound

/-! Evictions. -/

structure Between (busy : Set Handle) (start : TensorStore) (world : World) :
    Prop where
  frees : world.Frees
  sound : Sound busy world.store
  spilled : Spilled start world.store

section

variable {κ : Type} {settings : StoreSettings κ}
  {busy : Set Handle} {start : TensorStore} {world : World} {handle : Handle}

theorem Between.refl (frees : world.Frees) (sound : Sound busy world.store) :
    Between busy world.store world :=
  ⟨frees, sound, Spilled.refl _⟩

theorem Between.undisturbed (between : Between busy start world)
    {next : World} (quiet : world.Undisturbed next) :
    Between busy start next := by
  refine ⟨quiet.2 between.frees, ?_, ?_⟩
  · rw [quiet.1]
    exact between.sound
  · rw [quiet.1]
    exact between.spilled

theorem Sound.resident_only (sound : Sound busy world.store)
    (member : handle ∈ world.store.tensors) (free : handle ∉ busy)
    {resident : List UInt8}
    (warm : (world.store.handles handle).resident = some resident) :
    resident = (world.store.handles handle).value ∧
      (world.store.handles handle).blocks = [] := by
  obtain ⟨_, here | there⟩ := sound.settled handle member free
  · rw [warm] at here
    exact ⟨Option.some.inj here.1, here.2⟩
  · rw [warm] at there
    cases there.1

theorem Sound.marked (sound : Sound busy world.store)
    (made : handle < world.store.count) :
    Sound (insert handle busy) (world.store.marked handle) :=
  sound.touched made ({ · with dirty := true }) (fun _ => rfl)
    (fun _ => rfl) (fun _ => rfl) fun _ => rfl

/-- The copy of a resident tensor is written, or the tensor stays where it
is. -/
theorem spill_writes (between : Between busy start world)
    (made : handle < world.store.count) {resident : List UInt8}
    (warm : (world.store.handles handle).resident = some resident) :
    (tryCatch (writeBacking settings resident handle) fun failure => do
      change handle ({ · with dirty := false })
      throw failure : Storing (List BackingBlock)).Leads
        { world with store := world.store.marked handle }
        fun result next => next.Frees ∧ match result with
          | .ok new =>
              Wrote handle new resident (world.store.marked handle) next.store
          | .error _ => Between busy start next := by
  have marked := between.sound.marked made
  refine (writePieces_spec marked.fresh marked.below (Wrote.nil _)
    (Slice.pieces settings.blockBytes resident)).rescue ?_ ?_
  · intro new next given
    obtain ⟨frees, wrote⟩ := given
    rw [List.nil_append, Slice.flatten_pieces settings.positive] at wrote
    exact ⟨frees between.frees, wrote⟩
  · intro failure next given
    obtain ⟨frees, left⟩ := given
    refine leads_change_bind.mpr (leads_throw.mpr ?_)
    have final : next.store.altered handle ({ · with dirty := false }) =
        (world.store.stocked next.store.drawn world.store.blocks).altered
          handle ({ · with dirty := false }) := by
      conv_lhs => rw [left.stored, left.undone between.frees]
      simp [altered, stocked, TensorStore.marked]
    rw [final]
    refine ⟨frees between.frees, frees between.frees, ?_, ?_⟩
    · have raised := between.sound.raise left.ordered
      refine (raised.touched made ({ · with dirty := false })
        (fun _ => rfl) (fun _ => rfl) (fun _ => rfl) fun _ => rfl).settle ?_
      intro member free
      obtain ⟨rfl, bare⟩ := between.sound.resident_only member free warm
      refine ⟨?_, .inl ⟨?_, ?_⟩⟩
      · simp [altered]
      · simp [altered, warm]
      · simp [altered, bare]
    · exact between.spilled.trans
        (.of_update (by simp [warm]) _ rfl rfl rfl rfl)

theorem Between.evict (between : Between busy start world)
    (made : handle < world.store.count) {resident : List UInt8}
    (warm : (world.store.handles handle).resident = some resident)
    {new : List BackingBlock} {next : World} (frees : next.Frees)
    (wrote : Wrote handle new resident (world.store.marked handle)
      next.store) :
    Between busy start
      { next with store := next.store.evicted handle new } := by
  have handles : next.store.handles = Function.update world.store.handles
      handle { world.store.handles handle with
        dirty := true
        blocks := (world.store.handles handle).blocks ++ new } := by
    rw [wrote.stored]
    simp [altered, TensorStore.marked]
  have entry : next.store.handles handle =
      { world.store.handles handle with
        dirty := true
        blocks := (world.store.handles handle).blocks ++ new } := by
    rw [handles, Function.update_self]
  have made' : handle < next.store.count := by
    rw [wrote.stored]
    exact made
  refine ⟨frees, ?_, between.spilled.trans ?_⟩
  · have moved := ((between.sound.marked made).wrote made wrote).retier made'
      (fun entry => { entry with
        transferCost := transferCost new entry.size
        resident := none
        dirty := false })
      (next.store.residentBytes +
        -((next.store.handles handle).size : Int))
      (fun _ => rfl) (fun _ => rfl) (fun _ => rfl)
      (by simp [TensorHandle.residentSize, entry, warm]; ring)
    rw [Set.insert_idem, Set.insert_idem] at moved
    refine moved.settle ?_
    intro member free
    have member' : handle ∈ world.store.tensors := by
      rw [wrote.stored] at member
      exact member
    obtain ⟨rfl, bare⟩ := between.sound.resident_only member' free warm
    refine ⟨?_, .inr ⟨?_, ?_⟩⟩
    · simp [altered]
    · simp [altered]
    · simp [altered, entry, bare, wrote.held]
  · have hot : (world.store.handles handle).resident ≠ none := by simp [warm]
    refine .of_update hot { next.store.handles handle with
      transferCost := transferCost new (next.store.handles handle).size
      resident := none
      dirty := false } ?_ ?_ ?_ ?_
    · simp [evicted, altered, handles]
    · simp [entry]
    · rw [wrote.stored]
      rfl
    · rw [wrote.stored]
      rfl

theorem Between.evicting : Evicting settings (Between busy start) where
  quiet _ _ between quiet := between.undisturbed quiet
  spills := by
    intro world handle between
    refine leads_entry_bind.mpr ?_
    cases warm : (world.store.handles handle).resident with
    | none => exact leads_pure.mpr between
    | some resident =>
        have made : handle < world.store.count := by
          by_contra unmade
          rw [between.sound.blank handle (Nat.le_of_not_lt unmade)] at warm
          cases warm
        refine leads_change_bind.mpr ?_
        refine (spill_writes between made warm).bind ?_ ?_
        · intro new next given
          obtain ⟨frees, wrote⟩ := given
          exact leads_evict.mpr (between.evict made warm frees wrote)
        · intro failure next given
          obtain ⟨_, kept⟩ := given
          exact kept

def retained (store : TensorStore) (handle : Handle) (value : List UInt8) :
    TensorStore :=
  { store.altered handle ({ · with resident := some value }) with
    residentBytes := store.residentBytes + (store.handles handle).size }

end

end TensorStore

end TrainPool
