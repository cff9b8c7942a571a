import TrainPool.Torch.TensorStore

namespace TrainPool

/-! What writing and freeing the blocks of a tensor leaves at the daemons. -/

/-- The daemons free every block they are asked to free. -/
def Surroundings.Frees (surroundings : Surroundings) : Prop :=
  ∀ release ∈ surroundings.releases, release = .done

instance (surroundings : Surroundings) : Decidable surroundings.Frees :=
  inferInstanceAs (Decidable (∀ release ∈ surroundings.releases, _))

def World.Frees (world : World) : Prop := world.surroundings.Frees

def World.Undisturbed (world next : World) : Prop :=
  next.store = world.store ∧ (world.Frees → next.Frees)

namespace World.Undisturbed

theorem refl (world : World) : world.Undisturbed world :=
  ⟨rfl, id⟩

theorem trans {first second third : World}
    (early : first.Undisturbed second) (late : second.Undisturbed third) :
    first.Undisturbed third :=
  ⟨late.1.trans early.1, late.2 ∘ early.2⟩

end World.Undisturbed

namespace TensorStore

open Failing World

/-! Calls outside the store. -/

theorem call_undisturbed : call.Respects Undisturbed := by
  intro world
  unfold call
  simp only [leads_get_bind, leads_set_bind]
  split
  · exact ⟨rfl, id⟩
  · exact ⟨rfl, id⟩

theorem outOfMemory_undisturbed : outOfMemory.Respects Undisturbed :=
  fun _ => ⟨rfl, id⟩

theorem reading_undisturbed : reading.Respects Undisturbed :=
  fun _ => ⟨rfl, id⟩

theorem Quiet.bind {α β : Type} {first : Storing α} {second : α → Storing β}
    (early : first.Respects Undisturbed)
    (late : ∀ value, (second value).Respects Undisturbed) :
    (first >>= second).Respects Undisturbed :=
  Respects.bind Undisturbed.trans early late

theorem empty_undisturbed (size : Nat) :
    (empty size).Respects Undisturbed :=
  Quiet.bind call_undisturbed fun _ _ => ⟨rfl, id⟩

theorem length_empty (size : Nat) (world : World) :
    (empty size).Leads world fun result _ =>
      ∀ region, result = .ok region → region.length = size := by
  refine (call_undisturbed world).bind ?_ ?_
  · intro _ next _ region made
    cases made
    simp
    omega
  · intro failure next _ region made
    cases made

theorem readBlock_spec (block : BackingBlock) (world : World) :
    (readBlock block).Leads world fun result next =>
      world.Undisturbed next ∧ ∀ bytes, result = .ok bytes →
        world.store.blocks block.id = some bytes := by
  refine (call_undisturbed world).bind ?_ ?_
  · intro _ next quiet
    refine leads_get_bind.mpr ?_
    split
    · rename_i bytes found
      refine leads_pure.mpr ⟨quiet, fun other same => ?_⟩
      cases same
      rw [← quiet.1]
      exact found
    · exact leads_throw.mpr ⟨quiet, nofun⟩
  · intro failure next quiet
    exact ⟨quiet, nofun⟩

/-! Blocks. -/

/-- The bytes of blocks one after another, if all of them are there. -/
def contents (blocks : Uuid → Option (List UInt8)) :
    List BackingBlock → Option (List UInt8)
  | [] => some []
  | block :: rest => do
      let bytes ← blocks block.id
      let others ← contents blocks rest
      pure (bytes ++ others)

theorem contents_append {blocks : Uuid → Option (List UInt8)}
    {front back : List BackingBlock} {first second : List UInt8}
    (here : contents blocks front = some first)
    (there : contents blocks back = some second) :
    contents blocks (front ++ back) = some (first ++ second) := by
  induction front generalizing first with
  | nil =>
      cases here
      exact there
  | cons block rest ih =>
      simp only [contents, Option.pure_def, Option.bind_eq_bind,
        Option.bind_eq_some_iff, Option.some.injEq, List.cons_append]
        at here ⊢
      obtain ⟨bytes, found, others, held, rfl⟩ := here
      exact ⟨bytes, found, others ++ second, ih held, by simp⟩

theorem isSome_of_contents {blocks : Uuid → Option (List UInt8)}
    {list : List BackingBlock} {bytes : List UInt8}
    (held : contents blocks list = some bytes) :
    ∀ block ∈ list, (blocks block.id).isSome = true := by
  induction list generalizing bytes with
  | nil => exact fun _ absent => absurd absent List.not_mem_nil
  | cons first rest ih =>
      simp only [contents, Option.pure_def, Option.bind_eq_bind,
        Option.bind_eq_some_iff, Option.some.injEq] at held
      obtain ⟨here, found, others, held, rfl⟩ := held
      intro block member
      rcases List.mem_cons.mp member with rfl | later
      · rw [found]
        rfl
      · exact ih held block later

theorem contents_congr {blocks blocks' : Uuid → Option (List UInt8)}
    {list : List BackingBlock}
    (same : ∀ block ∈ list, blocks' block.id = blocks block.id) :
    contents blocks' list = contents blocks list := by
  induction list with
  | nil => rfl
  | cons block rest ih =>
      rw [contents, contents, same block List.mem_cons_self,
        ih fun other member => same other (List.mem_cons_of_mem _ member)]

/-- No block is there that is not drawn yet. -/
def Fresh (store : TensorStore) : Prop :=
  ∀ id, store.drawn ≤ id → store.blocks id = none

def stocked (store : TensorStore) (drawn : Uuid)
    (blocks : Uuid → Option (List UInt8)) : TensorStore :=
  { store with drawn := drawn, blocks := blocks }

section stocked

variable (store : TensorStore) (drawn : Uuid)
  (blocks : Uuid → Option (List UInt8))

@[simp] theorem stocked_drawn : (store.stocked drawn blocks).drawn = drawn :=
  rfl

@[simp] theorem stocked_blocks :
    (store.stocked drawn blocks).blocks = blocks :=
  rfl

@[simp] theorem stocked_handles :
    (store.stocked drawn blocks).handles = store.handles :=
  rfl

@[simp] theorem stocked_self :
    store.stocked store.drawn store.blocks = store :=
  rfl

@[simp] theorem stocked_stocked (drawn' : Uuid)
    (blocks' : Uuid → Option (List UInt8)) :
    (store.stocked drawn blocks).stocked drawn' blocks' =
      store.stocked drawn' blocks' :=
  rfl

end stocked

structure Freed (list : List BackingBlock) (world next : World) : Prop where
  stored : next.store =
    world.store.stocked world.store.drawn next.store.blocks
  others : ∀ id, id ∉ list.map (·.id) →
    next.store.blocks id = world.store.blocks id
  fewer : ∀ id, next.store.blocks id = none ∨
    next.store.blocks id = world.store.blocks id
  frees : world.Frees → next.Frees
  gone : world.Frees → ∀ id ∈ list.map (·.id), next.store.blocks id = none

namespace Freed

theorem nil (world : World) : Freed [] world world where
  stored := rfl
  others _ _ := rfl
  fewer _ := .inr rfl
  frees := id
  gone _ _ absent := absurd absent List.not_mem_nil

theorem cons {block : BackingBlock} {rest : List BackingBlock}
    {world next final : World} (first : Freed [block] world next)
    (second : Freed rest next final) : Freed (block :: rest) world final where
  stored := by
    rw [second.stored, first.stored]
    rfl
  others id member := by
    rw [List.map_cons, List.mem_cons, not_or] at member
    rw [second.others id member.2, first.others id (by simp [member.1])]
  fewer id := by
    rcases second.fewer id with lost | kept
    · exact .inl lost
    · rw [kept]
      exact first.fewer id
  frees := second.frees ∘ first.frees
  gone frees id member := by
    rcases second.fewer id with lost | kept
    · exact lost
    · rw [List.map_cons, List.mem_cons] at member
      rcases member with rfl | later
      · rw [kept]
        exact first.gone frees _ (by simp)
      · exact second.gone (first.frees frees) id later

end Freed

theorem freeBlock_spec (world : World) (block : BackingBlock) :
    (freeBlock block).Leads world fun result next =>
      Freed [block] world next ∧ (world.Frees → result = .ok ()) := by
  have rest (frees : world.Frees) :
      ∀ release ∈ world.surroundings.releases.tail, release = .done :=
    fun release member => frees release (List.mem_of_mem_tail member)
  have removed (surroundings : Surroundings)
      (kind : world.Frees → surroundings.Frees) :
      Freed [block] world { world with
        store := { world.store with
          blocks := Function.update world.store.blocks block.id none }
        surroundings := surroundings } := by
    constructor
    case stored => rfl
    case others =>
      intro id member
      exact Function.update_of_ne (by simpa using member) ..
    case fewer =>
      intro id
      by_cases same : id = block.id
      · subst same
        exact .inl (Function.update_self ..)
      · exact .inr (Function.update_of_ne same ..)
    case frees => exact kind
    case gone =>
      intro _ id member
      cases List.mem_singleton.mp member
      exact Function.update_self ..
  unfold freeBlock
  simp only [leads_get_bind, leads_set_bind]
  split
  · rename_i message found
    have broken (frees : world.Frees) : False := by
      cases frees _ (List.mem_of_mem_head? found)
    exact ⟨⟨rfl, fun _ _ => rfl, fun _ => .inr rfl, rest,
      fun frees => (broken frees).elim⟩, fun frees => (broken frees).elim⟩
  · rename_i message found
    have broken (frees : world.Frees) : False := by
      cases frees _ (List.mem_of_mem_head? found)
    exact ⟨removed _ rest, fun frees => (broken frees).elim⟩
  · exact ⟨removed _ rest, fun _ => rfl⟩

theorem suppress_spec {α : Type} {body : Storing α} {world : World}
    {post : World → Prop} (leads : body.Leads world fun _ next => post next) :
    (suppress body).Leads world fun result next =>
      result = .ok () ∧ post next := by
  have ran : (do let _ ← body; pure () : Storing Unit).Leads world
      fun _ next => post next :=
    leads.bind (fun _ _ here => here) fun _ _ here => here
  exact ran.rescue (fun _ _ here => ⟨rfl, here⟩) fun _ _ here => ⟨rfl, here⟩

theorem suppress_freeBlock (world : World) (block : BackingBlock) :
    (suppress (freeBlock block)).Leads world fun result next =>
      result = .ok () ∧ Freed [block] world next :=
  suppress_spec ((freeBlock_spec world block).mono fun _ _ here => here.1)

theorem suppress_freeBlocks (world : World) (list : List BackingBlock) :
    (each (fun block => suppress (freeBlock block)) list).Leads world
      fun result next => result = .ok () ∧ Freed list world next := by
  induction list generalizing world with
  | nil => exact ⟨rfl, Freed.nil world⟩
  | cons block rest ih =>
      refine (suppress_freeBlock world block).bind ?_ ?_
      · intro _ next given
        obtain ⟨_, first⟩ := given
        exact (ih next).mono fun _ _ ⟨ended, second⟩ =>
          ⟨ended, first.cons second⟩
      · intro failure next given
        obtain ⟨ended, _⟩ := given
        cases ended

theorem freeBlocks_spec (world : World) (list : List BackingBlock) :
    (each freeBlock list).Leads world fun result next =>
      Freed list world next ∧ (world.Frees → result = .ok ()) := by
  induction list generalizing world with
  | nil => exact ⟨Freed.nil world, fun _ => rfl⟩
  | cons block rest ih =>
      refine (freeBlock_spec world block).bind ?_ ?_
      · intro _ next given
        obtain ⟨first, _⟩ := given
        exact (ih next).mono fun _ _ ⟨second, ended⟩ =>
          ⟨first.cons second, ended ∘ first.frees⟩
      · intro failure next given
        obtain ⟨first, ended⟩ := given
        refine ⟨⟨first.stored, ?_, first.fewer, first.frees, ?_⟩, ?_⟩
        · intro id member
          rw [List.map_cons, List.mem_cons, not_or] at member
          exact first.others id (by simp [member.1])
        · exact fun frees => nomatch ended frees
        · exact fun frees => nomatch ended frees

theorem allocateBlock_spec (world : World) (size : Nat) :
    (allocateBlock size).Leads world fun result next =>
      (world.Frees → next.Frees) ∧ match result with
        | .ok block => block.id = world.store.drawn ∧ block.size = size ∧
            next.store = world.store.stocked (world.store.drawn + 1)
              (Function.update world.store.blocks world.store.drawn
                (some []))
        | .error _ => next.store = world.store := by
  refine (call_undisturbed world).bind ?_ ?_
  · intro _ next here
    simp only [leads_get_bind, leads_set_bind, leads_pure, here.1]
    exact ⟨here.2, trivial, trivial, rfl⟩
  · intro failure next here
    exact ⟨here.2, here.1⟩

theorem writeChunk_spec {world : World} {id : Uuid} {bytes : List UInt8}
    (there : world.store.blocks id = some bytes) (chunk : List UInt8) :
    (writeChunk id chunk).Leads world fun result next =>
      (world.Frees → next.Frees) ∧ match result with
        | .ok _ => next.store = world.store.stocked world.store.drawn
            (Function.update world.store.blocks id (some (bytes ++ chunk)))
        | .error _ => next.store = world.store := by
  refine (call_undisturbed world).bind ?_ ?_
  · intro _ next here
    refine leads_modify.mpr ⟨here.2, ?_⟩
    simp only [here.1, there]
    rfl
  · intro failure next here
    exact ⟨here.2, here.1⟩

theorem writeChunks_spec {world : World} {id : Uuid} {bytes : List UInt8}
    (there : world.store.blocks id = some bytes)
    (chunks : List (List UInt8)) :
    (each (writeChunk id) chunks).Leads world fun result next =>
      (world.Frees → next.Frees) ∧ ∃ written,
        next.store = world.store.stocked world.store.drawn
          (Function.update world.store.blocks id (some written)) ∧
        (result = .ok () → written = bytes ++ chunks.flatten) := by
  have same {store : TensorStore} {bytes : List UInt8}
      (there : store.blocks id = some bytes) :
      store.stocked store.drawn
        (Function.update store.blocks id (some bytes)) = store := by
    rw [← there, Function.update_eq_self, stocked_self]
  induction chunks generalizing world bytes with
  | nil =>
      exact ⟨fun frees => frees, bytes, (same there).symm,
        fun _ => (List.append_nil bytes).symm⟩
  | cons chunk rest ih =>
      refine (writeChunk_spec there chunk).bind ?_ ?_
      · intro _ next given
        obtain ⟨frees, stored⟩ := given
        have grown : next.store.blocks id = some (bytes ++ chunk) := by
          rw [stored, stocked_blocks, Function.update_self]
        refine (ih grown).mono ?_
        intro result final given
        obtain ⟨frees', written, left, whole⟩ := given
        refine ⟨frees' ∘ frees, written, ?_, fun ended => ?_⟩
        · simp only [left, stored, stocked_stocked, stocked_drawn,
            stocked_blocks, Function.update_idem]
        · rw [whole ended, List.flatten_cons, List.append_assoc]
      · intro failure next given
        obtain ⟨frees, stored⟩ := given
        exact ⟨frees, bytes, stored.trans (same there).symm, nofun⟩

theorem fillBlock_spec {world : World} {block : BackingBlock}
    (there : world.store.blocks block.id = some []) (bytes : List UInt8) :
    (do
      call
      each (writeChunk block.id) (Slice.pieces stagingBytes bytes)
      call
      pure block : Storing BackingBlock).Leads world fun result next =>
        (world.Frees → next.Frees) ∧ ∃ written,
          next.store = world.store.stocked world.store.drawn
            (Function.update world.store.blocks block.id (some written)) ∧
          ∀ made, result = .ok made → made = block ∧ written = bytes := by
  refine (call_undisturbed world).bind ?_ ?_
  · intro _ ready here
    have there' : ready.store.blocks block.id = some [] := by
      rw [here.1, there]
    refine (writeChunks_spec there' _).bind ?_ ?_
    · intro _ full given
      obtain ⟨frees, written, left, whole⟩ := given
      rw [Slice.flatten_pieces (by decide), List.nil_append] at whole
      rw [here.1] at left
      refine (call_undisturbed full).bind ?_ ?_
      · intro _ last past
        refine leads_pure.mpr ⟨past.2 ∘ frees ∘ here.2, written, ?_, ?_⟩
        · rw [past.1, left]
        · intro made ended
          cases ended
          exact ⟨rfl, whole rfl⟩
      · intro failure last past
        exact ⟨past.2 ∘ frees ∘ here.2, written, past.1.trans left, nofun⟩
    · intro failure full given
      obtain ⟨frees, written, left, _⟩ := given
      rw [here.1] at left
      exact ⟨frees ∘ here.2, written, left, nofun⟩
  · intro failure ready here
    refine ⟨here.2, [], ?_, nofun⟩
    rw [← there, Function.update_eq_self, stocked_self]
    exact here.1

/-- What a failed upload leaves: blocks that nothing names, if freeing them
failed too. -/
structure Leftover (frees : Prop) (store next : TensorStore) : Prop where
  stored : next = store.stocked next.drawn next.blocks
  ordered : store.drawn ≤ next.drawn
  old : ∀ id, id < store.drawn → next.blocks id = store.blocks id
  fresh : next.Fresh
  undone : frees → next.blocks = store.blocks

theorem putChunks_spec {world : World} (fresh : world.store.Fresh)
    (bytes : List UInt8) :
    (putChunks bytes).Leads world fun result next =>
      (world.Frees → next.Frees) ∧ match result with
        | .ok block =>
            block.id = world.store.drawn ∧ block.size = bytes.length ∧
              next.store = world.store.stocked (world.store.drawn + 1)
                (Function.update world.store.blocks world.store.drawn
                  (some bytes))
        | .error _ => Leftover world.Frees world.store next.store := by
  refine (allocateBlock_spec world bytes.length).bind ?_ ?_
  · intro block next given
    obtain ⟨frees₁, named, sized, stored⟩ := given
    have present : next.store.blocks block.id = some [] := by
      rw [stored, named, stocked_blocks, Function.update_self]
    refine (fillBlock_spec present bytes).rescue ?_ ?_
    · intro made later given
      obtain ⟨frees₂, written, left, whole⟩ := given
      obtain ⟨rfl, rfl⟩ := whole made rfl
      refine ⟨frees₂ ∘ frees₁, named, sized, ?_⟩
      simp only [left, stored, named, stocked_stocked, stocked_drawn,
        stocked_blocks, Function.update_idem]
    · intro failure later given
      obtain ⟨frees₂, written, left, _⟩ := given
      refine Leads.bind (suppress_freeBlock later block) ?_ ?_
      · intro _ final given
        obtain ⟨_, freed⟩ := given
        have allocated : later.store = world.store.stocked
            (world.store.drawn + 1) (Function.update world.store.blocks
              world.store.drawn (some written)) := by
          simp only [left, stored, named, stocked_stocked, stocked_drawn,
            stocked_blocks, Function.update_idem]
        have unnamed {key : Uuid} (differ : key ≠ world.store.drawn) :
            final.store.blocks key = world.store.blocks key := by
          rw [freed.others key (by simpa [named] using differ), allocated,
            stocked_blocks, Function.update_of_ne differ]
        have drawn : final.store.drawn = world.store.drawn + 1 := by
          rw [freed.stored, allocated]
          rfl
        refine leads_throw.mpr ⟨freed.frees ∘ frees₂ ∘ frees₁, ?_⟩
        constructor
        case stored =>
          conv_lhs => rw [freed.stored, allocated]
          rw [drawn]
          rfl
        case ordered =>
          rw [drawn]
          exact Nat.le_succ _
        case old => exact fun id older => unnamed (Nat.ne_of_lt older)
        case fresh =>
          intro id undrawn
          rw [drawn] at undrawn
          rw [unnamed (Nat.ne_of_gt undrawn)]
          exact fresh id (Nat.le_of_succ_le undrawn)
        case undone =>
          intro frees
          funext id
          by_cases same : id = world.store.drawn
          · subst same
            rw [freed.gone (frees₂ (frees₁ frees)) _ (by simp [named]),
              fresh _ (Nat.le_refl _)]
          · exact unnamed same
      · intro failure final given
        obtain ⟨ended, _⟩ := given
        cases ended
  · intro failure next given
    obtain ⟨frees₁, stored⟩ := given
    refine ⟨frees₁, ?_⟩
    rw [stored]
    exact ⟨rfl, Nat.le_refl _, fun _ _ => rfl, fresh, fun _ => rfl⟩

@[simp] theorem leads_entry_bind {α : Type} {world : World}
    {handle : Handle} {program : TensorHandle → Storing α}
    {post : Except StoreFailure α → World → Prop} :
    (entry handle >>= program).Leads world post ↔
      (program (world.store.handles handle)).Leads world post :=
  Iff.rfl

@[simp] theorem leads_changeStore {world : World}
    {update : TensorStore → TensorStore}
    {post : Except StoreFailure Unit → World → Prop} :
    (changeStore update).Leads world post ↔
      post (.ok ()) { world with store := update world.store } :=
  Iff.rfl

@[simp] theorem leads_changeStore_bind {α : Type} {world : World}
    {update : TensorStore → TensorStore} {program : Unit → Storing α}
    {post : Except StoreFailure α → World → Prop} :
    (changeStore update >>= program).Leads world post ↔
      (program ()).Leads { world with store := update world.store } post :=
  Iff.rfl

/-! Writing a tensor. -/

def altered (store : TensorStore) (handle : Handle)
    (update : TensorHandle → TensorHandle) : TensorStore :=
  { store with
    handles := Function.update store.handles handle
      (update (store.handles handle)) }

@[simp] theorem leads_change {world : World} {handle : Handle}
    {update : TensorHandle → TensorHandle}
    {post : Except StoreFailure Unit → World → Prop} :
    (change handle update).Leads world post ↔
      post (.ok ()) { world with store := world.store.altered handle update } :=
  Iff.rfl

@[simp] theorem leads_change_bind {α : Type} {world : World}
    {handle : Handle} {update : TensorHandle → TensorHandle}
    {program : Unit → Storing α}
    {post : Except StoreFailure α → World → Prop} :
    (change handle update >>= program).Leads world post ↔
      (program ()).Leads
        { world with store := world.store.altered handle update } post :=
  Iff.rfl

structure Wrote (handle : Handle) (new : List BackingBlock)
    (bytes : List UInt8) (store next : TensorStore) : Prop where
  stored : next = (store.altered handle fun entry =>
    { entry with blocks := entry.blocks ++ new }).stocked next.drawn
      next.blocks
  ordered : store.drawn ≤ next.drawn
  named : ∀ block ∈ new, store.drawn ≤ block.id ∧ block.id < next.drawn
  nodup : (new.map (·.id)).Nodup
  held : contents next.blocks new = some bytes
  sized : (new.map (·.size)).sum = bytes.length
  others : ∀ id, id ∉ new.map (·.id) → next.blocks id = store.blocks id

namespace Wrote

variable {handle : Handle} {new : List BackingBlock} {bytes : List UInt8}
  {store next : TensorStore}

theorem nil (store : TensorStore) : Wrote handle [] [] store store where
  stored := by
    have same : (store.handles handle).blocks ++ [] =
        (store.handles handle).blocks := List.append_nil _
    simp only [altered, same, Function.update_eq_self]
    rfl
  ordered := Nat.le_refl _
  named _ absent := absurd absent List.not_mem_nil
  nodup := List.nodup_nil
  held := rfl
  sized := rfl
  others _ _ := rfl

theorem old (wrote : Wrote handle new bytes store next) {id : Uuid}
    (older : id < store.drawn) : id ∉ new.map (·.id) := by
  intro member
  obtain ⟨block, listed, rfl⟩ := List.mem_map.mp member
  exact Nat.not_le_of_lt older (wrote.named block listed).1

theorem fresh (wrote : Wrote handle new bytes store next)
    (fresh : store.Fresh) : next.Fresh := by
  intro id undrawn
  rw [wrote.others id, fresh id (Nat.le_trans wrote.ordered undrawn)]
  intro member
  obtain ⟨block, listed, rfl⟩ := List.mem_map.mp member
  exact Nat.not_le_of_lt (wrote.named block listed).2 undrawn

theorem snoc (wrote : Wrote handle new bytes store next)
    {block : BackingBlock} (named : block.id = next.drawn)
    {piece : List UInt8} (sized : block.size = piece.length) :
    Wrote handle (new ++ [block]) (bytes ++ piece) store
      ((next.stocked (next.drawn + 1)
        (Function.update next.blocks next.drawn (some piece))).altered handle
          fun entry => { entry with blocks := entry.blocks ++ [block] }) where
  stored := by
    conv_lhs => rw [wrote.stored]
    simp only [altered, stocked, Function.update_idem, Function.update_self,
      List.append_assoc]
  ordered := Nat.le_succ_of_le wrote.ordered
  named other member := by
    rw [List.mem_append, List.mem_singleton] at member
    change store.drawn ≤ other.id ∧ other.id < next.drawn + 1
    rcases member with old | rfl
    · have bounds := wrote.named other old
      exact ⟨bounds.1, Nat.lt_succ_of_lt bounds.2⟩
    · rw [named]
      exact ⟨wrote.ordered, Nat.lt_succ_self _⟩
  nodup := by
    rw [List.map_append]
    refine wrote.nodup.append (List.nodup_singleton _) ?_
    intro id old last
    obtain ⟨other, listed, rfl⟩ := List.mem_map.mp old
    rw [List.map_singleton, List.mem_singleton, named] at last
    exact Nat.ne_of_lt (wrote.named other listed).2 last
  held := by
    refine contents_append ?_ ?_
    · rw [← wrote.held]
      refine contents_congr fun other member => ?_
      exact Function.update_of_ne
        (Nat.ne_of_lt (wrote.named other member).2) ..
    · simp [contents, named, altered, stocked]
  sized := by
    rw [List.map_append, List.sum_append, wrote.sized, List.length_append,
      List.map_singleton, List.sum_singleton, sized]
  others id member := by
    rw [List.map_append, List.mem_append, not_or, List.map_singleton,
      List.mem_singleton, named] at member
    rw [← wrote.others id member.1]
    exact Function.update_of_ne member.2 ..

end Wrote

theorem discard_spec {handle : Handle} {written : List BackingBlock}
    {bytes : List UInt8} {start store : TensorStore} {world : World}
    {frees : Prop} (kind : frees → world.Frees)
    (wrote : Wrote handle written bytes start store) (fresh : start.Fresh)
    (below : ∀ block ∈ (start.handles handle).blocks,
      block.id < start.drawn)
    (left : Leftover frees store world.store) :
    (discard handle written).Leads world fun result next =>
      result = .ok () ∧ (world.Frees → next.Frees) ∧
        Leftover frees start next.store := by
  refine (suppress_freeBlocks world written).bind ?_ ?_
  · intro _ next given
    obtain ⟨_, freed⟩ := given
    refine leads_change.mpr ⟨rfl, freed.frees, ?_⟩
    have drawn : next.store.drawn = world.store.drawn := by
      rw [freed.stored]
      rfl
    constructor
    case stored =>
      have kept : (start.handles handle).blocks.filter (· ∉ written) =
          (start.handles handle).blocks := by
        refine List.filter_eq_self.mpr fun block member => ?_
        refine decide_eq_true fun listed => ?_
        exact wrote.old (below block member)
          (List.mem_map_of_mem (f := (·.id)) listed)
      have gone : written.filter (· ∉ written) = [] :=
        List.filter_eq_nil_iff.mpr fun block listed => by simp [listed]
      have handles : next.store =
          (start.altered handle fun entry =>
            { entry with blocks := entry.blocks ++ written }).stocked
              next.store.drawn next.store.blocks := by
        conv_lhs => rw [freed.stored, left.stored, wrote.stored]
        rw [drawn]
        rfl
      rw [handles]
      simp only [altered, stocked, Function.update_idem,
        Function.update_self, List.filter_append, kept, gone,
        List.append_nil, Function.update_eq_self]
    case ordered =>
      change start.drawn ≤ next.store.drawn
      rw [drawn]
      exact Nat.le_trans wrote.ordered left.ordered
    case old =>
      intro id older
      change next.store.blocks id = _
      rw [freed.others id (wrote.old older),
        left.old id (Nat.lt_of_lt_of_le older wrote.ordered),
        wrote.others id (wrote.old older)]
    case fresh =>
      intro id undrawn
      change next.store.drawn ≤ id at undrawn
      change next.store.blocks id = none
      rcases freed.fewer id with lost | same
      · exact lost
      · rw [same]
        exact left.fresh id (drawn ▸ undrawn)
    case undone =>
      intro free
      funext id
      change next.store.blocks id = _
      by_cases member : id ∈ written.map (·.id)
      · rw [freed.gone (kind free) id member]
        obtain ⟨block, listed, rfl⟩ := List.mem_map.mp member
        exact (fresh _ (wrote.named block listed).1).symm
      · rw [freed.others id member, left.undone free,
          wrote.others id member]
  · intro failure next given
    obtain ⟨ended, _⟩ := given
    cases ended

theorem writePiece_spec {handle : Handle} {start : TensorStore}
    (fresh : start.Fresh)
    (below : ∀ block ∈ (start.handles handle).blocks,
      block.id < start.drawn)
    {written : List BackingBlock} {bytes : List UInt8} {world : World}
    (wrote : Wrote handle written bytes start world.store)
    (piece : List UInt8) :
    (tryCatch (do call; putChunks piece) fun failure => do
      discard handle written
      throw failure : Storing BackingBlock).Leads world fun result next =>
        (world.Frees → next.Frees) ∧ match result with
          | .ok block =>
              block.id = world.store.drawn ∧ block.size = piece.length ∧
                next.store = world.store.stocked (world.store.drawn + 1)
                  (Function.update world.store.blocks world.store.drawn
                    (some piece))
          | .error _ => Leftover world.Frees start next.store := by
  have put : (do call; putChunks piece : Storing BackingBlock).Leads world
      fun result next =>
        (world.Frees → next.Frees) ∧ match result with
          | .ok block =>
              block.id = world.store.drawn ∧ block.size = piece.length ∧
                next.store = world.store.stocked (world.store.drawn + 1)
                  (Function.update world.store.blocks world.store.drawn
                    (some piece))
          | .error _ => Leftover world.Frees world.store next.store := by
    refine (call_undisturbed world).bind ?_ ?_
    · intro _ ready here
      have fresh' : ready.store.Fresh := by
        rw [here.1]
        exact wrote.fresh fresh
      refine (putChunks_spec fresh' piece).mono ?_
      intro result next given
      obtain ⟨frees, ended⟩ := given
      rw [here.1] at ended
      refine ⟨frees ∘ here.2, ?_⟩
      cases result with
      | ok block => exact ended
      | error failure =>
          exact { ended with undone := ended.undone ∘ here.2 }
    · intro failure ready here
      refine ⟨here.2, ?_⟩
      rw [here.1]
      exact ⟨rfl, Nat.le_refl _, fun _ _ => rfl, wrote.fresh fresh,
        fun _ => rfl⟩
  refine put.rescue (fun _ _ here => here) ?_
  intro failure next given
  obtain ⟨frees, left⟩ := given
  refine (discard_spec frees wrote fresh below left).bind ?_ ?_
  · intro _ final given
    obtain ⟨_, frees', cleared⟩ := given
    exact leads_throw.mpr ⟨frees' ∘ frees, cleared⟩
  · intro failure final given
    obtain ⟨ended, _⟩ := given
    cases ended

theorem writePieces_spec {handle : Handle} {start : TensorStore}
    (fresh : start.Fresh)
    (below : ∀ block ∈ (start.handles handle).blocks,
      block.id < start.drawn)
    {written : List BackingBlock} {bytes : List UInt8} {world : World}
    (wrote : Wrote handle written bytes start world.store)
    (pieces : List (List UInt8)) :
    (writePieces handle pieces written).Leads world fun result next =>
      (world.Frees → next.Frees) ∧ match result with
        | .ok new =>
            Wrote handle new (bytes ++ pieces.flatten) start next.store
        | .error _ => Leftover world.Frees start next.store := by
  induction pieces generalizing written bytes world with
  | nil =>
      refine leads_pure.mpr ⟨id, ?_⟩
      rw [List.flatten_nil, List.append_nil]
      exact wrote
  | cons piece rest ih =>
      refine (writePiece_spec fresh below wrote piece).bind ?_ ?_
      · intro block next given
        obtain ⟨frees, named, sized, left⟩ := given
        refine leads_change_bind.mpr ?_
        have grown := wrote.snoc named sized
        rw [← left] at grown
        rw [List.flatten_cons, ← List.append_assoc]
        refine Leads.mono (ih grown) ?_
        intro result final given
        obtain ⟨frees', ended⟩ := given
        refine ⟨frees' ∘ frees, ?_⟩
        cases result with
        | ok new => exact ended
        | error failure =>
            exact { ended with undone := ended.undone ∘ frees }
      · intro failure next here
        exact here

end TensorStore

end TrainPool
