import Mathlib.Algebra.Order.Group.Multiset
import TrainPool.Torch.Execute

namespace TrainPool

open HandleStore

variable {τ γ σ : Type}

/-! The forward pass keeps every value that is still needed, and knows the
owner of every live handle. -/

def Tape.handles (tape : Tape γ σ) : Multiset Handle :=
  Table.sum SavedTree.handles tape.values

def snapshotHandles (buffers : List (List (Nat × Handle))) :
    Multiset Handle :=
  (buffers.flatten.map Prod.snd : List Handle)

def normHandles (buffers : List Buffer) : Multiset Handle :=
  ((buffers.filter (·.batchNorm)).map Buffer.handle : List Handle)

def ModuleStage.handles (stage : ModuleStage) : Multiset Handle :=
  normHandles stage.buffers

def stageHandles (stages : List ModuleStage) : Multiset Handle :=
  (stages.map ModuleStage.handles).sum

/-- The values on the tape are those of `final`, and the live handles are
theirs and `rest`. -/
structure Tape.Valid (final : NodeName → Option (Value τ γ σ))
    (tape : Tape γ σ) (store : HandleStore τ) (rest : Multiset Handle) :
    Prop where
  owned : store.handles = tape.handles + rest
  held : ∀ name saved, tape.values.lookup name = some saved →
    ∃ value, saved.restore store = some value ∧ final name = some value

namespace Tape

variable {final : NodeName → Option (Value τ γ σ)} {tape : Tape γ σ}
  {store next : HandleStore τ} {rest other : Multiset Handle}
  {name : NodeName} {saved : SavedTree γ σ} {value : Value τ γ σ}

theorem mem_handles (found : tape.values.lookup name = some saved)
    {handle : Handle} (listed : handle ∈ saved.handles) :
    handle ∈ tape.handles := by
  rw [handles, Table.sum_erase found]
  exact Multiset.mem_add.mpr (.inl listed)

theorem Valid.restore (valid : tape.Valid final store rest)
    (stored : name ∈ tape.values) :
    tape.restore store name = final name ∧ ∃ value, final name = some value := by
  obtain ⟨saved, found⟩ :=
    Option.isSome_iff_exists.mp (AList.lookup_isSome.mpr stored)
  obtain ⟨value, restored, same⟩ := valid.held name saved found
  exact ⟨by simp [Tape.restore, found, restored, same], value, same⟩

theorem Valid.restoreAll (valid : tape.Valid final store rest)
    {names : List NodeName} (stored : ∀ name ∈ names, name ∈ tape.values) :
    ∃ values, names.mapM (tape.restore store) = some values ∧
      names.mapM final = some values := by
  have found : ∀ name ∈ names, tape.restore store name = final name ∧
      ∃ value, final name = some value :=
    fun name listed => valid.restore (stored name listed)
  obtain ⟨values, collected⟩ :=
    Dataflow.mapM_total fun name listed => (found name listed).2
  refine ⟨values, ?_, collected⟩
  rw [← collected]
  exact Dataflow.mapM_congr fun name listed => (found name listed).1

theorem Valid.frame (valid : tape.Valid final store rest)
    (owned : next.handles = tape.handles + other)
    (keeps : Keeps tape.handles store next) : tape.Valid final next other where
  owned := owned
  held := by
    intro name saved found
    obtain ⟨value, restored, same⟩ := valid.held name saved found
    refine ⟨value, ?_, same⟩
    rw [← restored]
    apply SavedTree.restore_keeps
    exact keeps.mono fun handle listed => mem_handles found listed

theorem Valid.save (valid : tape.Valid final store rest)
    (absent : name ∉ tape.values) (value : Value τ γ σ)
    (same : final name = some value) :
    Valid final
        { tape with values :=
            tape.values.insert name (SavedTree.save value store).1 }
        (SavedTree.save value store).2 rest ∧
      Keeps store.handles store (SavedTree.save value store).2 := by
  obtain ⟨grown, keeps, restored⟩ := SavedTree.save_spec value store
  refine ⟨⟨?_, ?_⟩, keeps⟩
  · rw [grown, valid.owned, handles, handles, Table.sum_insert absent,
      add_assoc]
  · intro other saved found
    rw [Table.lookup_insert_eq] at found
    split at found
    · rename_i equal
      cases found
      exact ⟨value, restored, equal ▸ same⟩
    · obtain ⟨held, before, agreed⟩ := valid.held other saved found
      refine ⟨held, ?_, agreed⟩
      rw [← before]
      apply SavedTree.restore_keeps
      apply keeps.mono
      intro handle listed
      rw [valid.owned]
      exact Multiset.mem_add.mpr (.inl (mem_handles found listed))

theorem Valid.saveAll {entries : List (NodeName × Value τ γ σ)}
    (valid : tape.Valid final store rest)
    (distinct : (entries.map Prod.fst).Nodup)
    (absent : ∀ entry ∈ entries, entry.1 ∉ tape.values)
    (same : ∀ entry ∈ entries, final entry.1 = some entry.2) :
    Valid final (Tape.saveAll entries tape store).1
        (Tape.saveAll entries tape store).2 rest ∧
      Keeps rest store (Tape.saveAll entries tape store).2 ∧
      (Tape.saveAll entries tape store).1.buffers = tape.buffers ∧
      ∀ name, name ∈ (Tape.saveAll entries tape store).1.values ↔
        name ∈ tape.values ∨ name ∈ entries.map Prod.fst := by
  induction entries generalizing tape store with
  | nil => exact ⟨valid, Keeps.refl _ _, rfl, by simp [Tape.saveAll]⟩
  | cons entry entries ih =>
      obtain ⟨name, value⟩ := entry
      rw [List.map_cons, List.nodup_cons] at distinct
      obtain ⟨saved, keeps⟩ := valid.save
        (absent (name, value) (by simp)) value (same (name, value) (by simp))
      obtain ⟨valid', keeps', buffers, stored⟩ := ih saved distinct.2
        (by
          intro entry member present
          rcases (AList.mem_insert _).mp present with equal | present
          · exact distinct.1 (equal ▸ List.mem_map_of_mem member)
          · exact absent entry (List.mem_cons_of_mem _ member) present)
        (fun entry member => same entry (List.mem_cons_of_mem _ member))
      refine ⟨valid', (keeps.mono ?_).trans keeps', buffers, ?_⟩
      · intro handle member
        rw [valid.owned]
        exact Multiset.mem_add.mpr (.inr member)
      · intro other
        rw [Tape.saveAll]
        simp only [stored, AList.mem_insert, List.map_cons, List.mem_cons]
        tauto

theorem Valid.drop (valid : tape.Valid final store rest)
    (stored : name ∈ tape.values) :
    ∃ next, tape.drop name store =
        some ({ tape with values := tape.values.erase name }, next) ∧
      Valid final { tape with values := tape.values.erase name } next rest ∧
      Keeps rest store next := by
  obtain ⟨saved, found⟩ :=
    Option.isSome_iff_exists.mp (AList.lookup_isSome.mpr stored)
  have owned : store.handles = saved.handles +
      (Table.sum SavedTree.handles (tape.values.erase name) + rest) := by
    rw [valid.owned, handles, Table.sum_erase found, add_assoc]
  obtain ⟨left, keeps⟩ := SavedTree.free_spec owned
  refine ⟨saved.free store, by simp [Tape.drop, found], ⟨left, ?_⟩, ?_⟩
  · intro other kept lookup
    rw [Table.lookup_erase_eq] at lookup
    split at lookup
    · cases lookup
    obtain ⟨value, restored, same⟩ := valid.held other kept lookup
    refine ⟨value, ?_, same⟩
    rw [← restored]
    apply SavedTree.restore_keeps
    apply keeps.mono
    intro handle listed
    have inside : ({ tape with values := tape.values.erase name } :
        Tape γ σ).values.lookup other = some kept := by
      rwa [AList.lookup_erase_ne]
      assumption
    exact Multiset.mem_add.mpr (.inl (mem_handles inside listed))
  · apply keeps.mono
    intro handle member
    exact Multiset.mem_add.mpr (.inr member)

end Tape

/-! The buffers of a stage. -/

def Snapshots (buffers : List Buffer) (snapshot : List (Nat × Handle))
    (store next : HandleStore τ) : Prop :=
  ∀ buffer ∈ buffers,
    if buffer.batchNorm then
      ∃ handle ∈ snapshot.map Prod.snd,
        snapshot.lookup buffer.name = some handle ∧
          next.restore handle = store.restore buffer.handle
    else
      snapshot.lookup buffer.name = none

theorem snapshotBuffers_spec {buffers : List Buffer} {store : HandleStore τ}
    (live : ∀ buffer ∈ buffers, buffer.handle ∈ store.handles)
    (distinct : (buffers.map Buffer.name).Nodup) :
    ∃ snapshot next, snapshotBuffers buffers store = some (snapshot, next) ∧
      next.handles =
        (snapshot.map Prod.snd : List Handle) + store.handles ∧
      Keeps store.handles store next ∧
      Snapshots buffers snapshot store next ∧
      ∀ entry ∈ snapshot, entry.1 ∈ buffers.map Buffer.name := by
  induction buffers generalizing store with
  | nil =>
      exact ⟨[], store, rfl, by simp, Keeps.refl _ _, nofun, nofun⟩
  | cons buffer buffers ih =>
      rw [List.map_cons, List.nodup_cons] at distinct
      have own := live buffer (by simp)
      have others : ∀ other ∈ buffers, other.handle ∈ store.handles :=
        fun other member => live other (List.mem_cons_of_mem _ member)
      cases norm : buffer.batchNorm with
      | false =>
          obtain ⟨snapshot, next, taken, grown, keeps, snaps, named⟩ :=
            ih others distinct.2
          refine ⟨snapshot, next, by simp [snapshotBuffers, norm, taken],
            grown, keeps, ?_, ?_⟩
          · intro other member
            rcases List.mem_cons.mp member with rfl | member
            · rw [if_neg (by simp [norm])]
              refine List.lookup_eq_none_iff.mpr ?_
              intro entry listed
              have named := named entry listed
              rw [bne_iff_ne]
              intro same
              exact distinct.1 (same ▸ named)
            · exact snaps other member
          · intro entry listed
            exact List.mem_cons_of_mem _ (named entry listed)
      | true =>
          obtain ⟨value, found⟩ := HandleStore.restore_total own
          have liveNext : ∀ other ∈ buffers,
              other.handle ∈ (store.offload value).2.handles := by
            intro other member
            rw [handles_offload]
            exact Multiset.mem_cons_of_mem (others other member)
          obtain ⟨snapshot, next, taken, grown, keeps, snaps, named⟩ :=
            ih liveNext distinct.2
          have copied : (store.offload value).1 ∈
              (store.offload value).2.handles := by
            rw [handles_offload]
            exact Multiset.mem_cons_self _ _
          refine ⟨(buffer.name, (store.offload value).1) :: snapshot, next,
            by simp [snapshotBuffers, norm, found, taken], ?_, ?_, ?_, ?_⟩
          · rw [grown, handles_offload, List.map_cons, ← Multiset.cons_coe,
              Multiset.add_cons, Multiset.cons_add]
          · refine offload_keeps.trans (keeps.mono ?_)
            intro handle member
            rw [handles_offload]
            exact Multiset.mem_cons_of_mem member
          · intro other member
            rcases List.mem_cons.mp member with rfl | member
            · rw [if_pos norm]
              refine ⟨(store.offload value).1, by simp, by simp, ?_⟩
              rw [keeps.same _ copied, restore_offload_self, found]
            · have different : other.name ≠ buffer.name := by
                intro same
                exact distinct.1 (same ▸ List.mem_map_of_mem member)
              have looked : List.lookup other.name
                  ((buffer.name, (store.offload value).1) :: snapshot) =
                    snapshot.lookup other.name := by
                rw [List.lookup_cons, beq_false_of_ne different]
              have before := snaps other member
              rw [looked]
              split
              · rename_i normal
                rw [if_pos normal] at before
                obtain ⟨handle, listed, lookup, restored⟩ := before
                refine ⟨handle, List.mem_cons_of_mem _ listed, lookup, ?_⟩
                rw [restored,
                  restore_offload_of_live (others other member)]
              · rename_i normal
                rwa [if_neg normal] at before
          · intro entry listed
            rcases List.mem_cons.mp listed with rfl | listed
            · simp
            · exact List.mem_cons_of_mem _ (named entry listed)

/-- What becomes of one buffer: a BatchNorm buffer gets a handle that has never
been used, the others keep theirs. -/
structure Replaced (limit : Handle) (old new : Buffer) : Prop where
  name : new.name = old.name
  batchNorm : new.batchNorm = old.batchNorm
  handle : if old.batchNorm then limit ≤ new.handle
    else new.handle = old.handle

@[simp] theorem normHandles_cons (buffer : Buffer) (buffers : List Buffer) :
    normHandles (buffer :: buffers) =
      if buffer.batchNorm then buffer.handle ::ₘ normHandles buffers
      else normHandles buffers := by
  cases norm : buffer.batchNorm <;> simp [normHandles, norm]

theorem mem_normHandles {buffers : List Buffer} {buffer : Buffer}
    (member : buffer ∈ buffers) (norm : buffer.batchNorm = true) :
    buffer.handle ∈ normHandles buffers :=
  Multiset.mem_coe.mpr
    (List.mem_map_of_mem (List.mem_filter.mpr ⟨member, norm⟩))

theorem replaceBuffers_spec (mutated : Nat → τ) {buffers : List Buffer}
    {store : HandleStore τ} {rest : Multiset Handle} {limit : Handle}
    (owned : store.handles = normHandles buffers + rest)
    (reached : limit ≤ store.next) :
    (replaceBuffers mutated buffers store).2.handles =
        normHandles (replaceBuffers mutated buffers store).1 + rest ∧
      Keeps rest store (replaceBuffers mutated buffers store).2 ∧
      List.Forall₂ (Replaced limit) buffers
        (replaceBuffers mutated buffers store).1 := by
  induction buffers generalizing store rest with
  | nil => exact ⟨by simpa [replaceBuffers] using owned, Keeps.refl _ _, .nil⟩
  | cons buffer buffers ih =>
      rw [normHandles_cons] at owned
      cases norm : buffer.batchNorm with
      | false =>
          rw [norm, if_neg (by simp)] at owned
          obtain ⟨grown, keeps, related⟩ := ih owned reached
          simp only [replaceBuffers, norm, Bool.false_eq_true, if_false,
            normHandles_cons]
          exact ⟨grown, keeps, .cons ⟨rfl, rfl, by simp [norm]⟩ related⟩
      | true =>
          rw [norm, if_pos rfl, Multiset.cons_add] at owned
          let offloaded := store.offload (mutated buffer.name)
          have added : offloaded.2.handles = buffer.handle ::ₘ
              (offloaded.1 ::ₘ (normHandles buffers + rest)) := by
            rw [handles_offload, owned, Multiset.cons_swap]
          obtain ⟨freed, kept⟩ := free_keeps added
          have shifted : (offloaded.2.free buffer.handle).handles =
              normHandles buffers + (offloaded.1 ::ₘ rest) := by
            rw [freed, Multiset.add_cons]
          obtain ⟨grown, keeps, related⟩ := ih shifted
            (reached.trans (Nat.le_succ _))
          simp only [replaceBuffers, norm, if_true, normHandles_cons]
          refine ⟨?_, ?_, ?_⟩
          · rw [grown, Multiset.cons_add, Multiset.add_cons]
          · refine (offload_keeps.mono ?_).trans
              ((kept.mono ?_).trans (keeps.mono ?_))
            · intro handle member
              rw [owned]
              exact Multiset.mem_cons_of_mem
                (Multiset.mem_add.mpr (.inr member))
            · intro handle member
              exact Multiset.mem_cons_of_mem
                (Multiset.mem_add.mpr (.inr member))
            · intro handle member
              exact Multiset.mem_cons_of_mem member
          · refine .cons ⟨rfl, norm.symm, ?_⟩ related
            rw [if_pos norm]
            exact reached

namespace ModuleStage

/-- Two stages with the same names have the same state where corresponding
handles have the same contents. -/
theorem state_eq {stage other : ModuleStage}
    {snapshot otherSnapshot : List (Nat × Handle)}
    {store next : HandleStore τ}
    (same : List.Forall₂ (fun (left right : Nat × Handle) =>
        left.1 = right.1 ∧ next.restore right.2 = store.restore left.2)
      (stage.stateHandles snapshot) (other.stateHandles otherSnapshot)) :
    other.state otherSnapshot next = stage.state snapshot store := by
  unfold state
  revert same
  generalize stage.stateHandles snapshot = entries
  generalize other.stateHandles otherSnapshot = others
  intro same
  induction same with
  | nil => rfl
  | cons equal _ ih =>
      rw [List.mapM_cons, List.mapM_cons, ih, equal.1, equal.2]

theorem state_keeps {stage : ModuleStage} {snapshot : List (Nat × Handle)}
    {store next : HandleStore τ} {kept : Multiset Handle}
    (keeps : Keeps kept store next)
    (listed : ∀ entry ∈ stage.stateHandles snapshot, entry.2 ∈ kept) :
    stage.state snapshot next = stage.state snapshot store := by
  apply state_eq
  rw [List.forall₂_same]
  intro entry member
  exact ⟨rfl, keeps.same _ (listed entry member)⟩

theorem stateHandles_nil (stage : ModuleStage) :
    stage.stateHandles [] =
      stage.weights.map (fun weight => (weight.name, weight.handle)) ++
        stage.buffers.map fun buffer => (buffer.name, buffer.handle) :=
  rfl

end ModuleStage

namespace GraphRuntime

variable {final : NodeName → Option (Value τ γ σ)}

theorem bind_eq {names : List NodeName} {values : List (Value τ γ σ)}
    (collected : names.mapM final = some values) {name : NodeName}
    (listed : name ∈ names) : bind names values name = final name := by
  have matched := Dataflow.mapM_eq_some.mp collected
  clear collected
  unfold bind
  induction matched with
  | nil => cases listed
  | @cons first value names values found _ ih =>
      rw [List.zip_cons_cons, List.lookup_cons]
      cases same : name == first with
      | true =>
          obtain rfl := eq_of_beq same
          exact found.symm
      | false =>
          rcases List.mem_cons.mp listed with rfl | listed
          · simp at same
          · exact ih listed

theorem functionalCall_spec {operators : Operators τ γ σ}
    {graph : FxGraph γ σ} {chunks front back : List (List FxNode)}
    {chunk : List FxNode} {index : Nat} {state : ModuleState τ}
    {arguments : List (Value τ γ σ)}
    (chunking : graph.Chunking chunks)
    (split : chunks = front ++ chunk :: back)
    (solves : Dataflow.Solves FxNode.name FxNode.inputs
      (operators.apply index state) final chunk)
    (collected : (graph.makeGroup chunk).inputs.mapM final =
      some arguments) :
    ∃ results,
      functionalCall operators index (graph.makeGroup chunk) state arguments =
          some results ∧
        (graph.makeGroup chunk).outputs.mapM final = some results := by
  obtain ⟨env, ran, agrees⟩ := Dataflow.eval_agrees
    (FxGraph.group_ordered chunking split) solves
    (fun name listed => bind_eq collected listed)
  have defined : ∀ name ∈ (graph.makeGroup chunk).outputs,
      ∃ value, final name = some value := by
    intro name listed
    obtain ⟨node, member, rfl⟩ :=
      List.mem_map.mp (FxGraph.mem_outputs.mp listed).1
    obtain ⟨_, _, value⟩ := solves node member
    exact ⟨_, value⟩
  obtain ⟨results, found⟩ := Dataflow.mapM_total defined
  refine ⟨results, ?_, found⟩
  simp only [functionalCall, Option.bind_eq_bind]
  have nodes : (graph.makeGroup chunk).nodes = chunk := rfl
  rw [nodes, ran, Option.bind_some, ← found]
  apply Dataflow.mapM_congr
  intro name listed
  exact agrees name
    (List.mem_append_right _ (FxGraph.mem_outputs.mp listed).1)

theorem consume_spec {save : Bool} {names : List NodeName}
    {running : Running τ γ σ} {rest : Multiset Handle}
    (valid : running.tape.Valid final running.store rest)
    (distinct : names.Nodup)
    (stored : ∀ name ∈ names, name ∈ running.tape.values) :
    ∃ next, consume save names running = some next ∧
      next.tape.Valid final next.store rest ∧
      Keeps rest running.store next.store ∧
      next.tape.buffers = running.tape.buffers ∧
      (∀ name, next.remaining name =
        if name ∈ names then running.remaining name - 1
        else running.remaining name) ∧
      (∀ name ∈ next.tape.values, name ∈ running.tape.values) ∧
      ∀ name ∈ running.tape.values,
        save = true ∨ name ∉ names ∨ next.remaining name ≠ 0 →
          name ∈ next.tape.values := by
  induction names generalizing running with
  | nil =>
      exact ⟨running, rfl, valid, Keeps.refl _ _, rfl, by simp,
        fun _ listed => listed, fun _ listed _ => listed⟩
  | cons name names ih =>
      rw [List.nodup_cons] at distinct
      let left := running.remaining name - 1
      have counted (remaining : NodeName → Nat)
          (after : ∀ other, remaining other =
            if other ∈ names then
              Function.update running.remaining name left other - 1
            else Function.update running.remaining name left other)
          (other : NodeName) : remaining other =
            if other ∈ name :: names then running.remaining other - 1
            else running.remaining other := by
        rw [after other]
        by_cases same : other = name
        · subst same
          simp [distinct.1, left]
        · simp [same]
      by_cases last : (!save && decide (left = 0)) = true
      · -- The value goes with its last consumer.
        have ⟨unsaved, exhausted⟩ : save = false ∧ left = 0 := by
          simpa using last
        obtain ⟨store, dropped, valid', keeps'⟩ :=
          valid.drop (stored name (by simp))
        let erased : Tape γ σ :=
          { running.tape with values := running.tape.values.erase name }
        obtain ⟨next, consumed, valid'', keeps'', buffers, remaining, kept,
          available⟩ := @ih ⟨store, erased,
            Function.update running.remaining name left⟩ valid' distinct.2
          (by
            intro other listed
            refine AList.mem_erase.mpr
              ⟨?_, stored other (List.mem_cons_of_mem _ listed)⟩
            rintro rfl
            exact distinct.1 listed)
        refine ⟨next, ?_, valid'', keeps'.trans keeps'', buffers,
          counted _ remaining, ?_, ?_⟩
        · simp only [consume]
          rw [if_pos last]
          simp only [dropped, Option.bind_eq_bind, Option.bind_some]
          exact consumed
        · intro other listed
          exact (AList.mem_erase.mp (kept other listed)).2
        · intro other listed needed
          have different : other ≠ name := by
            rintro rfl
            have none : next.remaining other = 0 := by
              rw [remaining, if_neg distinct.1]
              exact (Function.update_self ..).trans exhausted
            rcases needed with saved | absent | more
            · simp [unsaved] at saved
            · exact absent (by simp)
            · exact more none
          apply available other (AList.mem_erase.mpr ⟨different, listed⟩)
          simpa [different] using needed
      · obtain ⟨next, consumed, valid', keeps, buffers, remaining, kept,
          available⟩ := @ih ⟨running.store, running.tape,
            Function.update running.remaining name left⟩ valid distinct.2
          (fun other listed => stored other (List.mem_cons_of_mem _ listed))
        refine ⟨next, ?_, valid', keeps, buffers, counted _ remaining, kept,
          ?_⟩
        · simp only [consume]
          rw [if_neg last]
          exact consumed
        · intro other listed needed
          apply available other listed
          by_cases same : other = name
          · subst same
            exact .inr (.inl distinct.1)
          · simpa [same] using needed

structure StageReplaced (limit : Handle) (old new : ModuleStage) : Prop where
  weights : new.weights = old.weights
  buffers : List.Forall₂ (Replaced limit) old.buffers new.buffers

theorem takeSnapshot_spec (save : Bool) {stage : ModuleStage}
    {store : HandleStore τ}
    (live : ∀ buffer ∈ stage.buffers, buffer.handle ∈ store.handles) :
    ∃ snapshot next,
      takeSnapshot save stage.buffers store = some (snapshot, next) ∧
      next.handles =
        (snapshot.map Prod.snd : List Handle) + store.handles ∧
      Keeps store.handles store next ∧
      (save = true → Snapshots stage.buffers snapshot store next) := by
  cases save with
  | false => exact ⟨[], store, rfl, by simp, Keeps.refl _ _, nofun⟩
  | true =>
      obtain ⟨snapshot, next, taken, grown, keeps, snaps, _⟩ :=
        snapshotBuffers_spec live stage.distinct
      exact ⟨snapshot, next, taken, grown, keeps, fun _ => snaps⟩

/-- The stage and the snapshot that the backward pass will use have the state
of the forward pass. -/
theorem state_replays {stage after : ModuleStage}
    {snapshot : List (Nat × Handle)} {origin next : HandleStore τ}
    {limit : Handle} (replaced : StageReplaced limit stage after)
    (weights : ∀ weight ∈ stage.weights,
      next.restore weight.handle = origin.restore weight.handle)
    (snaps : Snapshots stage.buffers snapshot origin next)
    (steady : ∀ buffer ∈ stage.buffers, buffer.batchNorm = false →
      next.restore buffer.handle = origin.restore buffer.handle) :
    after.state snapshot next = stage.state [] origin := by
  apply ModuleStage.state_eq
  rw [ModuleStage.stateHandles_nil, ModuleStage.stateHandles,
    replaced.weights]
  apply List.rel_append
  · rw [List.forall₂_map_left_iff, List.forall₂_map_right_iff,
      List.forall₂_same]
    intro weight member
    exact ⟨rfl, weights weight member⟩
  · rw [List.forall₂_map_left_iff, List.forall₂_map_right_iff]
    have related := replaced.buffers
    revert snaps steady
    generalize stage.buffers = olds at related ⊢
    generalize after.buffers = news at related ⊢
    intro snaps steady
    induction related with
    | nil => exact .nil
    | @cons old new olds news same _ ih =>
        refine .cons ⟨same.name.symm, ?_⟩ (ih
          (fun buffer member => snaps buffer (List.mem_cons_of_mem _ member))
          (fun buffer member =>
            steady buffer (List.mem_cons_of_mem _ member)))
        have first := snaps old (by simp)
        have handle := same.handle
        rw [same.name]
        cases norm : old.batchNorm with
        | true =>
            rw [if_pos norm] at first
            obtain ⟨copy, _, looked, restored⟩ := first
            simp only [looked, Option.getD_some]
            exact restored
        | false =>
            rw [if_neg (by simp [norm])] at first handle
            simp only [first, Option.getD_none, handle]
            exact steady old (by simp) norm

/-- What a forward pass leaves alone of a stage is in `base`. -/
structure Fixed (base : Multiset Handle) (stage : ModuleStage) : Prop where
  weights : ∀ weight ∈ stage.weights, weight.handle ∈ base
  buffers : ∀ buffer ∈ stage.buffers, buffer.batchNorm = false →
    buffer.handle ∈ base

namespace Fixed

variable {base more : Multiset Handle} {stage after : ModuleStage}

theorem mono (fixed : Fixed base stage)
    (fewer : ∀ handle ∈ base, handle ∈ more) : Fixed more stage :=
  ⟨fun weight member => fewer _ (fixed.weights weight member),
    fun buffer member steady => fewer _ (fixed.buffers buffer member steady)⟩

theorem replaced {limit : Handle} (fixed : Fixed base stage)
    (replaced : StageReplaced limit stage after) : Fixed base after := by
  refine ⟨by rw [replaced.weights]; exact fixed.weights, ?_⟩
  intro buffer member steady
  obtain ⟨old, listed, same⟩ :=
    Dataflow.exists_left_of_forall₂ replaced.buffers member
  rw [same.batchNorm] at steady
  have kept := same.handle
  rw [if_neg (by simp [steady])] at kept
  rw [kept]
  exact fixed.buffers old listed steady

theorem stateHandles (fixed : Fixed base stage)
    (snapshot : List (Nat × Handle)) :
    ∀ entry ∈ stage.stateHandles snapshot,
      entry.2 ∈ base + stage.handles +
        (snapshot.map Prod.snd : List Handle) := by
  intro entry member
  simp only [Multiset.mem_add, Multiset.mem_coe]
  rcases List.mem_append.mp member with listed | listed
  · obtain ⟨weight, inside, rfl⟩ := List.mem_map.mp listed
    exact .inl (.inl (fixed.weights weight inside))
  · obtain ⟨buffer, inside, rfl⟩ := List.mem_map.mp listed
    cases looked : snapshot.lookup buffer.name with
    | none =>
        rw [Option.getD_none]
        cases norm : buffer.batchNorm with
        | false => exact .inl (.inl (fixed.buffers buffer inside norm))
        | true => exact .inl (.inr (mem_normHandles inside norm))
    | some handle =>
        obtain ⟨_, _, whole, _⟩ := List.lookup_eq_some_iff.mp looked
        refine .inr (List.mem_map.mpr ⟨(buffer.name, handle), ?_, rfl⟩)
        rw [whole]
        simp

end Fixed

/-- A forward pass over a stage: its state is as before, and afterwards its
BatchNorm buffers and the snapshots of them are new. -/
theorem runStage_spec (save : Bool) {stage : ModuleStage}
    {store : HandleStore τ} {others : Multiset Handle} {limit : Handle}
    (owned : store.handles = stage.handles + others)
    (fixed : Fixed others stage) (reached : limit ≤ store.next) :
    ∃ snapshot copied,
      takeSnapshot save stage.buffers store = some (snapshot, copied) ∧
      stage.state [] copied = stage.state [] store ∧
      ∀ mutated,
        (stage.replace mutated copied).2.handles =
            (stage.replace mutated copied).1.handles +
              (others + (snapshot.map Prod.snd : List Handle)) ∧
          Keeps others store (stage.replace mutated copied).2 ∧
          StageReplaced limit stage (stage.replace mutated copied).1 ∧
          (save = true → (stage.replace mutated copied).1.state snapshot
            (stage.replace mutated copied).2 = stage.state [] store) := by
  have held : ∀ entry ∈ stage.stateHandles [],
      entry.2 ∈ store.handles := by
    intro entry member
    have inside := fixed.stateHandles [] entry member
    rw [owned]
    simp only [Multiset.mem_add, List.map_nil, Multiset.coe_nil,
      Multiset.notMem_zero, or_false] at inside ⊢
    tauto
  have live : ∀ buffer ∈ stage.buffers, buffer.handle ∈ store.handles := by
    intro buffer member
    refine held (buffer.name, buffer.handle) ?_
    rw [ModuleStage.stateHandles_nil]
    exact List.mem_append_right _ (List.mem_map_of_mem member)
  obtain ⟨snapshot, copied, taken, grown, keepsCopied, snaps⟩ :=
    takeSnapshot_spec save live
  refine ⟨snapshot, copied, taken,
    ModuleStage.state_keeps keepsCopied held, ?_⟩
  intro mutated
  have ownedCopied : copied.handles = normHandles stage.buffers +
      (others + (snapshot.map Prod.snd : List Handle)) := by
    rw [grown, owned, ModuleStage.handles]
    ac_rfl
  obtain ⟨total, keepsAfter, related⟩ := replaceBuffers_spec mutated
    ownedCopied (reached.trans keepsCopied.grows)
  have keeps : Keeps others store (stage.replace mutated copied).2 := by
    refine (keepsCopied.mono ?_).trans (keepsAfter.mono ?_)
    · intro handle member
      rw [owned]
      exact Multiset.mem_add.mpr (.inr member)
    · intro handle member
      exact Multiset.mem_add.mpr (.inl member)
  have replaced : StageReplaced limit stage
      (stage.replace mutated copied).1 := ⟨rfl, related⟩
  refine ⟨total, keeps, replaced, ?_⟩
  intro saved
  apply state_replays replaced
  · intro weight member
    exact keeps.same _ (fixed.weights weight member)
  · intro buffer member
    have first := snaps saved buffer member
    split
    · rename_i norm
      rw [if_pos norm] at first
      obtain ⟨handle, listed, looked, restored⟩ := first
      refine ⟨handle, listed, looked, ?_⟩
      rw [← restored]
      exact keepsAfter.same handle
        (Multiset.mem_add.mpr (.inr (Multiset.mem_coe.mpr listed)))
    · rename_i norm
      rwa [if_neg norm] at first
  · intro buffer member steady
    exact keeps.same _ (fixed.buffers buffer member steady)

/-- What `execute` has established before a group, with the chunks `front`
behind it.  `base` are the handles of weights and of others. -/
structure Reached (graph : FxGraph γ σ) (chunks : List (List FxNode))
    (final : NodeName → Option (Value τ γ σ))
    (states : Nat → ModuleState τ) (base : Multiset Handle)
    (origin : HandleStore τ) (save : Bool) (front : List (List FxNode))
    (done later : List ModuleStage) (running : Running τ γ σ) : Prop where
  valid : running.tape.Valid final running.store
    (base + stageHandles done + stageHandles later +
      snapshotHandles running.tape.buffers)
  grown : Keeps (base + stageHandles later) origin running.store
  keys : ∀ name ∈ running.tape.values,
    name ∈ graph.placeholders ++ graph.outputsOf front
  available : ∀ name ∈ graph.placeholders ++ graph.outputsOf front,
    (save = true ∨ ∃ index ∈ (graph.makeIr chunks).consumers name,
      front.length ≤ index) → name ∈ running.tape.values
  count : ∀ name, running.remaining name =
    ((graph.makeIr chunks).consumers name).countP (front.length ≤ ·)
  stages : done.length = front.length
  snapshots : running.tape.buffers.length = front.length
  replays : save = true → ∀ index stage snapshot,
    done[index]? = some stage →
    running.tape.buffers[index]? = some snapshot →
      stage.state snapshot running.store = some (states index) ∧
        ∀ entry ∈ stage.stateHandles snapshot,
          entry.2 ∈ base + stageHandles done +
            snapshotHandles running.tape.buffers

@[simp] theorem stageHandles_cons (stage : ModuleStage)
    (stages : List ModuleStage) :
    stageHandles (stage :: stages) = stage.handles + stageHandles stages := by
  simp [stageHandles]

theorem mem_stageHandles {stages : List ModuleStage} {stage : ModuleStage}
    (listed : stage ∈ stages) {handle : Handle}
    (owns : handle ∈ stage.handles) : handle ∈ stageHandles stages := by
  induction stages with
  | nil => cases listed
  | cons first stages ih =>
      rw [stageHandles_cons, Multiset.mem_add]
      rcases List.mem_cons.mp listed with rfl | listed
      · exact .inl owns
      · exact .inr (ih listed)

@[simp] theorem stageHandles_snoc (stages : List ModuleStage)
    (stage : ModuleStage) :
    stageHandles (stages ++ [stage]) = stageHandles stages + stage.handles := by
  simp [stageHandles]

@[simp] theorem snapshotHandles_snoc (buffers : List (List (Nat × Handle)))
    (snapshot : List (Nat × Handle)) :
    snapshotHandles (buffers ++ [snapshot]) =
      snapshotHandles buffers + (snapshot.map Prod.snd : List Handle) := by
  simp [snapshotHandles]

/-- One group fewer is left to consume what the group at `index` reads. -/
theorem countP_consumers {consumers : List Nat} (distinct : consumers.Nodup)
    (index : Nat) :
    consumers.countP (index ≤ ·) =
      consumers.countP (index + 1 ≤ ·) + if index ∈ consumers then 1 else 0 := by
  induction consumers with
  | nil => rfl
  | cons consumer consumers ih =>
      rw [List.nodup_cons] at distinct
      rw [List.countP_cons, List.countP_cons, ih distinct.2]
      by_cases same : index = consumer
      · subst same
        simp [distinct.1]
      · have split : index ≤ consumer ↔ index + 1 ≤ consumer := by omega
        by_cases more : index + 1 ≤ consumer
        · simp only [List.mem_cons, same, false_or, decide_eq_true_eq,
            split, more, if_true]
          omega
        · simp only [List.mem_cons, same, false_or, decide_eq_true_eq,
            split, more, if_false]
          omega

section Group

variable {operators : Operators τ γ σ} {graph : FxGraph γ σ}
  {chunks front back : List (List FxNode)} {chunk : List FxNode}
  {states : Nat → ModuleState τ} {base : Multiset Handle}
  {origin : HandleStore τ} {save : Bool} {done later : List ModuleStage}
  {stage : ModuleStage} {running : Running τ γ σ}

theorem reads_iff_consumer (split : chunks = front ++ chunk :: back)
    {name : NodeName} :
    name ∈ (graph.makeGroup chunk).inputs ↔
      front.length ∈ (graph.makeIr chunks).consumers name := by
  rw [FxGraph.mem_consumers, split]
  simp

theorem Reached.consumes
    (reached : Reached graph chunks final states base origin save front done
      later running)
    (chunking : graph.Chunking chunks)
    (split : chunks = front ++ chunk :: back) {name : NodeName}
    (declared : name ∈ (graph.makeGroup chunk).inputs) :
    name ∈ running.tape.values :=
  reached.available name (FxGraph.inputs_available chunking split declared)
    (.inr ⟨_, (reads_iff_consumer split).mp declared, Nat.le_refl _⟩)

theorem outputs_apart (chunking : graph.Chunking chunks)
    (split : chunks = front ++ chunk :: back) :
    (graph.makeGroup chunk).outputs.Nodup ∧
      ∀ name ∈ graph.placeholders ++ graph.outputsOf front,
        name ∉ (graph.makeGroup chunk).outputs := by
  have distinct := FxGraph.boundary_nodup chunking
  rw [split, FxGraph.outputsOf, List.flatMap_append, List.flatMap_cons,
    ← List.append_assoc] at distinct
  obtain ⟨_, later, apart⟩ := List.nodup_append.mp distinct
  refine ⟨(List.nodup_append.mp later).1, ?_⟩
  intro name before produced
  exact apart name before name (List.mem_append_left _ produced) rfl

theorem zip_spec {names : List NodeName} {values : List (Value τ γ σ)}
    (collected : names.mapM final = some values) :
    (names.zip values).map Prod.fst = names ∧
      ∀ entry ∈ names.zip values, final entry.1 = some entry.2 := by
  have matched := Dataflow.mapM_eq_some.mp collected
  refine ⟨List.map_fst_zip matched.length_eq.le, ?_⟩
  intro entry member
  exact (List.forall₂_iff_zip.mp matched).2 member

theorem Reached.counted {next : NodeName → Nat}
    (reached : Reached graph chunks final states base origin save front done
      later running)
    (split : chunks = front ++ chunk :: back)
    (remaining : ∀ name, next name =
      if name ∈ (graph.makeGroup chunk).inputs then running.remaining name - 1
      else running.remaining name) (name : NodeName) :
    next name = ((graph.makeIr chunks).consumers name).countP
      (front.length + 1 ≤ ·) := by
  have before := reached.count name
  rw [countP_consumers FxGraph.consumers_nodup front.length] at before
  rw [remaining name]
  by_cases declared : name ∈ (graph.makeGroup chunk).inputs
  · rw [if_pos ((reads_iff_consumer split).mp declared)] at before
    rw [if_pos declared]
    exact Nat.sub_eq_of_eq_add before
  · rw [if_neg ((reads_iff_consumer split).not.mp declared)] at before
    rw [if_neg declared]
    exact before

/-- A further stage is done, and the backward pass will find the states of all
of them. -/
theorem Reached.replays_snoc {after : ModuleStage}
    {snapshot : List (Nat × Handle)} {next : HandleStore τ}
    (reached : Reached graph chunks final states base origin save front done
      later running)
    (keeps : Keeps (base + stageHandles done +
      snapshotHandles running.tape.buffers) running.store next)
    (state : save = true →
      after.state snapshot next = some (states front.length))
    (fixed : Fixed base after) (saved : save = true) {index : Nat}
    {stage : ModuleStage} {taken : List (Nat × Handle)}
    (found : (done ++ [after])[index]? = some stage)
    (snapped : (running.tape.buffers ++ [snapshot])[index]? = some taken) :
    stage.state taken next = some (states index) ∧
      ∀ entry ∈ stage.stateHandles taken,
        entry.2 ∈ base + stageHandles (done ++ [after]) +
          snapshotHandles (running.tape.buffers ++ [snapshot]) := by
  rcases Nat.lt_trichotomy index front.length with before | last | beyond
  · rw [List.getElem?_append_left (by rwa [reached.stages])] at found
    rw [List.getElem?_append_left (by rwa [reached.snapshots])] at snapped
    obtain ⟨same, listed⟩ :=
      reached.replays saved index stage taken found snapped
    refine ⟨?_, ?_⟩
    · rw [← same]
      exact ModuleStage.state_keeps keeps listed
    · intro entry member
      have before := listed entry member
      simp only [stageHandles_snoc, snapshotHandles_snoc,
        Multiset.mem_add] at before ⊢
      tauto
  · subst last
    rw [← reached.stages, List.getElem?_concat_length] at found
    rw [← reached.snapshots, List.getElem?_concat_length] at snapped
    cases found
    cases snapped
    refine ⟨state saved, ?_⟩
    intro entry member
    have inside := fixed.stateHandles snapshot entry member
    simp only [stageHandles_snoc, snapshotHandles_snoc,
      Multiset.mem_add] at inside ⊢
    tauto
  · rw [List.getElem?_eq_none (by simp [reached.stages]; omega)] at found
    cases found

theorem Reached.stage_spec (fixed : Fixed base stage)
    (state : stage.state [] origin = some (states front.length))
    (reached : Reached graph chunks final states base origin save front done
      (stage :: later) running) (arguments : List (Value τ γ σ)) :
    ∃ snapshot copied,
      takeSnapshot save stage.buffers running.store =
        some (snapshot, copied) ∧
      stage.state [] copied = some (states front.length) ∧
      let after := stage.replace
        (operators.mutate front.length (states front.length) arguments) copied
      let tape : Tape γ σ :=
        { running.tape with buffers := running.tape.buffers ++ [snapshot] }
      tape.Valid final after.2 (base + stageHandles (done ++ [after.1]) +
        stageHandles later + snapshotHandles tape.buffers) ∧
      Keeps (base + stageHandles done + stageHandles later +
        snapshotHandles running.tape.buffers) running.store after.2 ∧
      StageReplaced origin.next stage after.1 ∧
      (save = true →
        after.1.state snapshot after.2 = some (states front.length)) := by
  have stateNow : stage.state [] running.store =
      some (states front.length) := by
    rw [← state]
    refine ModuleStage.state_keeps reached.grown ?_
    intro entry member
    have inside := fixed.stateHandles [] entry member
    simp only [stageHandles_cons, Multiset.mem_add, List.map_nil,
      Multiset.coe_nil, Multiset.notMem_zero, or_false] at inside ⊢
    tauto
  -- The handles of the other owners, before the group and without its stage.
  let others := running.tape.handles +
    (base + stageHandles done + stageHandles later +
      snapshotHandles running.tape.buffers)
  have owned : running.store.handles = stage.handles + others := by
    rw [reached.valid.owned, stageHandles_cons]
    simp only [others]
    ac_rfl
  obtain ⟨snapshot, copied, taken, sameState, replace⟩ :=
    runStage_spec save owned
      (fixed.mono (by
        intro handle member
        simp only [others, Multiset.mem_add]
        tauto))
      reached.grown.grows
  obtain ⟨total, keeps, replaced, replays⟩ := replace
    (operators.mutate front.length (states front.length) arguments)
  refine ⟨snapshot, copied, taken, sameState.trans stateNow, ?_,
    keeps.mono ?_, replaced, fun saved => (replays saved).trans stateNow⟩
  · have ownedTape : (stage.replace (operators.mutate front.length
          (states front.length) arguments) copied).2.handles =
        running.tape.handles + (base + stageHandles (done ++
          [(stage.replace (operators.mutate front.length
            (states front.length) arguments) copied).1]) +
          stageHandles later +
          snapshotHandles (running.tape.buffers ++ [snapshot])) := by
      rw [total]
      simp only [others, stageHandles_snoc, snapshotHandles_snoc]
      ac_rfl
    have framed := reached.valid.frame ownedTape (keeps.mono
      fun handle member => Multiset.mem_add.mpr (.inl member))
    exact ⟨framed.owned, framed.held⟩
  · intro handle member
    exact Multiset.mem_add.mpr (.inr member)

/-- The outputs are saved and the inputs consumed: what is stored is what the
rest of the groups will read. -/
theorem Reached.exchange_spec
    (reached : Reached graph chunks final states base origin save front done
      later running)
    (chunking : graph.Chunking chunks)
    (split : chunks = front ++ chunk :: back)
    {results : List (Value τ γ σ)}
    (produced : (graph.makeGroup chunk).outputs.mapM final = some results)
    {tape : Tape γ σ} {store : HandleStore τ} {rest : Multiset Handle}
    (valid : tape.Valid final store rest)
    (values : tape.values = running.tape.values) :
    let saved := Tape.saveAll ((graph.makeGroup chunk).outputs.zip results)
      tape store
    ∃ next, consume save (graph.makeGroup chunk).inputs
        ⟨saved.2, saved.1, running.remaining⟩ = some next ∧
      next.tape.Valid final next.store rest ∧ Keeps rest store next.store ∧
      next.tape.buffers = tape.buffers ∧
      (∀ name, next.remaining name =
        ((graph.makeIr chunks).consumers name).countP
          (front.length + 1 ≤ ·)) ∧
      (∀ name ∈ next.tape.values,
        name ∈ graph.placeholders ++ graph.outputsOf (front ++ [chunk])) ∧
      ∀ name ∈ graph.placeholders ++ graph.outputsOf (front ++ [chunk]),
        (save = true ∨ ∃ index ∈ (graph.makeIr chunks).consumers name,
          front.length + 1 ≤ index) → name ∈ next.tape.values := by
  intro saved
  obtain ⟨distinct, apart⟩ := outputs_apart chunking split
  obtain ⟨names, known⟩ := zip_spec produced
  obtain ⟨validSaved, keepsSaved, buffersSaved, stored⟩ :=
    valid.saveAll (by rwa [names])
      (by
        intro entry member present
        rw [values] at present
        refine apart entry.1 (reached.keys entry.1 present) ?_
        rw [← names]
        exact List.mem_map_of_mem member)
      known
  rw [names, values] at stored
  obtain ⟨next, consumed, valid, keepsNext, buffers, remaining, kept,
    available⟩ := @consume_spec _ _ _ _ save _
      ⟨_, _, running.remaining⟩ _ validSaved
      (@FxGraph.inputs_nodup _ _ graph chunk)
      (fun name declared => (stored name).mpr
        (.inl (reached.consumes chunking split declared)))
  have counted := reached.counted split remaining
  refine ⟨next, consumed, valid, keepsSaved.trans keepsNext,
    buffers.trans buffersSaved, counted, ?_, ?_⟩
  · intro name listed
    rw [FxGraph.outputsOf, List.flatMap_append, ← List.append_assoc]
    rcases (stored name).mp (kept name listed) with old | new
    · exact List.mem_append_left _ (reached.keys name old)
    · exact List.mem_append_right _ (by simpa using new)
  · intro name listed needed
    refine available name ((stored name).mpr ?_) ?_
    · rw [FxGraph.outputsOf, List.flatMap_append, ← List.append_assoc]
        at listed
      rcases List.mem_append.mp listed with old | new
      · refine .inl (reached.available name old (needed.imp_right ?_))
        intro more
        obtain ⟨index, consumer, later⟩ := more
        exact ⟨index, consumer, by omega⟩
      · exact .inr (by simpa using new)
    · refine needed.imp_right fun more => .inr ?_
      obtain ⟨index, consumer, later⟩ := more
      rw [counted name, ← Nat.pos_iff_ne_zero, List.countP_pos_iff]
      exact ⟨index, consumer, by simpa using later⟩

theorem executeGroup_spec (chunking : graph.Chunking chunks)
    (split : chunks = front ++ chunk :: back)
    (solves : Dataflow.Solves FxNode.name FxNode.inputs
      (operators.apply front.length (states front.length)) final chunk)
    (fixed : Fixed base stage)
    (state : stage.state [] origin = some (states front.length))
    (reached : Reached graph chunks final states base origin save front done
      (stage :: later) running) :
    ∃ next after,
      executeGroup operators save front.length (graph.makeGroup chunk) stage
          running = some (next, after) ∧
        Reached graph chunks final states base origin save
          (front ++ [chunk]) (done ++ [after]) later next ∧
        StageReplaced origin.next stage after := by
  obtain ⟨arguments, read, collected⟩ := reached.valid.restoreAll
    fun name declared => reached.consumes chunking split declared
  obtain ⟨results, called, produced⟩ :=
    functionalCall_spec chunking split solves collected
  obtain ⟨snapshot, copied, taken, sameState, validTape, keepsStage, replaced,
    replays⟩ := @Reached.stage_spec _ _ _ _ operators _ _ _ _ _ _ _ _ _ _ _
      fixed state reached arguments
  obtain ⟨next, consumed, valid, keepsNext, buffers, counted, keys,
    available⟩ := reached.exchange_spec chunking split produced validTape rfl
  have keeps : Keeps (base + stageHandles done + stageHandles later +
      snapshotHandles running.tape.buffers) running.store next.store := by
    refine keepsStage.trans (keepsNext.mono ?_)
    intro handle member
    simp only [stageHandles_snoc, snapshotHandles_snoc,
      Multiset.mem_add] at member ⊢
    tauto
  refine ⟨next, (stage.replace (operators.mutate front.length
    (states front.length) arguments) copied).1, ?_, ?_, replaced⟩
  · simp only [executeGroup, read, taken, sameState, called,
      Option.bind_eq_bind, Option.bind_some]
    exact congrArg (Option.bind · _) consumed
  · refine ⟨?_, ?_, keys, ?_, ?_, ?_, ?_, ?_⟩
    · rw [buffers]
      exact valid
    · refine (reached.grown.mono ?_).trans (keeps.mono ?_)
      · intro handle member
        simp only [stageHandles_cons, Multiset.mem_add] at member ⊢
        tauto
      · intro handle member
        simp only [Multiset.mem_add] at member ⊢
        tauto
    · rw [List.length_append, List.length_singleton]
      exact available
    · rw [List.length_append, List.length_singleton]
      exact counted
    · simp [reached.stages]
    · simp [buffers, reached.snapshots]
    · intro saved index other snapped found looked
      rw [buffers] at looked ⊢
      have fixedAfter := fixed.replaced replaced
      refine reached.replays_snoc (keeps.mono ?_) ?_ fixedAfter saved found
        looked
      · intro handle member
        simp only [Multiset.mem_add] at member ⊢
        tauto
      · intro saved
        rw [← replays saved]
        refine ModuleStage.state_keeps keepsNext ?_
        intro entry member
        have inside := fixedAfter.stateHandles snapshot entry member
        simp only [stageHandles_snoc, snapshotHandles_snoc,
          Multiset.mem_add] at inside ⊢
        tauto

theorem executeGroups_spec
    (chunking : graph.Chunking chunks) (split : chunks = front ++ back)
    (solves : ∀ index chunk, chunks[index]? = some chunk →
      Dataflow.Solves FxNode.name FxNode.inputs
        (operators.apply index (states index)) final chunk)
    (lengths : later.length = back.length)
    (fixed : ∀ stage ∈ later, Fixed base stage)
    (loaded : ∀ index stage, later[index]? = some stage →
      stage.state [] origin = some (states (front.length + index)))
    (reached : Reached graph chunks final states base origin save front done
      later running) :
    ∃ next after,
      executeGroups operators save front.length
          ((back.map graph.makeGroup).zip later) running =
        some (next, after) ∧
      Reached graph chunks final states base origin save chunks
        (done ++ after) [] next ∧
      List.Forall₂ (StageReplaced origin.next) later after := by
  induction back generalizing front done later running with
  | nil =>
      obtain rfl := List.length_eq_zero_iff.mp lengths
      rw [List.append_nil] at split
      subst split
      exact ⟨running, [], rfl, by simpa using reached, .nil⟩
  | cons chunk back ih =>
      cases later with
      | nil => cases lengths
      | cons stage later =>
          have solved := solves front.length chunk (by simp [split])
          have state := loaded 0 stage rfl
          rw [Nat.add_zero] at state
          obtain ⟨middle, first, ran, reached, replaced⟩ :=
            executeGroup_spec chunking split solved
              (fixed stage (by simp)) state reached
          obtain ⟨next, after, rest, reached, related⟩ :=
            @ih (front ++ [chunk]) (done ++ [first]) later middle
              (by simp [split]) (by simpa using lengths)
              (fun other member =>
                fixed other (List.mem_cons_of_mem _ member))
              (by
                intro index other found
                have offset := loaded (index + 1) other (by simpa using found)
                rw [List.length_append, List.length_singleton,
                  Nat.add_assoc, Nat.add_comm 1]
                exact offset)
              reached
          rw [List.length_append, List.length_singleton] at rest
          refine ⟨next, first :: after, ?_, by simpa using reached,
            .cons replaced related⟩
          simp only [List.map_cons, List.zip_cons_cons, executeGroups, ran,
            rest, Option.bind_eq_bind, Option.bind_some]

/-- The handles of the stages are live, and those of BatchNorm buffers are
apart from all others. -/
structure Loaded (stages : List ModuleStage) (base : Multiset Handle)
    (store : HandleStore τ) : Prop where
  owned : store.handles = base + stageHandles stages
  fixed : ∀ stage ∈ stages, Fixed base stage

theorem readOutput_eq {read : NodeName → Option (Value τ γ σ)}
    {output : Tree (OutputLeaf γ) σ}
    (same : ∀ name, .node name ∈ output.leaves → read name = final name) :
    readOutput output read = readOutput output final := by
  have leaves : output.leaves.mapM (resultLeaf read) =
      output.leaves.mapM (resultLeaf final) := by
    apply Dataflow.mapM_congr
    intro leaf member
    cases leaf with
    | node name => simp [resultLeaf, same name member]
    | constant value => rfl
  simp [readOutput, leaves]

theorem readOutput_total {output : Tree (OutputLeaf γ) σ}
    (defined : ∀ name, .node name ∈ output.leaves →
      ∃ value, final name = some value) :
    ∃ result, readOutput output final = some result := by
  obtain ⟨leaves, collected⟩ :
      ∃ leaves, output.leaves.mapM (resultLeaf final) = some leaves := by
    apply Dataflow.mapM_total
    intro leaf member
    cases leaf with
    | node name =>
        obtain ⟨value, found⟩ := defined name member
        exact ⟨.value value, by simp [resultLeaf, found]⟩
    | constant value => exact ⟨_, rfl⟩
  exact ⟨⟨leaves, output.spec⟩, by simp [readOutput, collected]⟩

theorem Reached.returned
    (reached : Reached graph chunks final states base origin save chunks done
      later running)
    (chunking : graph.Chunking chunks) {name : NodeName}
    (listed : .node name ∈ graph.output.leaves) :
    running.tape.restore running.store name = final name ∧
      ∃ value, final name = some value := by
  have returned := FxGraph.returns_iff.mpr listed
  apply reached.valid.restore
  refine reached.available name
    (FxGraph.returned_available chunking returned)
    (.inr ⟨chunks.length, ?_, Nat.le_refl _⟩)
  exact FxGraph.mem_consumers.mpr (.inr ⟨rfl, returned⟩)

/-- The forward pass succeeds, computes the values of `final`, and owns what it
has stored. -/
theorem execute_spec {stages : List ModuleStage}
    {inputs : List (Value τ γ σ)} {store : HandleStore τ}
    (chunking : graph.Chunking chunks)
    (solves : ∀ index chunk, chunks[index]? = some chunk →
      Dataflow.Solves FxNode.name FxNode.inputs
        (operators.apply index (states index)) final chunk)
    (given : graph.placeholders.mapM final = some inputs)
    (lengths : stages.length = chunks.length)
    (loaded : Loaded stages base store)
    (state : ∀ index stage, stages[index]? = some stage →
      stage.state [] store = some (states index)) :
    ∃ executed remaining,
      execute operators (graph.makeIr chunks) stages save inputs store =
        some executed ∧
      readOutput graph.output final = some executed.result ∧
      Reached graph chunks final states base store save chunks
        executed.stages [] ⟨executed.store, executed.tape, remaining⟩ ∧
      List.Forall₂ (StageReplaced store.next) stages executed.stages := by
  obtain ⟨names, values⟩ := zip_spec given
  have empty : (⟨∅, []⟩ : Tape γ σ).Valid final store
      (base + stageHandles stages) :=
    ⟨by rw [loaded.owned]; simp [Tape.handles, Table.sum], by simp⟩
  obtain ⟨valid, keeps, buffers, stored⟩ := empty.saveAll
    (by rw [names]; exact graph.distinct) (by simp) values
  rw [names] at stored
  let opened := Tape.saveAll (graph.placeholders.zip inputs) ⟨∅, []⟩ store
  have none : opened.1.buffers = [] := buffers
  have reached : Reached graph chunks final states base store save [] []
      stages ⟨opened.2, opened.1, fun name =>
        ((graph.makeIr chunks).consumers name).length⟩ := by
    refine ⟨?_, keeps, ?_, ?_, ?_, rfl, ?_, (by intros; contradiction)⟩
    · simpa [none, stageHandles, snapshotHandles] using valid
    · intro name listed
      simpa [FxGraph.outputsOf] using (stored name).mp listed
    · intro name listed _
      exact (stored name).mpr (.inr (by simpa [FxGraph.outputsOf] using listed))
    · intro name
      simp
    · simp [none]
  obtain ⟨next, after, ran, reached, related⟩ :=
    executeGroups_spec chunking rfl solves lengths loaded.fixed
      (by simpa using state) reached
  rw [List.nil_append] at reached
  have returned := fun name listed =>
    @Reached.returned _ _ _ _ _ _ _ _ _ _ _ _ _ reached chunking name listed
  obtain ⟨result, output⟩ := readOutput_total fun name listed =>
    (returned name listed).2
  refine ⟨⟨result, next.tape, after, next.store⟩, next.remaining, ?_, output,
    reached, related⟩
  have arity : inputs.length = graph.placeholders.length :=
    (Dataflow.mapM_eq_some.mp given).length_eq.symm
  have same : readOutput graph.output (next.tape.restore next.store) =
      some result := by
    rw [← output]
    exact readOutput_eq fun name listed => (returned name listed).1
  have groups : (graph.makeIr chunks).groups = chunks.map graph.makeGroup :=
    rfl
  have frontend : (graph.makeIr chunks).frontend = graph := rfl
  simp only [execute, groups, frontend, arity, lengths, List.length_map,
    guard_true, Option.bind_eq_bind]
  rw [List.length_nil] at ran
  exact (congrArg (Option.bind · _) ran).trans
    (congrArg (Option.bind · _) same)

theorem Loaded.state {stages : List ModuleStage} {store : HandleStore τ}
    (loaded : Loaded stages base store) (listed : stage ∈ stages) :
    ∃ state, stage.state [] store = some state := by
  apply Dataflow.mapM_total
  intro entry member
  have inside := (loaded.fixed stage listed).stateHandles [] entry member
  have live : entry.2 ∈ store.handles := by
    rw [loaded.owned]
    rcases Multiset.mem_add.mp inside with inside | none
    · rcases Multiset.mem_add.mp inside with weight | buffer
      · exact Multiset.mem_add.mpr (.inl weight)
      · exact Multiset.mem_add.mpr (.inr (mem_stageHandles listed buffer))
    · simp at none
  obtain ⟨value, found⟩ := HandleStore.restore_total live
  exact ⟨(entry.1, value), by simp [found]⟩

def stateOf (stages : List ModuleStage) (store : HandleStore τ)
    (index : Nat) : ModuleState τ :=
  (stages[index]?.bind fun stage => stage.state [] store).getD []

theorem Loaded.stateOf {stages : List ModuleStage} {store : HandleStore τ}
    (loaded : Loaded stages base store) (index : Nat) (stage : ModuleStage)
    (found : stages[index]? = some stage) :
    stage.state [] store = some (stateOf stages store index) := by
  obtain ⟨state, total⟩ := loaded.state (List.mem_of_getElem? found)
  simp [GraphRuntime.stateOf, found, total]

theorem mapM_bind {names : List NodeName} {values : List (Value τ γ σ)}
    (distinct : names.Nodup) (arity : values.length = names.length) :
    names.mapM (bind names values) = some values := by
  induction names generalizing values with
  | nil =>
      obtain rfl := List.length_eq_zero_iff.mp arity
      rfl
  | cons name names ih =>
      cases values with
      | nil => cases arity
      | cons value values =>
          rw [List.nodup_cons] at distinct
          have rest : names.mapM (bind (name :: names) (value :: values)) =
              names.mapM (bind names values) := by
            apply Dataflow.mapM_congr
            intro other listed
            have different : other ≠ name := by
              rintro rfl
              exact distinct.1 listed
            rw [bind, bind, List.zip_cons_cons, List.lookup_cons,
              beq_false_of_ne different]
          rw [List.mapM_cons, rest, ih distinct.2 (by simpa using arity)]
          simp [bind]

theorem solution_exists {ν : Type} (apply : ν → List (Value τ γ σ) →
      Value τ γ σ) (node : ν → FxNode) {nodes : List ν}
    (labels : nodes.map node = graph.nodes) {inputs : List (Value τ γ σ)}
    (arity : inputs.length = graph.placeholders.length) :
    ∃ final,
      Dataflow.eval (fun label => (node label).name)
          (fun label => (node label).inputs) apply nodes
          (bind graph.placeholders inputs) = some final ∧
        Dataflow.Solves (fun label => (node label).name)
          (fun label => (node label).inputs) apply final nodes ∧
        graph.placeholders.mapM final = some inputs := by
  have given := mapM_bind graph.distinct arity
  have ordered : Dataflow.Ordered (fun label => (node label).name)
      (fun label => (node label).inputs) graph.placeholders nodes := by
    have whole := graph.ordered
    rwa [← labels, Dataflow.ordered_map] at whole
  have defined : ∀ name ∈ graph.placeholders,
      ∃ value, bind graph.placeholders inputs name = some value :=
    Dataflow.defined_of_mapM given
  obtain ⟨final, ran, solves⟩ := Dataflow.eval_ordered ordered defined
  refine ⟨final, ran, solves, ?_⟩
  rw [← given]
  apply Dataflow.mapM_congr
  intro name listed
  apply Dataflow.eval_frame ran
  intro redefined
  obtain ⟨other, member, rfl⟩ := List.mem_map.mp redefined
  exact ordered.names.2 other member listed

/-- Whatever the cuts, running the groups gives what the graph gives node by
node, and no group misses a value. -/
theorem grouped_execution (graph : FxGraph γ σ)
    (apply : FxNode → List (Value τ γ σ) → Value τ γ σ)
    (mutate : Nat → ModuleState τ → List (Value τ γ σ) → Nat → τ)
    (budget : Option Nat) (maxNodes : Nat) (splits : List Nat) (save : Bool)
    {stages : List ModuleStage} {inputs : List (Value τ γ σ)}
    {store : HandleStore τ}
    (arity : inputs.length = graph.placeholders.length)
    (lengths : stages.length =
      (graph.chunksOf budget maxNodes splits).length)
    (loaded : Loaded stages base store) :
    ∃ executed,
      execute ⟨fun _ _ => apply, mutate⟩
          (graph.makeIr (graph.chunksOf budget maxNodes splits)) stages save
          inputs store = some executed ∧
        evaluate apply graph inputs = some executed.result := by
  have chunking := graph.chunksOf_chunking budget maxNodes splits
  obtain ⟨final, ran, solves, given⟩ :=
    solution_exists apply (fun node => node) (List.map_id _) arity
  obtain ⟨executed, remaining, executes, result, _, _⟩ :=
    @execute_spec _ _ _ final ⟨fun _ _ => apply, mutate⟩ graph _
      (stateOf stages store) base save stages inputs store chunking
      (by
        intro index chunk found node member
        apply solves
        rw [← chunking]
        exact List.mem_flatten.mpr
          ⟨chunk, List.mem_of_getElem? found, member⟩)
      given lengths loaded loaded.stateOf
  refine ⟨executed, executes, ?_⟩
  rw [← result]
  exact congrArg (Option.bind · _) ran

end Group

/-! A graph with a skip, a dead node and a placeholder that is returned. -/

def skipGraph : FxGraph Nat Unit where
  placeholders := [0]
  nodes := [⟨1, [0], 16⟩, ⟨2, [1], 0⟩, ⟨3, [1, 2], 16⟩, ⟨4, [2], 0⟩]
  output := ⟨[.node 3, .constant 7, .node 0], ()⟩
  distinct := by decide
  ordered := by decide
  known := by
    intro leaf member name same
    subst same
    simp at member
    rcases member with rfl | rfl <;> decide

def skipApply (_ : FxNode) (arguments : List (Value Nat Nat Unit)) :
    Value Nat Nat Unit :=
  let tensors := (arguments.flatMap Tree.leaves).filterMap fun
    | .tensor value => some value
    | _ => none
  ⟨[.tensor (tensors.sum + 1)], ()⟩

def skipStore : HandleStore Nat :=
  ((HandleStore.offload 20 (HandleStore.offload 10
    ⟨∅, 0, by simp⟩).2)).2

def skipStages : List ModuleStage :=
  [⟨[⟨0, 0, true⟩], [⟨1, 1, true⟩], by decide⟩, ⟨[], [], by decide⟩,
    ⟨[], [], by decide⟩, ⟨[], [], by decide⟩]

theorem skip_loaded : Loaded skipStages {0} skipStore := by
  refine ⟨by decide, ?_⟩
  intro stage member
  simp only [skipStages, List.mem_cons, List.not_mem_nil, or_false] at member
  rcases member with rfl | rfl | rfl | rfl <;> exact ⟨by decide, by decide⟩

theorem grouped_execution_skip :
    ∃ executed,
      execute ⟨fun _ _ => skipApply, fun _ _ _ _ => 30⟩
          (skipGraph.makeIr (skipGraph.chunksOf none 12 [2])) skipStages
          false [⟨[.tensor 5], ()⟩] skipStore = some executed ∧
        evaluate skipApply skipGraph [⟨[.tensor 5], ()⟩] =
          some executed.result :=
  grouped_execution skipGraph skipApply (fun _ _ _ _ => 30) none 12 [2] false
    rfl (by decide) skip_loaded

end GraphRuntime

end TrainPool
