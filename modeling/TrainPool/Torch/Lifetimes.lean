import Mathlib.Algebra.Order.Sub.Unbundled.Basic
import TrainPool.Torch.Backward

namespace TrainPool

open HandleStore

variable {τ γ σ : Type}

/-! The handles that a forward pass and its backward pass leave behind. -/

/-- What the module of a group declares.  A buffer is marked when a BatchNorm
module registers it. -/
structure Declared where
  parameters : List Nat
  buffers : List (Nat × Bool)
  distinct : (buffers.map Prod.fst).Nodup

namespace GraphRuntime

/-- The dictionaries of all records merged; the last record wins. -/
def weightHandle (stages : List ModuleStage) (name : Nat) : Option Handle :=
  ((stages.flatMap ModuleStage.weights).reverse.find?
    (·.name = name)).map Weight.handle

def bufferHandle (stages : List ModuleStage) (name : Nat) : Option Handle :=
  ((stages.flatMap ModuleStage.buffers).reverse.find?
    (·.name = name)).map Buffer.handle

def isTrainable (stages : List ModuleStage) (name : Nat) : Bool :=
  (stages.flatMap ModuleStage.weights).any fun weight =>
    weight.name = name && weight.trainable

/-- The record of a group after `_repartition`. -/
def rebuild (stages : List ModuleStage) (declared : Declared) :
    Option ModuleStage := do
  let weights ← declared.parameters.mapM fun name =>
    (weightHandle stages name).map fun handle =>
      (⟨name, handle, isTrainable stages name⟩ : Weight)
  guard (declared.buffers.all fun buffer =>
    (bufferHandle stages buffer.1).isSome)
  some {
    weights := weights
    buffers := declared.buffers.map fun buffer =>
      ⟨buffer.1, (bufferHandle stages buffer.1).getD 0, buffer.2⟩
    distinct := by
      rw [List.map_map]
      exact declared.distinct }

/-- `_repartition`: the records of the new groups. -/
def repartition (declared : List Declared) (stages : List ModuleStage) :
    Option (List ModuleStage) :=
  declared.mapM (rebuild stages)

def fixedHandles (stage : ModuleStage) : List Handle :=
  stage.weights.map Weight.handle ++
    (stage.buffers.filter (!·.batchNorm)).map Buffer.handle

/-- No handle of a BatchNorm buffer is held a second time. -/
structure Exclusive (stages : List ModuleStage) : Prop where
  distinct : (stageHandles stages).Nodup
  apart : ∀ stage ∈ stages, ∀ handle ∈ fixedHandles stage,
    handle ∉ stageHandles stages

/-- Every BatchNorm buffer has one new handle, every parameter gradient has one
new handle, nothing else is new or gone, and the records hold live handles. -/
structure Accounted (old new : List ModuleStage) (before after : HandleStore τ)
    (produced : List ((Nat × Nat) × Handle)) : Prop where
  replaced : List.Forall₂ (StageReplaced before.next) old new
  handles : after.handles + stageHandles old =
    before.handles + stageHandles new + (produced.map Prod.snd : List Handle)
  fresh : ∀ entry ∈ produced, before.next ≤ entry.2
  held : ∀ stage ∈ new, ∀ entry ∈ stage.stateHandles [],
    entry.2 ∈ after.handles

/-- Neither a forward pass alone nor one with a backward pass misses a handle,
and both leave the handles in order. -/
structure Lifetimes (operators : Operators τ γ σ) (autograd : Autograd τ γ σ)
    (ir : GraphIR γ σ) (stages : List ModuleStage)
    (inputs : List (Value τ γ σ)) (store : HandleStore τ) : Prop where
  forward : ∃ executed,
    execute operators ir stages false inputs store = some executed ∧
      Accounted stages executed.stages store
        (executed.tape.release executed.store) []
  backward : ∃ executed,
    execute operators ir stages true inputs store = some executed ∧
      ∀ gradOutputs, gradOutputs.length = outputLeaves executed.result →
        ∃ reversed,
          reverse operators autograd ir executed.stages executed.tape
              gradOutputs executed.store = some reversed ∧
            Accounted stages executed.stages store
              (reversed.tape.release reversed.store) reversed.produced

variable {operators : Operators τ γ σ} {autograd : Autograd τ γ σ}
  {graph : FxGraph γ σ} {chunks : List (List FxNode)}
  {stages after : List ModuleStage} {inputs : List (Value τ γ σ)}
  {base : Multiset Handle} {store : HandleStore τ}
  {final : NodeName → Option (Value τ γ σ)} {states : Nat → ModuleState τ}

theorem grouped_solution (operators : Operators τ γ σ)
    (states : Nat → ModuleState τ) (chunking : graph.Chunking chunks)
    (arity : inputs.length = graph.placeholders.length) :
    ∃ final, (∀ index chunk, chunks[index]? = some chunk →
        Dataflow.Solves FxNode.name FxNode.inputs
          (operators.apply index (states index)) final chunk) ∧
      graph.placeholders.mapM final = some inputs := by
  let labelled : List (Nat × FxNode) := chunks.zipIdx.flatMap fun entry =>
    entry.1.map fun node => (entry.2, node)
  have labels : labelled.map Prod.snd = graph.nodes := by
    rw [← chunking]
    simp only [labelled, List.map_flatMap, List.map_map, Function.comp_def,
      List.map_id']
    rw [List.flatMap_def]
    simp
  obtain ⟨final, _, solves, given⟩ := solution_exists
    (fun label : Nat × FxNode =>
      operators.apply label.1 (states label.1) label.2)
    Prod.snd labels arity
  refine ⟨final, ?_, given⟩
  intro index chunk found node member
  apply solves (index, node)
  refine List.mem_flatMap.mpr ⟨(chunk, index), ?_, ?_⟩
  · exact List.mem_zipIdx_iff_getElem?.mpr found
  · exact List.mem_map_of_mem member

theorem exists_of_mem_stageHandles {handle : Handle}
    (owned : handle ∈ stageHandles stages) :
    ∃ stage ∈ stages, ∃ buffer ∈ stage.buffers,
      buffer.batchNorm = true ∧ buffer.handle = handle := by
  induction stages with
  | nil => simp [stageHandles] at owned
  | cons first stages ih =>
      rw [stageHandles_cons, Multiset.mem_add] at owned
      rcases owned with own | later
      · obtain ⟨buffer, listed, same⟩ :=
          List.mem_map.mp (Multiset.mem_coe.mp own)
        obtain ⟨member, norm⟩ := List.mem_filter.mp listed
        exact ⟨first, by simp, buffer, member, norm, same⟩
      · obtain ⟨stage, member, rest⟩ := ih later
        exact ⟨stage, List.mem_cons_of_mem _ member, rest⟩

theorem mem_stateHandles_buffer {stage : ModuleStage} {buffer : Buffer}
    (member : buffer ∈ stage.buffers) :
    (buffer.name, buffer.handle) ∈ stage.stateHandles [] :=
  List.mem_append_right _ (List.mem_map_of_mem member)

theorem mem_stateHandles_weight {stage : ModuleStage} {weight : Weight}
    (member : weight ∈ stage.weights) :
    (weight.name, weight.handle) ∈ stage.stateHandles [] :=
  List.mem_append_left _ (List.mem_map_of_mem member)

theorem Exclusive.loaded (exclusive : Exclusive stages)
    (live : ∀ stage ∈ stages, ∀ entry ∈ stage.stateHandles [],
      entry.2 ∈ store.handles) :
    Loaded stages (store.handles - stageHandles stages) store := by
  have inside : stageHandles stages ≤ store.handles := by
    rw [Multiset.le_iff_subset exclusive.distinct]
    intro handle owned
    obtain ⟨stage, member, buffer, listed, _, rfl⟩ :=
      exists_of_mem_stageHandles owned
    exact live stage member _ (mem_stateHandles_buffer listed)
  refine ⟨(tsub_add_cancel_of_le inside).symm, ?_⟩
  intro stage member
  refine ⟨?_, ?_⟩
  · intro weight listed
    rw [Multiset.mem_sub_of_nodup store.handles_nodup]
    refine ⟨live stage member _ (mem_stateHandles_weight listed),
      exclusive.apart stage member _ ?_⟩
    exact List.mem_append_left _ (List.mem_map_of_mem listed)
  · intro buffer listed steady
    rw [Multiset.mem_sub_of_nodup store.handles_nodup]
    refine ⟨live stage member _ (mem_stateHandles_buffer listed),
      exclusive.apart stage member _ (List.mem_append_right _ ?_)⟩
    exact List.mem_map_of_mem (List.mem_filter.mpr
      ⟨listed, by simp [steady]⟩)

/-- The owners of the live handles after a pass are the ones before it, with
the new stages and the parameter gradients. -/
theorem Loaded.accounted (loaded : Loaded stages base store)
    {next : HandleStore τ} {produced : List ((Nat × Nat) × Handle)}
    (replaced : List.Forall₂ (StageReplaced store.next) stages after)
    (owned : next.handles = base + stageHandles after +
      (produced.map Prod.snd : List Handle))
    (fresh : ∀ entry ∈ produced, store.next ≤ entry.2) :
    Accounted stages after store next produced where
  replaced := replaced
  handles := by
    rw [owned, loaded.owned]
    ac_rfl
  fresh := fresh
  held := by
    have fixed : ∀ stage ∈ after, Fixed base stage := by
      intro stage member
      obtain ⟨old, listed, replaced⟩ :=
        Dataflow.exists_left_of_forall₂ replaced member
      exact (loaded.fixed old listed).replaced replaced
    intro stage member entry listed
    have inside := (fixed stage member).stateHandles [] entry listed
    rw [owned]
    simp only [Multiset.mem_add, List.map_nil, Multiset.coe_nil,
      Multiset.notMem_zero, or_false] at inside ⊢
    rcases inside with inside | own
    · exact .inl (.inl inside)
    · exact .inl (.inr (mem_stageHandles member own))

theorem replaced_fresh {limit : Handle}
    (replaced : List.Forall₂ (StageReplaced limit) stages after)
    {handle : Handle} (owned : handle ∈ stageHandles after) :
    limit ≤ handle := by
  obtain ⟨new, member, buffer, listed, norm, rfl⟩ :=
    exists_of_mem_stageHandles owned
  obtain ⟨old, _, first⟩ := Dataflow.exists_left_of_forall₂ replaced member
  obtain ⟨before, _, second⟩ :=
    Dataflow.exists_left_of_forall₂ first.buffers listed
  have handle := second.handle
  rwa [← second.batchNorm, if_pos norm] at handle

theorem replaced_holds {limit : Handle}
    (replaced : List.Forall₂ (StageReplaced limit) stages after)
    {stage : ModuleStage} (member : stage ∈ stages) {handle : Handle}
    (held : handle ∈ fixedHandles stage) :
    ∃ other ∈ after, ∃ entry ∈ other.stateHandles [], entry.2 = handle := by
  obtain ⟨new, inside, first⟩ :=
    Dataflow.exists_right_of_forall₂ replaced member
  refine ⟨new, inside, ?_⟩
  rcases List.mem_append.mp held with weight | steady
  · obtain ⟨weight, listed, rfl⟩ := List.mem_map.mp weight
    refine ⟨_, mem_stateHandles_weight ?_, rfl⟩
    rw [first.weights]
    exact listed
  · obtain ⟨buffer, listed, rfl⟩ := List.mem_map.mp steady
    obtain ⟨listed, steady⟩ := List.mem_filter.mp listed
    obtain ⟨other, within, second⟩ :=
      Dataflow.exists_right_of_forall₂ first.buffers listed
    have handle := second.handle
    rw [if_neg (by simpa using steady)] at handle
    exact ⟨_, mem_stateHandles_buffer within, handle⟩

theorem Accounted.exclusive {next : HandleStore τ}
    {produced : List ((Nat × Nat) × Handle)}
    (accounted : Accounted stages after store next produced)
    (live : ∀ stage ∈ stages, ∀ entry ∈ stage.stateHandles [],
      entry.2 ∈ store.handles) : Exclusive stages := by
  -- An old handle is counted once before the pass and never among the new.
  have counted : ∀ handle ∈ stageHandles stages,
      next.handles.count handle + (stageHandles stages).count handle ≤ 1 := by
    intro handle owned
    obtain ⟨stage, member, buffer, listed, _, rfl⟩ :=
      exists_of_mem_stageHandles owned
    have stored := live stage member _ (mem_stateHandles_buffer listed)
    have old : buffer.handle < store.next :=
      store.fresh _ (mem_handles.mp stored)
    have replaced : (stageHandles after).count buffer.handle = 0 := by
      rw [Multiset.count_eq_zero]
      intro new
      exact Nat.not_le.mpr old (replaced_fresh accounted.replaced new)
    have gradients :
        (produced.map Prod.snd : Multiset Handle).count buffer.handle = 0 := by
      rw [Multiset.count_eq_zero, Multiset.mem_coe]
      intro new
      obtain ⟨entry, listed, same⟩ := List.mem_map.mp new
      exact Nat.not_le.mpr old (same ▸ accounted.fresh entry listed)
    have once := Multiset.nodup_iff_count_le_one.mp store.handles_nodup
      buffer.handle
    have total := congrArg (Multiset.count buffer.handle) accounted.handles
    simp only [Multiset.count_add, replaced, gradients] at total
    omega
  refine ⟨?_, ?_⟩
  · rw [Multiset.nodup_iff_count_le_one]
    intro handle
    by_cases owned : handle ∈ stageHandles stages
    · exact (Nat.le_add_left _ _).trans (counted handle owned)
    · rw [Multiset.count_eq_zero.mpr owned]
      exact Nat.zero_le 1
  · intro stage member handle fixed owned
    obtain ⟨other, listed, entry, held, rfl⟩ :=
      replaced_holds accounted.replaced member fixed
    have kept := Multiset.one_le_count_iff_mem.mpr
      (accounted.held other listed entry held)
    have counts := counted entry.2 owned
    have own := Multiset.one_le_count_iff_mem.mpr owned
    omega

/-- Handles are used while they are live and none is lost, exactly when no
record holds the BatchNorm buffer of another. -/
theorem lifetimes_iff_exclusive (operators : Operators τ γ σ)
    (autograd : Autograd τ γ σ) (graph : FxGraph γ σ)
    (chunking : graph.Chunking chunks)
    (arity : inputs.length = graph.placeholders.length)
    (lengths : stages.length = chunks.length)
    (live : ∀ stage ∈ stages, ∀ entry ∈ stage.stateHandles [],
      entry.2 ∈ store.handles) :
    Lifetimes operators autograd (graph.makeIr chunks) stages inputs store ↔
      Exclusive stages := by
  refine ⟨?_, ?_⟩
  · intro lifetimes
    obtain ⟨executed, _, accounted⟩ := lifetimes.forward
    exact accounted.exclusive live
  · intro exclusive
    have loaded := exclusive.loaded live
    obtain ⟨final, solves, given⟩ := grouped_solution operators
      (stateOf stages store) chunking arity
    refine ⟨?_, ?_⟩
    · obtain ⟨executed, remaining, executes, _, reached, replaced⟩ :=
        @execute_spec _ _ _ _ _ _ _ _ _ false _ _ _ chunking solves given
          lengths loaded loaded.stateOf
      refine ⟨executed, executes, loaded.accounted replaced ?_ nofun⟩
      have valid := reached.valid
      simp only [stageHandles, List.map_nil, List.sum_nil, add_zero]
        at valid
      rw [add_comm] at valid
      rw [(release_spec valid).1]
      simp [stageHandles]
    · obtain ⟨executed, remaining, executes, output, reached, replaced⟩ :=
        @execute_spec _ _ _ _ _ _ _ _ _ true _ _ _ chunking solves given
          lengths loaded loaded.stateOf
      refine ⟨executed, executes, ?_⟩
      intro gradOutputs width
      obtain ⟨reversed, reverses, _, valid, fresh, _⟩ :=
        @reverse_spec _ _ _ _ operators autograd _ _ _ _ _ _ _ _ _ _ _
          chunking solves reached output width.ge
      refine ⟨reversed, reverses, loaded.accounted replaced ?_ fresh⟩
      have owned : owners (store.handles - stageHandles stages)
          executed.stages reversed.tape.buffers reversed.produced =
            snapshotHandles reversed.tape.buffers +
              (store.handles - stageHandles stages +
                stageHandles executed.stages +
                  (reversed.produced.map Prod.snd : List Handle)) := by
        simp only [owners]
        ac_rfl
      rw [owned] at valid
      exact (release_spec valid).1

theorem skip_live : ∀ stage ∈ skipStages,
    ∀ entry ∈ stage.stateHandles [], entry.2 ∈ skipStore.handles := by
  decide

def skipAutograd : Autograd Nat Nat Unit where
  isFloatingPoint := fun _ => true
  requiresGrad := fun _ _ _ _ _ _ => true
  grad := fun _ _ _ outputs _ => some (outputs.map Prod.snd).sum
  add := Nat.add

theorem lifetimes_skip :
    Lifetimes ⟨fun _ _ => skipApply, fun _ _ _ _ => 30⟩ skipAutograd
      (skipGraph.makeIr (skipGraph.chunksOf none 12 [2])) skipStages
      [⟨[.tensor 5], ()⟩] skipStore :=
  (lifetimes_iff_exclusive _ _ skipGraph
    (skipGraph.chunksOf_chunking none 12 [2]) rfl (by decide)
    skip_live).mpr ⟨by decide, by decide⟩

theorem mean_distinct : ([0] : List NodeName).Nodup := by decide

theorem mean_ordered : Dataflow.Ordered FxNode.name FxNode.inputs [0]
    [⟨1, [0], 0⟩, ⟨2, [], 0⟩, ⟨3, [1, 2], 0⟩] := by
  decide

/-- A BatchNorm module, its running mean, and the difference of the two. -/
def meanGraph : FxGraph Nat Unit where
  placeholders := [0]
  nodes := [⟨1, [0], 0⟩, ⟨2, [], 0⟩, ⟨3, [1, 2], 0⟩]
  output := ⟨[.node 3], ()⟩
  distinct := mean_distinct
  ordered := mean_ordered
  known := by
    intro leaf member name same
    cases List.mem_singleton.mp member
    cases same
    decide

theorem mean_fresh : ∀ handle ∈ (∅ : Table Handle Nat), handle < 0 := by
  intro handle member
  exact absurd member (AList.notMem_empty handle)

def meanStore : HandleStore Nat := (HandleStore.offload 20 ⟨∅, 0, mean_fresh⟩).2

def meanStages : List ModuleStage := [⟨[], [⟨7, 0, true⟩], by decide⟩]

/-- The group is split between the module and the `get_attr` node; the module
that the latter is copied to is no BatchNorm module. -/
def meanDeclared : List Declared :=
  [⟨[], [(7, true)], by decide⟩, ⟨[], [(7, false)], by decide⟩]

theorem freed_while_needed :
    meanGraph.chunksOf none 12 [] = [meanGraph.nodes] ∧
      ∃ stages, repartition meanDeclared meanStages = some stages ∧
        (∀ stage ∈ stages, ∀ entry ∈ stage.stateHandles [],
          entry.2 ∈ meanStore.handles) ∧
        execute ⟨fun _ _ => skipApply, fun _ _ _ _ => 30⟩
          (meanGraph.makeIr (meanGraph.chunksOf none 12 [0])) stages false
          [⟨[.tensor 5], ()⟩] meanStore = none ∧
        ¬ Lifetimes ⟨fun _ _ => skipApply, fun _ _ _ _ => 30⟩ skipAutograd
          (meanGraph.makeIr (meanGraph.chunksOf none 12 [0])) stages
          [⟨[.tensor 5], ()⟩] meanStore := by
  refine ⟨by decide, [⟨[], [⟨7, 0, true⟩], by decide⟩,
    ⟨[], [⟨7, 0, false⟩], by decide⟩], by decide, by decide, ?_⟩
  have missing : execute ⟨fun _ _ => skipApply, fun _ _ _ _ => 30⟩
      (meanGraph.makeIr (meanGraph.chunksOf none 12 [0]))
      [⟨[], [⟨7, 0, true⟩], by decide⟩, ⟨[], [⟨7, 0, false⟩], by decide⟩]
      false [⟨[.tensor 5], ()⟩] meanStore = none := by
    rfl
  refine ⟨missing, ?_⟩
  intro lifetimes
  obtain ⟨executed, executes, _⟩ := lifetimes.forward
  rw [missing] at executes
  cases executes

end GraphRuntime

end TrainPool
