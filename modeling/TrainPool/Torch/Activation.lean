import TrainPool.Library.Table
import TrainPool.Torch.Admission

namespace TrainPool

/-! The loop of `_admit` over the graph of a group's module, and what it
computes. -/

inductive NodeOp where
  | placeholder
  | getAttr
  | callModule
  | callFunction
  | callMethod
  | output
  deriving DecidableEq, Repr

structure RegionNode where
  name : NodeName
  op : NodeOp
  inputs : List NodeName
  deriving DecidableEq, Repr

/-- A graph in topological order, with distinct names. -/
structure RegionGraph where
  nodes : List RegionNode
  ordered : Dataflow.Ordered RegionNode.name RegionNode.inputs [] nodes

structure TensorLeaf where
  numel : Nat
  elementSize : Nat
  deriving DecidableEq, Repr

/-- The bytes of a flattened result; a leaf that is no tensor counts for
nothing. -/
def leafBytes (leaves : List (Option TensorLeaf)) : Nat :=
  (leaves.reduceOption.map fun leaf => leaf.numel * leaf.elementSize).sum

namespace RegionGraph

/-- The sizes that the interpreter notes while it runs the nodes. -/
def runSizes (leaves : NodeName → List (Option TensorLeaf))
    (nodes : List RegionNode) : Table NodeName Nat :=
  nodes.foldl (fun sizes node =>
    sizes.insert node.name (leafBytes (leaves node.name))) ∅

def position (nodes : List RegionNode) (name : NodeName) : Nat :=
  nodes.findIdx fun node => node.name = name

/-- The positions of `node.users`. -/
def userPositions (nodes : List RegionNode) (name : NodeName) : List Nat :=
  (nodes.zipIdx.filter fun entry => name ∈ entry.1.inputs).map Prod.snd

/-- `max(..., default=positions[node])` -/
def lastUse (nodes : List RegionNode) (name : NodeName) : Nat :=
  (userPositions nodes name).max?.getD (position nodes name)

/-- `sizes.get(name, 0)` -/
def sizeOf (sizes : Table NodeName Nat) (name : NodeName) : Nat :=
  (sizes.lookup name).getD 0

structure Activations where
  liveSizes : Table NodeName Nat := ∅
  activationPeak : Nat := 0

def visitNode (nodes : List RegionNode) (sizes : Table NodeName Nat)
    (state : Activations) (entry : RegionNode × Nat) : Activations :=
  let liveSizes : Table NodeName Nat :=
    if entry.1.op ≠ .output then
      state.liveSizes.insert entry.1.name (sizeOf sizes entry.1.name)
    else
      state.liveSizes
  { liveSizes := liveSizes.retain fun name _ =>
      !decide (lastUse nodes name ≤ entry.2)
    activationPeak := max state.activationPeak (liveSizes.sum id) }

def activationPeak (nodes : List RegionNode) (sizes : Table NodeName Nat) :
    Nat :=
  (nodes.zipIdx.foldl (visitNode nodes sizes) {}).activationPeak

/-- The nodes, other than the output, that are live at a position: from where
they are computed to their last use. -/
def liveNodes (nodes : List RegionNode) (index : Nat) : List RegionNode :=
  nodes.filter fun node => node.op ≠ .output ∧
    position nodes node.name ≤ index ∧ index ≤ lastUse nodes node.name

def liveBytes (nodes : List RegionNode) (sizes : Table NodeName Nat)
    (index : Nat) : Nat :=
  ((liveNodes nodes index).map fun node => sizeOf sizes node.name).sum

/-! The loop runs a program of the nodes. -/

section Program

open Liveness hiding lastUse

variable {nodes front back : List RegionNode} {node : RegionNode}
  {name : NodeName}

def step (node : RegionNode) : Step NodeName :=
  ⟨if node.op = .output then none else some node.name, node.inputs⟩

theorem step_defines : (step node).defines = some name ↔
    node.op ≠ .output ∧ node.name = name := by
  simp [step]

theorem names_steps : names (nodes.map step) =
    (nodes.filter (·.op ≠ .output)).map RegionNode.name := by
  induction nodes with
  | nil => rfl
  | cons node nodes ih =>
      by_cases last : node.op = .output
      · simpa [names, step, last] using ih
      · simpa [names, step, last] using ih

theorem mem_names_steps : name ∈ names (nodes.map step) ↔
    ∃ node ∈ nodes, node.op ≠ .output ∧ node.name = name := by
  rw [names_steps, List.mem_map]
  simp [and_assoc]

theorem names_steps_nodup (distinct : (nodes.map RegionNode.name).Nodup) :
    (names (nodes.map step)).Nodup := by
  rw [names_steps]
  exact distinct.sublist (List.filter_sublist.map _)

theorem positions_steps :
    positions (nodes.map step) name = userPositions nodes name := by
  unfold positions userPositions
  rw [List.zipIdx_map, List.filter_map, List.map_map]
  rfl

theorem findIdx_congr {α : Type} {items : List α} {first second : α → Bool}
    (same : ∀ item ∈ items, first item = second item) :
    items.findIdx first = items.findIdx second := by
  induction items with
  | nil => rfl
  | cons item items ih =>
      rw [List.findIdx_cons, List.findIdx_cons, same item List.mem_cons_self,
        ih fun other member => same other (List.mem_cons_of_mem _ member)]

theorem definedAt_steps (distinct : (nodes.map RegionNode.name).Nodup)
    (defined : name ∈ names (nodes.map step)) :
    definedAt (nodes.map step) name = position nodes name := by
  obtain ⟨node, listed, inner, rfl⟩ := mem_names_steps.mp defined
  unfold definedAt position
  rw [List.findIdx_map]
  apply findIdx_congr
  intro other member
  simp only [Function.comp_apply, decide_eq_decide, step_defines]
  constructor
  · exact And.right
  · intro same
    obtain rfl := List.inj_on_of_nodup_map distinct member listed same
    exact ⟨inner, rfl⟩

theorem lastUse_steps (distinct : (nodes.map RegionNode.name).Nodup)
    (defined : name ∈ names (nodes.map step)) :
    Liveness.lastUse (nodes.map step) name = lastUse nodes name := by
  unfold Liveness.lastUse lastUse
  rw [positions_steps]
  exact congrArg _ (definedAt_steps distinct defined)

def Holds (sizes : Table NodeName Nat) (table : Table NodeName Nat)
    (live : List NodeName) : Prop :=
  table.entries.Perm (live.map fun name => ⟨name, sizeOf sizes name⟩)

variable {sizes table : Table NodeName Nat} {live : List NodeName}

theorem Holds.sum (holds : Holds sizes table live) :
    table.sum id = (live.map (sizeOf sizes)).sum := by
  have same := (holds.map fun entry => entry.2).sum_eq
  simpa [Table.sum, Function.comp_def] using same

theorem Holds.insert (holds : Holds sizes table live)
    (fresh : name ∉ live) :
    Holds sizes (table.insert name (sizeOf sizes name)) (live ++ [name]) := by
  have absent : name ∉ table.entries.keys := by
    intro found
    obtain ⟨entry, listed, rfl⟩ := List.mem_map.mp found
    obtain ⟨other, member, rfl⟩ := List.mem_map.mp (holds.mem_iff.mp listed)
    exact fresh member
  have entries : (table.insert name (sizeOf sizes name)).entries =
      ⟨name, sizeOf sizes name⟩ :: table.entries := by
    simp [AList.insert, List.kinsert, List.kerase_of_notMem_keys absent]
  unfold Holds
  rw [entries, List.map_append]
  exact (holds.cons _).trans (List.perm_append_singleton _ _).symm

theorem Holds.retain (holds : Holds sizes table live)
    {keep : NodeName → Bool} :
    Holds sizes (table.retain fun name _ => keep name)
      (live.filter keep) := by
  have kept := holds.filter fun entry => keep entry.1
  rw [List.filter_map] at kept
  exact kept

theorem visitNode_holds {state : Activations} {tracked : State NodeName}
    (distinct : (nodes.map RegionNode.name).Nodup)
    (split : nodes = front ++ node :: back)
    (tracks : Tracks (nodes.map step) (front.map step) tracked)
    (holds : Holds sizes state.liveSizes tracked.live)
    (peaks : state.activationPeak = tracked.peak) :
    let next := visit (sizeOf sizes) (nodes.map step) tracked
      (step node, front.length)
    Holds sizes (visitNode nodes sizes state (node, front.length)).liveSizes
        next.live ∧
      (visitNode nodes sizes state (node, front.length)).activationPeak =
        next.peak := by
  have known : ∀ name ∈ tracked.live, ∃ node ∈ front,
      node.op ≠ .output ∧ node.name = name := by
    intro name member
    exact mem_names_steps.mp ((tracks.live name).mp member).1
  have fresh : node.name ∉ tracked.live := by
    intro member
    obtain ⟨earlier, listed, _, same⟩ := known _ member
    rw [split, List.map_append, List.nodup_append'] at distinct
    exact distinct.2.2 (List.mem_map_of_mem listed) (by simp [same])
  have grown : Holds sizes
      (if node.op ≠ .output then
        state.liveSizes.insert node.name (sizeOf sizes node.name)
      else state.liveSizes)
      (define (step node).defines tracked.live) := by
    by_cases last : node.op = .output
    · simpa [last, step, define] using holds
    · simpa [last, step, define, fresh] using holds.insert fresh
  refine ⟨?_, ?_⟩
  · simp only [visitNode, visit]
    convert grown.retain using 1
    apply List.filter_congr
    intro name member
    have defined : name ∈ names (nodes.map step) := by
      rw [mem_names_steps, split]
      rcases mem_define.mp member with own | earlier
      · obtain ⟨inner, same⟩ := step_defines.mp own
        exact ⟨node, by simp, inner, same⟩
      · obtain ⟨other, listed, given⟩ := known name earlier
        exact ⟨other, by simp [listed], given⟩
    rw [lastUse_steps distinct defined, Bool.eq_iff_iff]
    simp
  · simp only [visitNode, visit]
    rw [peaks, grown.sum]

theorem activationPeak_eq (distinct : (nodes.map RegionNode.name).Nodup) :
    activationPeak nodes sizes = peak (sizeOf sizes) (nodes.map step) := by
  have folded : ∀ (back front : List RegionNode) (state : Activations)
      (tracked : State NodeName), nodes = front ++ back →
      Tracks (nodes.map step) (front.map step) tracked →
      Holds sizes state.liveSizes tracked.live →
      state.activationPeak = tracked.peak →
      ((back.zipIdx front.length).foldl (visitNode nodes sizes)
          state).activationPeak =
        (((back.map step).zipIdx front.length).foldl
          (visit (sizeOf sizes) (nodes.map step)) tracked).peak := by
    intro back
    induction back with
    | nil =>
        intro front state tracked _ _ _ peaks
        exact peaks
    | cons node back ih =>
        intro front state tracked split tracks holds peaks
        have steps : nodes.map step =
            front.map step ++ step node :: back.map step := by
          simp [split]
        have next := (@Tracks.visited _ _ (sizeOf sizes) _ _ _ _ _ tracks
          steps).1
        obtain ⟨holds, peaks⟩ :=
          visitNode_holds distinct split tracks holds peaks
        rw [List.length_map] at next
        have rest := ih (front ++ [node]) _ _ (by simpa using split)
          (by simpa using next) holds peaks
        simpa [List.zipIdx_cons] using rest
  exact folded nodes [] {} {} rfl ⟨List.nodup_nil, by simp [names]⟩
    (List.Perm.refl _) rfl

theorem liveBytes_eq (distinct : (nodes.map RegionNode.name).Nodup)
    (index : Nat) : liveBytes nodes sizes index =
      ∑ name ∈ Liveness.live (nodes.map step) index, sizeOf sizes name := by
  have nodup : ((liveNodes nodes index).map RegionNode.name).Nodup :=
    distinct.sublist (List.filter_sublist.map _)
  have same : ((liveNodes nodes index).map RegionNode.name).toFinset =
      Liveness.live (nodes.map step) index := by
    ext name
    rw [List.mem_toFinset, mem_live, List.mem_map]
    simp only [liveNodes, List.mem_filter, decide_eq_true_eq]
    constructor
    · rintro ⟨node, ⟨listed, inner, early, used⟩, rfl⟩
      have defined := mem_names_steps.mpr ⟨node, listed, inner, rfl⟩
      rw [definedAt_steps distinct defined, lastUse_steps distinct defined]
      exact ⟨defined, early, used⟩
    · rintro ⟨defined, early, used⟩
      rw [definedAt_steps distinct defined] at early
      rw [lastUse_steps distinct defined] at used
      obtain ⟨node, listed, inner, rfl⟩ := mem_names_steps.mp defined
      exact ⟨node, ⟨listed, inner, early, used⟩, rfl⟩
  rw [← same, List.sum_toFinset _ nodup, List.map_map]
  rfl

end Program

section Exact

variable (region : RegionGraph)

theorem distinct : (region.nodes.map RegionNode.name).Nodup :=
  region.ordered.names.1

theorem causal : Liveness.Causal (region.nodes.map step) := by
  refine ⟨names_steps_nodup region.distinct, ?_⟩
  intro front current back split name read defined
  obtain ⟨before, rest, whole, rfl, later⟩ := List.map_eq_append_iff.mp split
  obtain ⟨node, after, rfl, rfl, rfl⟩ := List.map_eq_cons_iff.mp later
  have ordered := region.ordered
  rw [whole, Dataflow.ordered_append] at ordered
  have known := ordered.2.1 name read
  rw [List.nil_append] at known
  obtain ⟨earlier, listed, same⟩ := List.mem_map.mp known
  obtain ⟨definer, member, inner, named⟩ := mem_names_steps.mp defined
  have one : definer = earlier :=
    List.inj_on_of_nodup_map region.distinct member
      (by simp [whole, listed]) (named.trans same.symm)
  exact mem_names_steps.mpr ⟨earlier, listed, one ▸ inner, same⟩

theorem peak_steps (sizes : Table NodeName Nat) :
    Liveness.peak (sizeOf sizes) (region.nodes.map step) =
      (Finset.range region.nodes.length).sup
        (liveBytes region.nodes sizes) := by
  rw [Liveness.peak_eq_sup region.causal, List.length_map]
  apply Finset.sup_congr rfl
  intro index _
  exact (liveBytes_eq region.distinct index).symm

/-- The loop of `_admit` computes the true maximum: over the positions of the
graph, the total size of the nodes that are computed by then and used there or
later. -/
theorem activation_peak_exact (sizes : Table NodeName Nat) :
    activationPeak region.nodes sizes =
      (Finset.range region.nodes.length).sup
        (liveBytes region.nodes sizes) := by
  rw [activationPeak_eq region.distinct, peak_steps]

/-- A value of 4 bytes is read by the first of two operators and one of 2 by
the output; the 8 bytes between them are read by the second only. -/
example : activationPeak
    [⟨0, .placeholder, []⟩, ⟨1, .callModule, [0]⟩, ⟨2, .callFunction, [1]⟩,
      ⟨3, .output, [2]⟩]
    (((∅ : Table NodeName Nat).insert 0 4).insert 1 8 |>.insert 2 2) = 12 := by
  decide

end Exact

section Sizes

variable {nodes : List RegionNode} {node : RegionNode}
  {leaves : NodeName → List (Option TensorLeaf)}

theorem sizeOf_runSizes (member : node ∈ nodes) :
    sizeOf (runSizes leaves nodes) node.name =
      leafBytes (leaves node.name) := by
  have noted : ∀ (rest : List RegionNode) (sizes : Table NodeName Nat),
      (node ∈ rest ∨
        sizes.lookup node.name = some (leafBytes (leaves node.name))) →
      (rest.foldl (fun sizes node =>
          sizes.insert node.name (leafBytes (leaves node.name)))
        sizes).lookup node.name = some (leafBytes (leaves node.name)) := by
    intro rest
    induction rest with
    | nil =>
        intro sizes given
        simpa using given
    | cons first rest ih =>
        intro sizes given
        rw [List.foldl_cons]
        apply ih
        rw [Table.lookup_insert_eq]
        by_cases same : node.name = first.name
        · exact .inr (by rw [if_pos same, same])
        · rw [if_neg same]
          refine given.imp_left ?_
          intro listed
          exact (List.mem_cons.mp listed).resolve_left fun equal =>
            same (congrArg RegionNode.name equal)
  unfold sizeOf runSizes
  rw [noted nodes ∅ (.inl member)]
  rfl

end Sizes

end RegionGraph

/-! The graphs of the groups. -/

namespace Group

def regionNodes (op : NodeName → NodeOp) (output : NodeName) (group : Group) :
    List RegionNode :=
  group.inputs.map (⟨·, .placeholder, []⟩) ++
    (group.nodes.map (fun node => ⟨node.name, op node.name, node.inputs⟩) ++
      [⟨output, .output, group.outputs⟩])

variable {op : NodeName → NodeOp} {output : NodeName} {group : Group}

theorem regionNodes_names : (group.regionNodes op output).map
    RegionNode.name = group.inputs ++
      (group.nodes.map FxNode.name ++ [output]) := by
  simp [regionNodes, Function.comp_def]

theorem regionNodes_steps
    (inner : ∀ node ∈ group.nodes, op node.name ≠ .output) :
    (group.regionNodes op output).map RegionGraph.step = group.region := by
  simp only [regionNodes, region, List.map_append, List.map_map,
    List.map_singleton]
  congr 1
  congr 1
  apply List.map_congr_left
  intro node member
  simp [RegionGraph.step, operator, inner node member]

end Group

namespace FxGraph

variable {γ σ : Type} {graph : FxGraph γ σ} {chunks front back : List (List FxNode)}
  {chunk : List FxNode} {op : NodeName → NodeOp} {output : NodeName}

theorem placeholders_ordered {names known : List NodeName}
    (distinct : (known ++ names).Nodup) :
    Dataflow.Ordered RegionNode.name RegionNode.inputs known
      (names.map (⟨·, .placeholder, []⟩)) := by
  induction names generalizing known with
  | nil => trivial
  | cons name names ih =>
      refine ⟨by simp, ?_, ?_⟩
      · rw [List.nodup_append'] at distinct
        exact fun earlier => distinct.2.2 earlier List.mem_cons_self
      · apply ih
        simpa using distinct

theorem regionNodes_ordered (chunking : graph.Chunking chunks)
    (split : chunks = front ++ chunk :: back)
    (fresh : output ∉ (graph.makeGroup chunk).inputs ++
      chunk.map FxNode.name) :
    Dataflow.Ordered RegionNode.name RegionNode.inputs []
      ((graph.makeGroup chunk).regionNodes op output) := by
  rw [List.mem_append] at fresh
  unfold Group.regionNodes
  rw [Dataflow.ordered_append, Dataflow.ordered_append]
  simp only [List.nil_append, List.map_map, Function.comp_def, List.map_id']
  refine ⟨?_, ?_, ?_⟩
  · apply placeholders_ordered
    rw [List.nil_append]
    exact inputs_nodup
  · rw [Dataflow.ordered_map]
    exact group_ordered chunking split
  · refine ⟨?_, ?_, trivial⟩
    · intro name returned
      exact List.mem_append_right _ (mem_outputs.mp returned).1
    · rw [List.mem_append]
      exact fresh

/-- The estimate of a group rests on the true maximum of what is live in the
graph of its module. -/
theorem admission_peak (chunking : graph.Chunking chunks)
    (split : chunks = front ++ chunk :: back)
    (fresh : output ∉ (graph.makeGroup chunk).inputs ++
      chunk.map FxNode.name)
    (inner : ∀ node ∈ chunk, op node.name ≠ .output)
    (sizes : Table NodeName Nat) :
    let nodes := (graph.makeGroup chunk).regionNodes op output
    Liveness.peak (RegionGraph.sizeOf sizes) (graph.makeGroup chunk).region =
      (Finset.range nodes.length).sup
        (RegionGraph.liveBytes nodes sizes) := by
  intro nodes
  rw [← Group.regionNodes_steps inner]
  exact RegionGraph.peak_steps
    ⟨nodes, regionNodes_ordered chunking split fresh⟩ sizes

end FxGraph

end TrainPool
