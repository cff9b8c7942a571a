import Mathlib.Data.List.Nodup
import TrainPool.Library.Dataflow

namespace TrainPool

/-! The traced graph of a model and its groups. -/

abbrev NodeName := Nat

/-- A `get_attr` or `call_` node.  `inputs` are its `all_input_nodes`;
`parameterBytes` are those of the module it calls. -/
structure FxNode where
  name : NodeName
  inputs : List NodeName
  parameterBytes : Nat
  deriving DecidableEq, Repr

/-- A flattened container: its leaves in order, and the rest of it. -/
structure Tree (α σ : Type) where
  leaves : List α
  spec : σ
  deriving DecidableEq, Repr

inductive OutputLeaf (γ : Type) where
  | node (name : NodeName)
  | constant (value : γ)
  deriving DecidableEq, Repr

structure FxGraph (γ σ : Type) where
  placeholders : List NodeName
  nodes : List FxNode
  output : Tree (OutputLeaf γ) σ
  distinct : placeholders.Nodup
  ordered : Dataflow.Ordered FxNode.name FxNode.inputs placeholders nodes
  known : ∀ leaf ∈ output.leaves, ∀ name, leaf = .node name →
    name ∈ placeholders ++ nodes.map FxNode.name

structure Group where
  inputs : List NodeName
  outputs : List NodeName
  nodes : List FxNode
  deriving DecidableEq, Repr

namespace FxGraph

variable {γ σ : Type} (graph : FxGraph γ σ)

def returns (name : NodeName) : Bool :=
  graph.output.leaves.any fun
    | .node other => other = name
    | .constant _ => false

/-- `len(node.users)`. -/
def users (name : NodeName) : Nat :=
  graph.nodes.countP (name ∈ ·.inputs) + if graph.returns name then 1 else 0

/-- The variables of `partition`. -/
structure Cutting where
  chunks : List (List FxNode) := []
  chunk : List FxNode := []
  size : Nat := 0

def Cutting.flush (cutting : Cutting) : Cutting :=
  { chunks := cutting.chunks ++ [cutting.chunk] }

/-- No node joins a chunk that is full or would become too large; a budget of
`None` or zero sets no limit. -/
def Cutting.full (budget : Option Nat) (maxNodes : Nat) (node : FxNode)
    (cutting : Cutting) : Bool :=
  cutting.chunk ≠ [] && (maxNodes ≤ cutting.chunk.length ||
    budget.any fun budget => budget ≠ 0 &&
      budget < 3 * (cutting.size + node.parameterBytes))

def cut (budget : Option Nat) (maxNodes : Nat) (cutting : Cutting)
    (node : FxNode) : Cutting :=
  let cutting :=
    if cutting.full budget maxNodes node then cutting.flush else cutting
  let cutting := { cutting with
    chunk := cutting.chunk ++ [node]
    size := cutting.size + node.parameterBytes }
  if 1 < graph.users node.name then cutting.flush else cutting

def partition (budget : Option Nat) (maxNodes : Nat) : List (List FxNode) :=
  let cutting := graph.nodes.foldl (graph.cut budget maxNodes) {}
  if cutting.chunk ≠ [] then cutting.flush.chunks else cutting.chunks

/-- A chunk that needs too much memory is cut in two by `_preflight`. -/
def splitChunk (chunks : List (List FxNode)) (index : Nat) :
    List (List FxNode) :=
  match chunks[index]? with
  | none => chunks
  | some chunk =>
      let cut := chunk.length / 2
      chunks.take index ++ [chunk.take cut, chunk.drop cut] ++
        chunks.drop (index + 1)

def usedOutside (chunk : List FxNode) (name : NodeName) : Bool :=
  graph.nodes.any (fun user =>
    name ∈ user.inputs && user.name ∉ chunk.map FxNode.name) ||
  graph.returns name

def makeGroup (chunk : List FxNode) : Group where
  inputs := ((chunk.flatMap FxNode.inputs).filter
    (· ∉ chunk.map FxNode.name)).eraseDups
  outputs := (chunk.map FxNode.name).filter (graph.usedOutside chunk)
  nodes := chunk

end FxGraph

structure GraphIR (γ σ : Type) where
  frontend : FxGraph γ σ
  groups : List Group

namespace GraphIR

variable {γ σ : Type} (ir : GraphIR γ σ)

/-- The groups that read a value; the output counts as one more group. -/
def consumers (name : NodeName) : List Nat :=
  ((List.range ir.groups.length).filter (fun index =>
      ir.groups[index]?.any (name ∈ ·.inputs)) ++
    ir.frontend.output.leaves.filterMap fun
      | .node other => if other = name then some ir.groups.length else none
      | .constant _ => none).eraseDups

end GraphIR

namespace FxGraph

variable {γ σ : Type} (graph : FxGraph γ σ)

def makeIr (chunks : List (List FxNode)) : GraphIR γ σ :=
  ⟨graph, chunks.map graph.makeGroup⟩

/-- The chunks cut the graph without changing the order of its nodes. -/
def Chunking (chunks : List (List FxNode)) : Prop :=
  chunks.flatten = graph.nodes

variable {graph}

theorem cut_flatten (budget : Option Nat) (maxNodes : Nat) (cutting : Cutting)
    (node : FxNode) :
    (graph.cut budget maxNodes cutting node).chunks.flatten ++
        (graph.cut budget maxNodes cutting node).chunk =
      cutting.chunks.flatten ++ cutting.chunk ++ [node] := by
  unfold cut
  simp only
  split <;> split <;> simp [Cutting.flush]

theorem partition_chunking (budget : Option Nat) (maxNodes : Nat) :
    graph.Chunking (graph.partition budget maxNodes) := by
  have folded : ∀ (nodes : List FxNode) (cutting : Cutting),
      (nodes.foldl (graph.cut budget maxNodes) cutting).chunks.flatten ++
          (nodes.foldl (graph.cut budget maxNodes) cutting).chunk =
        cutting.chunks.flatten ++ cutting.chunk ++ nodes := by
    intro nodes
    induction nodes with
    | nil => simp
    | cons node nodes ih =>
        intro cutting
        rw [List.foldl_cons, ih, cut_flatten]
        simp
  have all := folded graph.nodes {}
  simp only [List.flatten_nil, List.append_nil, List.nil_append] at all
  unfold Chunking partition
  simp only
  split
  · simpa [Cutting.flush] using all
  · rename_i empty
    rw [Decidable.not_not.mp empty, List.append_nil] at all
    exact all

theorem splitChunk_chunking {chunks : List (List FxNode)}
    (chunking : graph.Chunking chunks) (index : Nat) :
    graph.Chunking (splitChunk chunks index) := by
  unfold splitChunk
  split
  · exact chunking
  · rename_i chunk found
    obtain ⟨inside, rfl⟩ := List.getElem?_eq_some_iff.mp found
    have whole : chunks.take index ++ [chunks[index]] ++
        chunks.drop (index + 1) = chunks := by
      simp [List.take_append_getElem]
    have same := congrArg List.flatten whole
    unfold Chunking at chunking ⊢
    rw [← chunking, ← same]
    simp only [List.flatten_append, List.flatten_cons, List.flatten_nil,
      List.append_nil, List.take_append_drop]

/-- The chunks of a run: those of `partition` after some splits. -/
def chunksOf (graph : FxGraph γ σ) (budget : Option Nat) (maxNodes : Nat)
    (splits : List Nat) : List (List FxNode) :=
  splits.foldl splitChunk (graph.partition budget maxNodes)

theorem chunksOf_chunking (budget : Option Nat) (maxNodes : Nat)
    (splits : List Nat) :
    graph.Chunking (graph.chunksOf budget maxNodes splits) := by
  have folded : ∀ (chunks : List (List FxNode)), graph.Chunking chunks →
      graph.Chunking (splits.foldl splitChunk chunks) := by
    induction splits with
    | nil => exact fun chunks chunking => chunking
    | cons index splits ih =>
        intro chunks chunking
        exact ih _ (splitChunk_chunking chunking index)
  exact folded _ (partition_chunking budget maxNodes)

/-! What crosses the boundaries of groups. -/

variable {chunks front back : List (List FxNode)} {chunk : List FxNode}
  {name : NodeName}

theorem known_nodup :
    (graph.placeholders ++ graph.nodes.map FxNode.name).Nodup := by
  obtain ⟨distinct, unknown⟩ := graph.ordered.names
  refine List.Nodup.append graph.distinct distinct ?_
  intro name placed defined
  obtain ⟨node, member, rfl⟩ := List.mem_map.mp defined
  exact unknown node member placed

theorem names_nodup (chunking : graph.Chunking chunks) :
    (chunks.flatten.map FxNode.name).Nodup := by
  rw [chunking]
  exact graph.ordered.names.1

theorem chunk_ordered (chunking : graph.Chunking chunks)
    (split : chunks = front ++ chunk :: back) :
    Dataflow.Ordered FxNode.name FxNode.inputs
      (graph.placeholders ++ front.flatten.map FxNode.name) chunk := by
  have ordered := graph.ordered
  rw [← chunking, split, List.flatten_append, List.flatten_cons] at ordered
  exact (Dataflow.ordered_append.mp
    (Dataflow.ordered_append.mp ordered).2).1

theorem mem_inputs :
    name ∈ (graph.makeGroup chunk).inputs ↔
      (∃ node ∈ chunk, name ∈ node.inputs) ∧
        name ∉ chunk.map FxNode.name := by
  simp [makeGroup, List.mem_eraseDups]

theorem inputs_nodup : (graph.makeGroup chunk).inputs.Nodup :=
  Dataflow.nodup_eraseDups _

theorem mem_outputs :
    name ∈ (graph.makeGroup chunk).outputs ↔
      name ∈ chunk.map FxNode.name ∧ graph.usedOutside chunk name = true :=
  List.mem_filter

theorem group_ordered (chunking : graph.Chunking chunks)
    (split : chunks = front ++ chunk :: back) :
    Dataflow.Ordered FxNode.name FxNode.inputs
      (graph.makeGroup chunk).inputs chunk := by
  have ordered := chunk_ordered chunking split
  have unknown := ordered.names.2
  rw [← List.append_nil (graph.placeholders ++ _)] at ordered
  rw [← List.append_nil (graph.makeGroup chunk).inputs]
  apply ordered.rebase
  · intro node member input read before
    refine mem_inputs.mpr ⟨⟨node, member, read⟩, ?_⟩
    intro own
    obtain ⟨other, listed, rfl⟩ := List.mem_map.mp own
    exact unknown other listed before
  · intro node member declared
    exact (mem_inputs.mp declared).2 (List.mem_map_of_mem member)

def outputsOf (graph : FxGraph γ σ) (chunks : List (List FxNode)) :
    List NodeName :=
  chunks.flatMap fun chunk => (graph.makeGroup chunk).outputs

theorem mem_outputsOf :
    name ∈ graph.outputsOf chunks ↔
      ∃ chunk ∈ chunks, name ∈ (graph.makeGroup chunk).outputs :=
  List.mem_flatMap

theorem outputsOf_sublist (chunks : List (List FxNode)) :
    (graph.outputsOf chunks).Sublist (chunks.flatten.map FxNode.name) := by
  induction chunks with
  | nil => exact .slnil
  | cons chunk chunks ih =>
      rw [outputsOf, List.flatMap_cons, List.flatten_cons, List.map_append]
      exact List.Sublist.append List.filter_sublist ih

theorem boundary_nodup (chunking : graph.Chunking chunks) :
    (graph.placeholders ++ graph.outputsOf chunks).Nodup := by
  have all := graph.known_nodup
  rw [← chunking] at all
  exact all.sublist ((List.Sublist.refl _).append (outputsOf_sublist chunks))

/-- A name that a chunk defines and something else uses is an output of its
group. -/
theorem output_of_use {producer : List FxNode}
    (defined : name ∈ producer.map FxNode.name)
    (used : graph.returns name = true ∨
      ∃ user ∈ graph.nodes, name ∈ user.inputs ∧
        user.name ∉ producer.map FxNode.name) :
    name ∈ (graph.makeGroup producer).outputs := by
  refine mem_outputs.mpr ⟨defined, ?_⟩
  rcases used with returned | ⟨user, member, read, outside⟩
  · simp [usedOutside, returned]
  · simp only [usedOutside, Bool.or_eq_true, List.any_eq_true]
    exact .inl ⟨user, member, by simp [read, outside]⟩

theorem inputs_available (chunking : graph.Chunking chunks)
    (split : chunks = front ++ chunk :: back)
    (declared : name ∈ (graph.makeGroup chunk).inputs) :
    name ∈ graph.placeholders ++ graph.outputsOf front := by
  obtain ⟨⟨node, member, read⟩, foreign⟩ := mem_inputs.mp declared
  have source := (chunk_ordered chunking split).reads member read
  rw [List.append_assoc, List.mem_append] at source
  rcases source with placed | source
  · exact List.mem_append_left _ placed
  refine List.mem_append_right _ ?_
  rcases List.mem_append.mp source with before | own
  · rw [List.map_flatten] at before
    obtain ⟨names, listed, defined⟩ := List.mem_flatten.mp before
    obtain ⟨producer, earlier, rfl⟩ := List.mem_map.mp listed
    refine mem_outputsOf.mpr ⟨producer, earlier, output_of_use defined
      (.inr ⟨node, ?_, read, ?_⟩)⟩
    · rw [← chunking, split]
      simp [member]
    · intro inside
      -- The names of different chunks are different.
      have distinct := names_nodup chunking
      rw [split, List.flatten_append, List.map_append,
        List.nodup_append] at distinct
      refine distinct.2.2 node.name ?_ node.name ?_ rfl
      · rw [List.map_flatten]
        exact List.mem_flatten.mpr ⟨_, List.mem_map_of_mem earlier, inside⟩
      · rw [List.flatten_cons, List.map_append]
        exact List.mem_append_left _ (List.mem_map_of_mem member)
  · exact absurd own foreign

theorem returns_iff :
    graph.returns name = true ↔ .node name ∈ graph.output.leaves := by
  simp only [returns, List.any_eq_true]
  constructor
  · intro found
    obtain ⟨leaf, member, same⟩ := found
    cases leaf with
    | node other =>
        obtain rfl := of_decide_eq_true same
        exact member
    | constant value => cases same
  · intro member
    exact ⟨.node name, member, by simp⟩

theorem returned_available (chunking : graph.Chunking chunks)
    (returned : graph.returns name = true) :
    name ∈ graph.placeholders ++ graph.outputsOf chunks := by
  have known := graph.known _ (returns_iff.mp returned) name rfl
  rcases List.mem_append.mp known with placed | defined
  · exact List.mem_append_left _ placed
  · refine List.mem_append_right _ ?_
    rw [← chunking, List.map_flatten] at defined
    obtain ⟨names, listed, inside⟩ := List.mem_flatten.mp defined
    obtain ⟨producer, member, rfl⟩ := List.mem_map.mp listed
    exact mem_outputsOf.mpr
      ⟨producer, member, output_of_use inside (.inl returned)⟩

theorem consumers_nodup : ((graph.makeIr chunks).consumers name).Nodup :=
  Dataflow.nodup_eraseDups _

theorem mem_consumers {index : Nat} :
    index ∈ (graph.makeIr chunks).consumers name ↔
      (∃ chunk, chunks[index]? = some chunk ∧
          name ∈ (graph.makeGroup chunk).inputs) ∨
        (index = chunks.length ∧ graph.returns name = true) := by
  simp only [GraphIR.consumers, List.mem_eraseDups, List.mem_append,
    List.mem_filter, List.mem_range, makeIr, List.length_map,
    List.getElem?_map]
  refine or_congr ?_ ?_
  · constructor
    · intro found
      obtain ⟨inside, reads⟩ := found
      rw [List.getElem?_eq_getElem inside] at reads ⊢
      exact ⟨_, rfl, by simpa using reads⟩
    · intro found
      obtain ⟨chunk, listed, declared⟩ := found
      exact ⟨(List.getElem?_eq_some_iff.mp listed).1,
        by simp [listed, declared]⟩
  · rw [returns_iff, List.mem_filterMap]
    constructor
    · intro found
      obtain ⟨leaf, member, same⟩ := found
      cases leaf with
      | node other =>
          simp only at same
          split at same
          · rename_i equal
            cases same
            exact ⟨rfl, equal ▸ member⟩
          · cases same
      | constant value => cases same
    · intro found
      exact ⟨.node name, found.2, by simp [found.1]⟩

end FxGraph

end TrainPool
