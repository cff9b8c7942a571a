import Mathlib.Algebra.BigOperators.Group.Finset.Piecewise
import TrainPool.Library.Liveness
import TrainPool.Torch.Graph

namespace TrainPool

open Liveness

/-! The estimate of what a group needs on the device, and what becomes of it
when the group is cut in two. -/

/-- The parameters and buffers of the module that a node calls, by name; a
`get_attr` node names the buffer that it reads. -/
structure Modules where
  parameters : NodeName → List Nat
  buffers : NodeName → List Nat

structure Sizes where
  value : NodeName → Nat
  parameter : Nat → Nat
  buffer : Nat → Nat

/-- `max(..., default=0)` -/
def largest (sizes : List Nat) : Nat := sizes.max?.getD 0

namespace Group

variable (modules : Modules) (sizes : Sizes) (group : Group)

def placeholder (name : NodeName) : Step NodeName := ⟨some name, []⟩

def operator (node : FxNode) : Step NodeName := ⟨some node.name, node.inputs⟩

def result (outputs : List NodeName) : Step NodeName := ⟨none, outputs⟩

def region : List (Step NodeName) :=
  group.inputs.map placeholder ++
    (group.nodes.map operator ++ [result group.outputs])

def parameterNames : List Nat :=
  (group.nodes.flatMap fun node => modules.parameters node.name).eraseDups

def bufferNames : List Nat :=
  (group.nodes.flatMap fun node => modules.buffers node.name).eraseDups

def outputBytes : Nat := (group.outputs.map sizes.value).sum

/-- The values of `interpreter.sizes`. -/
def valueSizes : List Nat :=
  group.inputs.map sizes.value ++
    group.nodes.map (fun node => sizes.value node.name) ++
      [group.outputBytes sizes]

end Group

/-- What `_admit` notes of a group. -/
structure Admission where
  forwardPeak : Nat
  backwardPeak : Nat
  optimizerPeak : Nat
  workspaceMargin : Nat
  estimatedWorkingSet : Nat
  deriving DecidableEq, Repr

def phases (parameterBytes bufferBytes largestParameter activationPeak
    largestValue : Nat) : Admission :=
  let forwardPeak := parameterBytes + bufferBytes + activationPeak
  let backwardPeak := 2 * parameterBytes + bufferBytes + 2 * activationPeak
  let optimizerPeak := 5 * largestParameter
  let workspaceMargin := max (largestValue / 2)
    ((parameterBytes + bufferBytes + activationPeak) / 10)
  { forwardPeak, backwardPeak, optimizerPeak, workspaceMargin
    estimatedWorkingSet :=
      max (max forwardPeak backwardPeak) optimizerPeak + workspaceMargin }

namespace Group

variable (modules : Modules) (sizes : Sizes) (group : Group)

def admission : Admission :=
  let parameters := (group.parameterNames modules).map sizes.parameter
  phases parameters.sum ((group.bufferNames modules).map sizes.buffer).sum
    (largest parameters) (peak sizes.value group.region)
    (largest (group.valueSizes sizes))

end Group

theorem largest_le {sizes : List Nat} {bound : Nat} :
    largest sizes ≤ bound ↔ ∀ size ∈ sizes, size ≤ bound := by
  unfold largest
  cases kind : sizes.max? with
  | none =>
      rw [List.max?_eq_none_iff] at kind
      simp [kind]
  | some most => exact List.max?_le_iff kind

theorem le_largest {sizes : List Nat} {size : Nat} (member : size ∈ sizes) :
    size ≤ largest sizes :=
  largest_le.mp le_rfl size member

theorem phases_mono {parameters buffers parameter activations value
    parameters' buffers' parameter' activations' value' : Nat}
    (parameterBytes : parameters ≤ parameters') (bufferBytes : buffers ≤ buffers')
    (largestParameter : parameter ≤ parameter')
    (activationPeak : activations ≤ activations') (largestValue : value ≤ value') :
    (phases parameters buffers parameter activations value).estimatedWorkingSet ≤
      (phases parameters' buffers' parameter' activations'
        value').estimatedWorkingSet := by
  simp only [phases]
  omega

theorem sum_le_of_subset {size : Nat → Nat} {names others : List Nat}
    (distinct : names.Nodup) (distinct' : others.Nodup)
    (subset : ∀ name ∈ names, name ∈ others) :
    (names.map size).sum ≤ (others.map size).sum := by
  rw [← List.sum_toFinset size distinct, ← List.sum_toFinset size distinct']
  apply Finset.sum_le_sum_of_subset
  intro name member
  exact List.mem_toFinset.mpr (subset name (List.mem_toFinset.mp member))

namespace Group

variable {modules : Modules} {sizes : Sizes} {group : Group} {name : NodeName}

theorem mem_parameterNames {parameter : Nat} :
    parameter ∈ group.parameterNames modules ↔
      ∃ node ∈ group.nodes, parameter ∈ modules.parameters node.name := by
  simp [parameterNames, List.mem_eraseDups]

theorem mem_bufferNames {buffer : Nat} :
    buffer ∈ group.bufferNames modules ↔
      ∃ node ∈ group.nodes, buffer ∈ modules.buffers node.name := by
  simp [bufferNames, List.mem_eraseDups]

theorem mem_valueSizes {size : Nat} : size ∈ group.valueSizes sizes ↔
    (∃ name ∈ group.inputs, sizes.value name = size) ∨
      (∃ node ∈ group.nodes, sizes.value node.name = size) ∨
        size = group.outputBytes sizes := by
  simp [valueSizes]

@[simp] theorem names_placeholders (inputs : List NodeName) :
    names (inputs.map placeholder) = inputs := by
  induction inputs with
  | nil => rfl
  | cons input inputs ih => simpa [names, placeholder] using ih

@[simp] theorem names_operators (nodes : List FxNode) :
    names (nodes.map operator) = nodes.map FxNode.name := by
  induction nodes with
  | nil => rfl
  | cons node nodes ih => simpa [names, operator] using ih

theorem read_operators {nodes : List FxNode} {outputs : List NodeName} :
    Read (nodes.map operator ++ [result outputs]) name ↔
      (∃ node ∈ nodes, name ∈ node.inputs) ∨ name ∈ outputs := by
  constructor
  · rintro ⟨step, member, read⟩
    rcases List.mem_append.mp member with listed | last
    · obtain ⟨node, inside, rfl⟩ := List.mem_map.mp listed
      exact .inl ⟨node, inside, read⟩
    · obtain rfl := List.mem_singleton.mp last
      exact .inr read
  · rintro (⟨node, member, read⟩ | output)
    · exact ⟨operator node,
        List.mem_append_left _ (List.mem_map_of_mem member), read⟩
    · exact ⟨result outputs, by simp, output⟩

theorem mem_liveAt_operator {inputs outputs : List NodeName}
    {earlier later : List FxNode} {node : FxNode} :
    name ∈ liveAt (inputs.map placeholder ++ earlier.map operator)
        (operator node) (later.map operator ++ [result outputs]) ↔
      name = node.name ∨
        (name ∈ inputs ∨ name ∈ earlier.map FxNode.name) ∧
          ((∃ user ∈ node :: later, name ∈ user.inputs) ∨
            name ∈ outputs) := by
  have read := @read_operators name (node :: later) outputs
  rw [List.map_cons, List.cons_append] at read
  rw [mem_liveAt, names_append, names_placeholders, names_operators,
    List.mem_append, read]
  have own : (operator node).defines = some name ↔ name = node.name := by
    simp [operator, eq_comm]
  rw [own]

theorem mem_liveAt_result {inputs outputs : List NodeName}
    {nodes : List FxNode} :
    name ∈ liveAt (inputs.map placeholder ++ nodes.map operator)
        (result outputs) [] ↔
      (name ∈ inputs ∨ name ∈ nodes.map FxNode.name) ∧ name ∈ outputs := by
  have read := @read_operators name [] outputs
  simp only [List.map_nil, List.nil_append, List.not_mem_nil, false_and,
    exists_false, false_or] at read
  rw [mem_liveAt, names_append, names_placeholders, names_operators,
    List.mem_append, read]
  simp [result]

theorem liveAt_placeholder {front : List NodeName} {back : List (Step NodeName)}
    {input : NodeName}
    (live : name ∈ liveAt (front.map placeholder) (placeholder input) back) :
    name ∈ front ++ [input] := by
  rcases mem_liveAt.mp live with own | ⟨earlier, _⟩
  · cases own
    simp
  · rw [names_placeholders] at earlier
    exact List.mem_append_left _ earlier

theorem region_cases {front back : List (Step NodeName)} {step : Step NodeName}
    (split : group.region = front ++ step :: back) :
    (∃ before input after, group.inputs = before ++ input :: after ∧
        front = before.map placeholder ∧ step = placeholder input) ∨
      (∃ before node after, group.nodes = before ++ node :: after ∧
        front = group.inputs.map placeholder ++ before.map operator ∧
        step = operator node ∧
        back = after.map operator ++ [result group.outputs]) ∨
      (front = group.inputs.map placeholder ++ group.nodes.map operator ∧
        step = result group.outputs ∧ back = []) := by
  unfold region at split
  rcases List.append_eq_append_iff.mp split with
    ⟨middle, same, rest⟩ | ⟨middle, same, rest⟩
  · subst same
    right
    rcases List.append_eq_append_iff.mp rest with
      ⟨before, same, tail⟩ | ⟨before, same, tail⟩
    · subst same
      right
      cases before with
      | nil =>
          cases tail
          simp
      | cons first before =>
          cases before <;> simp at tail
    · cases before with
      | nil =>
          right
          rw [List.append_nil] at same
          subst same
          cases tail
          simp
      | cons first before =>
          left
          obtain ⟨earlier, others, names, rfl, second⟩ :=
            List.map_eq_append_iff.mp same
          obtain ⟨node, later, rfl, rfl, rfl⟩ := List.map_eq_cons_iff.mp second
          cases tail
          exact ⟨earlier, node, later, names, rfl, rfl, rfl⟩
  · cases middle with
    | nil =>
        right
        rw [List.append_nil] at same
        subst same
        cases kind : group.nodes with
        | nil =>
            rw [kind] at rest
            right
            cases rest
            simp
        | cons node nodes =>
            rw [kind] at rest
            left
            cases rest
            exact ⟨[], node, nodes, rfl, by simp, rfl, rfl⟩
    | cons first middle =>
        left
        obtain ⟨before, others, names, rfl, second⟩ :=
          List.map_eq_append_iff.mp same
        obtain ⟨input, after, rfl, rfl, rfl⟩ := List.map_eq_cons_iff.mp second
        cases rest
        exact ⟨before, input, after, names, rfl, rfl⟩

theorem region_operator {before after : List FxNode} {node : FxNode}
    (split : group.nodes = before ++ node :: after) :
    group.region =
      (group.inputs.map placeholder ++ before.map operator) ++
        operator node :: (after.map operator ++ [result group.outputs]) := by
  simp [region, split]

theorem region_result :
    group.region =
      (group.inputs.map placeholder ++ group.nodes.map operator) ++
        result group.outputs :: [] := by
  simp [region]

theorem inputs_live
    (used : ∀ name ∈ group.inputs, ∃ node ∈ group.nodes, name ∈ node.inputs)
    (some_input : group.inputs ≠ []) :
    ∃ front step back, group.region = front ++ step :: back ∧
      ∀ name ∈ group.inputs, name ∈ liveAt front step back := by
  obtain ⟨before, input, inputs⟩ : ∃ before input,
      group.inputs = before ++ [input] :=
    ⟨_, _, (List.dropLast_append_getLast some_input).symm⟩
  refine ⟨before.map placeholder, placeholder input,
    group.nodes.map operator ++ [result group.outputs], ?_, ?_⟩
  · simp [region, inputs]
  · intro name member
    rw [mem_liveAt, names_placeholders]
    obtain ⟨node, listed, read⟩ := used name member
    rw [inputs, List.mem_append, List.mem_singleton] at member
    rcases member with earlier | rfl
    · right
      exact ⟨earlier, operator node, List.mem_cons_of_mem _
        (List.mem_append_left _ (List.mem_map_of_mem listed)), read⟩
    · exact .inl rfl

end Group

namespace FxGraph

section Halves

variable {γ σ : Type} {graph : FxGraph γ σ} {before after : List (List FxNode)}
  {front back : List FxNode} {name : NodeName} {modules : Modules}
  {sizes : Sizes}

theorem node_of_name {part : List FxNode} {user : FxNode}
    (inside : ∀ node ∈ part, node ∈ graph.nodes) (member : user ∈ graph.nodes)
    (named : user.name ∈ part.map FxNode.name) : user ∈ part := by
  obtain ⟨node, listed, same⟩ := List.mem_map.mp named
  have distinct := graph.ordered.names.1
  rwa [← List.inj_on_of_nodup_map distinct (inside node listed) member same]

theorem halves_inside
    (chunking : graph.Chunking (before ++ (front ++ back) :: after)) :
    ∀ node ∈ front ++ back, node ∈ graph.nodes := by
  intro node member
  rw [← chunking]
  simp only [List.flatten_append, List.flatten_cons, List.mem_append] at member ⊢
  exact .inr (.inl member)

theorem halves_nodup
    (chunking : graph.Chunking (before ++ (front ++ back) :: after)) :
    (front.map FxNode.name ++ back.map FxNode.name).Nodup := by
  rw [← List.map_append]
  exact (chunk_ordered chunking rfl).names.1

theorem front_reads
    (chunking : graph.Chunking (before ++ (front ++ back) :: after))
    {node : FxNode} (member : node ∈ front) (read : name ∈ node.inputs) :
    name ∉ back.map FxNode.name := by
  have ordered := Dataflow.ordered_append.mp (chunk_ordered chunking rfl)
  have known := ordered.1.reads member read
  intro later
  obtain ⟨other, listed, rfl⟩ := List.mem_map.mp later
  exact ordered.2.names.2 other listed known

theorem front_inputs
    (chunking : graph.Chunking (before ++ (front ++ back) :: after))
    (declared : name ∈ (graph.makeGroup front).inputs) :
    name ∈ (graph.makeGroup (front ++ back)).inputs := by
  obtain ⟨⟨node, member, read⟩, foreign⟩ := mem_inputs.mp declared
  apply mem_inputs.mpr
  refine ⟨⟨node, List.mem_append_left _ member, read⟩, ?_⟩
  rw [List.map_append, List.mem_append]
  rintro (own | later)
  · exact foreign own
  · exact front_reads chunking member read later

theorem back_inputs (declared : name ∈ (graph.makeGroup back).inputs) :
    name ∈ (graph.makeGroup (front ++ back)).inputs ∨
      name ∈ front.map FxNode.name := by
  obtain ⟨⟨node, member, read⟩, foreign⟩ := mem_inputs.mp declared
  by_cases own : name ∈ front.map FxNode.name
  · exact .inr own
  · left
    apply mem_inputs.mpr
    refine ⟨⟨node, List.mem_append_right _ member, read⟩, ?_⟩
    rw [List.map_append, List.mem_append]
    exact not_or.mpr ⟨own, foreign⟩

theorem usedOutside_iff {chunk : List FxNode} :
    graph.usedOutside chunk name = true ↔
      (∃ user ∈ graph.nodes, name ∈ user.inputs ∧
        user.name ∉ chunk.map FxNode.name) ∨ graph.returns name = true := by
  simp only [usedOutside, Bool.or_eq_true, List.any_eq_true, Bool.and_eq_true,
    decide_eq_true_eq]

theorem front_outputs
    (chunking : graph.Chunking (before ++ (front ++ back) :: after))
    (output : name ∈ (graph.makeGroup front).outputs) :
    (∃ node ∈ back, name ∈ node.inputs) ∨
      name ∈ (graph.makeGroup (front ++ back)).outputs := by
  obtain ⟨own, used⟩ := mem_outputs.mp output
  have inside := halves_inside chunking
  have whole : name ∈ (front ++ back).map FxNode.name := by
    rw [List.map_append]
    exact List.mem_append_left _ own
  rcases usedOutside_iff.mp used with ⟨user, member, read, outside⟩ | returned
  · by_cases later : user.name ∈ back.map FxNode.name
    · left
      exact ⟨user, node_of_name (fun node listed =>
        inside node (List.mem_append_right _ listed)) member later, read⟩
    · right
      apply mem_outputs.mpr
      refine ⟨whole, usedOutside_iff.mpr (.inl ⟨user, member, read, ?_⟩)⟩
      rw [List.map_append, List.mem_append]
      exact not_or.mpr ⟨outside, later⟩
  · exact .inr (mem_outputs.mpr ⟨whole, usedOutside_iff.mpr (.inr returned)⟩)

theorem back_outputs
    (chunking : graph.Chunking (before ++ (front ++ back) :: after))
    (output : name ∈ (graph.makeGroup back).outputs) :
    name ∈ (graph.makeGroup (front ++ back)).outputs := by
  obtain ⟨own, used⟩ := mem_outputs.mp output
  have inside := halves_inside chunking
  apply mem_outputs.mpr
  constructor
  · rw [List.map_append]
    exact List.mem_append_right _ own
  apply usedOutside_iff.mpr
  rcases usedOutside_iff.mp used with ⟨user, member, read, outside⟩ | returned
  · left
    refine ⟨user, member, read, ?_⟩
    rw [List.map_append, List.mem_append]
    rintro (earlier | later)
    · have listed := node_of_name (fun node listed =>
        inside node (List.mem_append_left _ listed)) member earlier
      exact front_reads chunking listed read own
    · exact outside later
  · exact .inr returned

theorem inputs_read {chunk : List FxNode} :
    ∀ name ∈ (graph.makeGroup chunk).inputs,
      ∃ node ∈ (graph.makeGroup chunk).nodes, name ∈ node.inputs := by
  intro name declared
  exact (mem_inputs.mp declared).1

theorem front_peak (size : NodeName → Nat)
    (chunking : graph.Chunking (before ++ (front ++ back) :: after)) :
    peak size (graph.makeGroup front).region ≤
      peak size (graph.makeGroup (front ++ back)).region := by
  apply peak_mono
  intro earlier step later split
  rcases Group.region_cases split with
    ⟨others, input, rest, declared, rfl, rfl⟩ |
      ⟨others, node, rest, listed, rfl, rfl, rfl⟩ | ⟨rfl, rfl, rfl⟩
  · -- Its inputs are inputs of the group.
    have nonempty : (graph.makeGroup (front ++ back)).inputs ≠ [] := by
      have member : input ∈ (graph.makeGroup front).inputs := by
        simp [declared]
      exact List.ne_nil_of_mem (front_inputs chunking member)
    obtain ⟨wide, wider, rest', same, live⟩ :=
      Group.inputs_live inputs_read nonempty
    refine ⟨wide, wider, rest', same, ?_⟩
    intro name member
    have placed := Group.liveAt_placeholder member
    apply live
    apply front_inputs chunking
    rw [declared]
    rw [List.mem_append, List.mem_singleton] at placed
    rcases placed with placed | rfl
    · exact List.mem_append_left _ placed
    · simp
  · -- What leaves it is still needed by the rest of the group.
    have nodes : (graph.makeGroup (front ++ back)).nodes =
        others ++ node :: (rest ++ back) := by
      change front ++ back = _
      change front = _ at listed
      simp [listed]
    refine ⟨_, _, _, Group.region_operator nodes, ?_⟩
    intro name member
    rw [Group.mem_liveAt_operator] at member ⊢
    apply member.imp_right
    rintro ⟨known, needed⟩
    refine ⟨known.imp_left (front_inputs chunking), ?_⟩
    rcases needed with ⟨user, listed, read⟩ | output
    · left
      rw [← List.cons_append]
      exact ⟨user, List.mem_append_left _ listed, read⟩
    · rcases front_outputs chunking output with ⟨user, listed, read⟩ | output
      · left
        rw [← List.cons_append]
        exact ⟨user, List.mem_append_right _ listed, read⟩
      · exact .inr output
  · -- At its output, what leaves it is live; so it is at its last node.
    rcases List.eq_nil_or_concat front with rfl | ⟨others, node, rfl⟩
    · refine ⟨_, _, _, Group.region_result, ?_⟩
      intro name member
      obtain ⟨_, output⟩ := Group.mem_liveAt_result.mp member
      cases (mem_outputs.mp output).1
    · have nodes : (graph.makeGroup (others ++ [node] ++ back)).nodes =
          others ++ node :: back := by
        change others ++ [node] ++ back = _
        simp
      rw [List.concat_eq_append] at *
      refine ⟨_, _, _, Group.region_operator nodes, ?_⟩
      intro name member
      obtain ⟨_, output⟩ := Group.mem_liveAt_result.mp member
      apply Group.mem_liveAt_operator.mpr
      have own := (mem_outputs.mp output).1
      rw [List.map_append, List.mem_append] at own
      rcases own with earlier | last
      · right
        refine ⟨.inr earlier, ?_⟩
        rcases front_outputs chunking output with ⟨user, listed, read⟩ | output
        · exact .inl ⟨user, List.mem_cons_of_mem _ listed, read⟩
        · exact .inr output
      · left
        simpa using last

theorem back_peak (size : NodeName → Nat)
    (chunking : graph.Chunking (before ++ (front ++ back) :: after)) :
    peak size (graph.makeGroup back).region ≤
      peak size (graph.makeGroup (front ++ back)).region := by
  have known : ∀ {name : NodeName}, name ∈ (graph.makeGroup back).inputs →
      name ∈ (graph.makeGroup (front ++ back)).inputs ∨
        name ∈ front.map FxNode.name := back_inputs
  apply peak_mono
  intro earlier step later split
  rcases Group.region_cases split with
    ⟨others, input, rest, declared, rfl, rfl⟩ |
      ⟨others, node, rest, listed, rfl, rfl, rfl⟩ | ⟨rfl, rfl, rfl⟩
  · -- Its inputs are all live when its first node runs.
    obtain ⟨⟨reader, member, _⟩, _⟩ :=
      mem_inputs.mp (show input ∈ (graph.makeGroup back).inputs by
        simp [declared])
    obtain ⟨first, others', rfl⟩ : ∃ first others', back = first :: others' :=
      List.exists_cons_of_ne_nil (List.ne_nil_of_mem member)
    refine ⟨_, _, _, Group.region_operator
      (show (graph.makeGroup (front ++ first :: others')).nodes =
        front ++ first :: others' from rfl), ?_⟩
    intro name live
    have placed : name ∈ (graph.makeGroup (first :: others')).inputs := by
      have placed := Group.liveAt_placeholder live
      rw [declared]
      rw [List.mem_append, List.mem_singleton] at placed
      rcases placed with placed | rfl
      · exact List.mem_append_left _ placed
      · simp
    apply Group.mem_liveAt_operator.mpr
    right
    exact ⟨known placed, .inl (inputs_read name placed)⟩
  · have nodes : (graph.makeGroup (front ++ back)).nodes =
        (front ++ others) ++ node :: rest := by
      change front ++ back = _
      change back = _ at listed
      simp [listed]
    refine ⟨_, _, _, Group.region_operator nodes, ?_⟩
    intro name member
    rw [Group.mem_liveAt_operator] at member ⊢
    apply member.imp_right
    rintro ⟨placed, needed⟩
    refine ⟨?_, needed.imp_right (back_outputs chunking)⟩
    rw [List.map_append, List.mem_append]
    rcases placed with declared | earlier
    · exact (known declared).imp_right .inl
    · exact .inr (.inr earlier)
  · refine ⟨_, _, _, Group.region_result, ?_⟩
    intro name member
    rw [Group.mem_liveAt_result] at member ⊢
    have output := back_outputs chunking member.2
    exact ⟨.inr (mem_outputs.mp output).1, output⟩

/-- What `_admit` estimates for the group of a chunk. -/
def estimate (graph : FxGraph γ σ) (modules : Modules) (sizes : Sizes)
    (chunk : List FxNode) : Nat :=
  ((graph.makeGroup chunk).admission modules sizes).estimatedWorkingSet

/-- The values of the front half that leave it take no more than one value of
the whole group does, or than the values that leave the whole group. -/
def OutputsFit (graph : FxGraph γ σ) (sizes : Sizes) (front back : List FxNode) :
    Prop :=
  (∃ name ∈ (graph.makeGroup (front ++ back)).inputs ++
      (front ++ back).map FxNode.name,
    (graph.makeGroup front).outputBytes sizes ≤ sizes.value name) ∨
  (graph.makeGroup front).outputBytes sizes ≤
    (graph.makeGroup (front ++ back)).outputBytes sizes

/-- At most one value crosses from the front half, or all that do leave the
group as well. -/
def Separable (graph : FxGraph γ σ) (front back : List FxNode) : Prop :=
  (graph.makeGroup front).outputs.length ≤ 1 ∨
    ∀ name ∈ (graph.makeGroup front).outputs,
      name ∈ (graph.makeGroup (front ++ back)).outputs

/-- A part of a group owns part of its parameters and buffers, so its peak and
its largest value decide. -/
theorem estimate_le {part chunk : List FxNode}
    (nodes : ∀ node ∈ part, node ∈ chunk)
    (activations : peak sizes.value (graph.makeGroup part).region ≤
      peak sizes.value (graph.makeGroup chunk).region)
    (values : largest ((graph.makeGroup part).valueSizes sizes) ≤
      largest ((graph.makeGroup chunk).valueSizes sizes)) :
    graph.estimate modules sizes part ≤ graph.estimate modules sizes chunk := by
  have parameters : ∀ name ∈ (graph.makeGroup part).parameterNames modules,
      name ∈ (graph.makeGroup chunk).parameterNames modules := by
    intro name member
    obtain ⟨node, listed, owns⟩ := Group.mem_parameterNames.mp member
    exact Group.mem_parameterNames.mpr ⟨node, nodes node listed, owns⟩
  have buffers : ∀ name ∈ (graph.makeGroup part).bufferNames modules,
      name ∈ (graph.makeGroup chunk).bufferNames modules := by
    intro name member
    obtain ⟨node, listed, owns⟩ := Group.mem_bufferNames.mp member
    exact Group.mem_bufferNames.mpr ⟨node, nodes node listed, owns⟩
  apply phases_mono
  · exact sum_le_of_subset (Dataflow.nodup_eraseDups _)
      (Dataflow.nodup_eraseDups _) parameters
  · exact sum_le_of_subset (Dataflow.nodup_eraseDups _)
      (Dataflow.nodup_eraseDups _) buffers
  · apply largest_le.mpr
    intro size member
    obtain ⟨name, listed, rfl⟩ := List.mem_map.mp member
    exact le_largest (List.mem_map_of_mem (parameters name listed))
  · exact activations
  · exact values

theorem value_le_largest {chunk : List FxNode}
    (known : name ∈ (graph.makeGroup chunk).inputs ∨
      name ∈ chunk.map FxNode.name) :
    sizes.value name ≤ largest ((graph.makeGroup chunk).valueSizes sizes) := by
  apply le_largest
  apply Group.mem_valueSizes.mpr
  rcases known with declared | own
  · exact .inl ⟨name, declared, rfl⟩
  · obtain ⟨node, member, rfl⟩ := List.mem_map.mp own
    exact .inr (.inl ⟨node, member, rfl⟩)

theorem outputs_le_largest {chunk : List FxNode} :
    (graph.makeGroup chunk).outputBytes sizes ≤
      largest ((graph.makeGroup chunk).valueSizes sizes) :=
  le_largest (Group.mem_valueSizes.mpr (.inr (.inr rfl)))

/-- The values of a part of a group are values of the group; only what leaves
the part may be larger. -/
theorem largest_part {part chunk : List FxNode}
    (inputs : ∀ name ∈ (graph.makeGroup part).inputs,
      name ∈ (graph.makeGroup chunk).inputs ∨ name ∈ chunk.map FxNode.name)
    (nodes : ∀ node ∈ part, node ∈ chunk)
    (outputs : (graph.makeGroup part).outputBytes sizes ≤
      largest ((graph.makeGroup chunk).valueSizes sizes)) :
    largest ((graph.makeGroup part).valueSizes sizes) ≤
      largest ((graph.makeGroup chunk).valueSizes sizes) := by
  apply largest_le.mpr
  intro size member
  rcases Group.mem_valueSizes.mp member with
    ⟨name, declared, rfl⟩ | ⟨node, listed, rfl⟩ | rfl
  · exact value_le_largest (inputs name declared)
  · exact value_le_largest (.inr (List.mem_map_of_mem (nodes node listed)))
  · exact outputs

theorem outputs_nodup {chunk : List FxNode}
    (distinct : (chunk.map FxNode.name).Nodup) :
    (graph.makeGroup chunk).outputs.Nodup := distinct.filter _

theorem back_estimate
    (chunking : graph.Chunking (before ++ (front ++ back) :: after)) :
    graph.estimate modules sizes back ≤
      graph.estimate modules sizes (front ++ back) := by
  have distinct := halves_nodup chunking
  apply estimate_le
  · intro node member
    exact List.mem_append_right _ member
  · exact back_peak sizes.value chunking
  apply largest_part
  · intro name declared
    rw [List.map_append, List.mem_append]
    exact (back_inputs declared).imp_right .inl
  · intro node member
    exact List.mem_append_right _ member
  · refine (sum_le_of_subset ?_ ?_ fun name output =>
      back_outputs chunking output).trans outputs_le_largest
    · exact outputs_nodup distinct.of_append_right
    · exact outputs_nodup (by rwa [List.map_append])

theorem front_estimate
    (chunking : graph.Chunking (before ++ (front ++ back) :: after))
    (fit : graph.OutputsFit sizes front back) :
    graph.estimate modules sizes front ≤
      graph.estimate modules sizes (front ++ back) := by
  apply estimate_le
  · intro node member
    exact List.mem_append_left _ member
  · exact front_peak sizes.value chunking
  apply largest_part
  · intro name declared
    exact .inl (front_inputs chunking declared)
  · intro node member
    exact List.mem_append_left _ member
  · rcases fit with ⟨name, known, below⟩ | below
    · exact below.trans (value_le_largest (List.mem_append.mp known))
    · exact below.trans outputs_le_largest

theorem Separable.fits
    (chunking : graph.Chunking (before ++ (front ++ back) :: after))
    (separable : graph.Separable front back) (sizes : Sizes) :
    graph.OutputsFit sizes front back := by
  have distinct := halves_nodup chunking
  rcases separable with single | leave
  · cases outputs : (graph.makeGroup front).outputs with
    | nil =>
        right
        simp [Group.outputBytes, outputs]
    | cons name rest =>
        rw [outputs, List.length_cons] at single
        obtain rfl : rest = [] := List.length_eq_zero_iff.mp (by omega)
        have own : name ∈ (graph.makeGroup front).outputs := by simp [outputs]
        left
        refine ⟨name, ?_, by simp [Group.outputBytes, outputs]⟩
        apply List.mem_append_right
        rw [List.map_append]
        exact List.mem_append_left _ (mem_outputs.mp own).1
  · right
    refine sum_le_of_subset ?_ ?_ leave
    · exact outputs_nodup distinct.of_append_left
    · exact outputs_nodup (by rwa [List.map_append])

def pairSizes (first second : NodeName) : Sizes where
  value name := (if name = first then 10 else 0) +
    if name = second then 10 else 0
  parameter _ := 0
  buffer _ := 0

theorem pairSizes_sum {first second : NodeName} (names : Finset NodeName) :
    ∑ name ∈ names, (pairSizes first second).value name =
      (if first ∈ names then 10 else 0) + if second ∈ names then 10 else 0 := by
  simp only [pairSizes, Finset.sum_add_distrib, Finset.sum_ite_eq']

theorem pairSizes_estimate {first second : NodeName} (chunk : List FxNode) :
    graph.estimate modules (pairSizes first second) chunk =
      (phases 0 0 0
        (peak (pairSizes first second).value (graph.makeGroup chunk).region)
        (largest ((graph.makeGroup chunk).valueSizes
          (pairSizes first second)))).estimatedWorkingSet := by
  have none : ∀ names : List Nat, largest (names.map fun _ => 0) = 0 := by
    intro names
    apply Nat.le_zero.mp
    apply largest_le.mpr
    intro size member
    obtain ⟨_, _, rfl⟩ := List.mem_map.mp member
    exact le_rfl
  have nothing : ∀ names : List Nat, (names.map fun _ => 0).sum = 0 := by
    intro names
    induction names with
    | nil => rfl
    | cons name names ih => simp
  simp only [estimate, Group.admission, pairSizes, none, nothing]

/-- Two values cross from the front half, one of them only to the back half:
together they are the largest value of the front half, but not of the group. -/
theorem front_exceeds {first second : NodeName}
    (chunking : graph.Chunking (before ++ (front ++ back) :: after))
    (crosses : first ∈ (graph.makeGroup front).outputs)
    (crosses' : second ∈ (graph.makeGroup front).outputs)
    (different : second ≠ first)
    (stays : first ∉ (graph.makeGroup (front ++ back)).outputs) :
    graph.estimate modules (pairSizes first second) (front ++ back) <
      graph.estimate modules (pairSizes first second) front := by
  have distinct := halves_nodup chunking
  have most : ∀ names : Finset NodeName,
      ∑ name ∈ names, (pairSizes first second).value name ≤ 20 := by
    intro names
    rw [pairSizes_sum]
    split <;> split <;> omega
  have bytes : ∀ {chunk : List FxNode}, (chunk.map FxNode.name).Nodup →
      (graph.makeGroup chunk).outputBytes (pairSizes first second) =
        (if first ∈ (graph.makeGroup chunk).outputs then 10 else 0) +
          if second ∈ (graph.makeGroup chunk).outputs then 10 else 0 := by
    intro chunk distinct
    rw [Group.outputBytes, ← List.sum_toFinset _ (outputs_nodup distinct),
      pairSizes_sum]
    simp only [List.mem_toFinset]
  have whole : graph.estimate modules (pairSizes first second) (front ++ back) ≤
      (phases 0 0 0 20 10).estimatedWorkingSet := by
    rw [pairSizes_estimate]
    apply phases_mono le_rfl le_rfl le_rfl
    · exact peak_le.mpr fun _ _ _ _ => most _
    · have each : ∀ name, (pairSizes first second).value name ≤ 10 := by
        intro name
        simp only [pairSizes]
        by_cases same : name = first
        · subst same
          simp [different.symm]
        · simp only [same, if_false]
          split <;> omega
      apply largest_le.mpr
      intro size member
      rcases Group.mem_valueSizes.mp member with
        ⟨name, _, rfl⟩ | ⟨node, _, rfl⟩ | rfl
      · exact each name
      · exact each node.name
      · rw [bytes (by rwa [List.map_append]), if_neg stays]
        split <;> omega
  have half : (phases 0 0 0 20 20).estimatedWorkingSet ≤
      graph.estimate modules (pairSizes first second) front := by
    rw [pairSizes_estimate]
    have total := bytes distinct.of_append_left
    rw [if_pos crosses, if_pos crosses'] at total
    apply phases_mono le_rfl le_rfl le_rfl
    · refine le_trans ?_ (sum_le_peak Group.region_result)
      have live : ∀ name ∈ (graph.makeGroup front).outputs,
          name ∈ liveAt ((graph.makeGroup front).inputs.map Group.placeholder ++
            (graph.makeGroup front).nodes.map Group.operator)
            (Group.result (graph.makeGroup front).outputs) [] := by
        intro name output
        apply Group.mem_liveAt_result.mpr
        exact ⟨.inr (mem_outputs.mp output).1, output⟩
      rw [pairSizes_sum, if_pos (live first crosses),
        if_pos (live second crosses')]
    · rw [show (20 : Nat) = 10 + 10 from rfl, ← total]
      exact outputs_le_largest
  calc graph.estimate modules (pairSizes first second) (front ++ back)
      ≤ (phases 0 0 0 20 10).estimatedWorkingSet := whole
    _ < (phases 0 0 0 20 20).estimatedWorkingSet := by decide
    _ ≤ graph.estimate modules (pairSizes first second) front := half

/-- Cutting a group never raises its back half's estimate, and it does not
raise its front half's where what leaves the front half fits.  A cut is safe
whatever the sizes are just when it is separable. -/
theorem split_estimate {chunk : List FxNode} (modules : Modules)
    (chunking : graph.Chunking (before ++ chunk :: after)) (cut : Nat) :
    (∀ sizes, graph.estimate modules sizes (chunk.drop cut) ≤
      graph.estimate modules sizes chunk) ∧
    (∀ sizes, graph.OutputsFit sizes (chunk.take cut) (chunk.drop cut) →
      graph.estimate modules sizes (chunk.take cut) ≤
        graph.estimate modules sizes chunk) ∧
    ((∀ sizes, graph.estimate modules sizes (chunk.take cut) ≤
          graph.estimate modules sizes chunk ∧
        graph.estimate modules sizes (chunk.drop cut) ≤
          graph.estimate modules sizes chunk) ↔
      graph.Separable (chunk.take cut) (chunk.drop cut)) := by
  have halves : chunk.take cut ++ chunk.drop cut = chunk :=
    List.take_append_drop cut chunk
  rw [← halves] at chunking
  have distinct := halves_nodup chunking
  have backward : ∀ sizes, graph.estimate modules sizes (chunk.drop cut) ≤
      graph.estimate modules sizes (chunk.take cut ++ chunk.drop cut) :=
    fun sizes => back_estimate chunking
  have forward : ∀ sizes,
      graph.OutputsFit sizes (chunk.take cut) (chunk.drop cut) →
      graph.estimate modules sizes (chunk.take cut) ≤
        graph.estimate modules sizes (chunk.take cut ++ chunk.drop cut) :=
    fun sizes fit => front_estimate chunking fit
  rw [halves] at backward forward
  refine ⟨backward, forward, ?_, ?_⟩
  · intro safe
    by_contra inseparable
    obtain ⟨several, leaves⟩ := not_or.mp inseparable
    obtain ⟨first, crosses, stays⟩ : ∃ name ∈ (graph.makeGroup
        (chunk.take cut)).outputs, name ∉ (graph.makeGroup
        (chunk.take cut ++ chunk.drop cut)).outputs := by
      simpa using leaves
    have many : 1 < (graph.makeGroup (chunk.take cut)).outputs.toFinset.card := by
      rw [List.toFinset_card_of_nodup (outputs_nodup distinct.of_append_left)]
      omega
    obtain ⟨second, crosses', different⟩ := Finset.exists_mem_ne many first
    have exceeds : graph.estimate modules (pairSizes first second)
          (chunk.take cut ++ chunk.drop cut) <
        graph.estimate modules (pairSizes first second) (chunk.take cut) :=
      front_exceeds chunking crosses (List.mem_toFinset.mp crosses') different
        stays
    rw [halves] at exceeds
    exact absurd (safe _).1 (Nat.not_le_of_lt exceeds)
  · intro separable sizes
    exact ⟨forward sizes (separable.fits chunking sizes), backward sizes⟩

end Halves

/-! Two branches of a value, each reduced to four bytes, and their sum. -/

theorem branch_distinct : ([0] : List NodeName).Nodup := by decide

def branchGraph : FxGraph Nat Unit where
  placeholders := [0]
  nodes := [⟨1, [0], 0⟩, ⟨2, [0], 0⟩, ⟨3, [1], 0⟩, ⟨4, [2], 0⟩, ⟨5, [3, 4], 0⟩]
  output := ⟨[.node 5], ()⟩
  distinct := branch_distinct
  ordered := by decide
  known := by
    intro leaf member name same
    subst same
    simp at member
    subst member
    decide

def branchModules : Modules := ⟨fun _ => [], fun _ => []⟩

def branchSizes : Sizes where
  value name := if name < 3 then 400 else 4
  parameter _ := 0
  buffer _ := 0

/-- The first two nodes are estimated at 2800 bytes, all five at 2600. -/
theorem split_raises_estimate :
    branchGraph.Chunking (branchGraph.partition none 12) ∧
      branchGraph.partition none 12 = [branchGraph.nodes] ∧
      branchGraph.estimate branchModules branchSizes branchGraph.nodes = 2600 ∧
      branchGraph.estimate branchModules branchSizes
        (branchGraph.nodes.take 2) = 2800 ∧
      ¬ (branchGraph.estimate branchModules branchSizes
            (branchGraph.nodes.take 2) ≤
          branchGraph.estimate branchModules branchSizes branchGraph.nodes ∧
        branchGraph.estimate branchModules branchSizes
            (branchGraph.nodes.drop 2) ≤
          branchGraph.estimate branchModules branchSizes branchGraph.nodes) := by
  refine ⟨partition_chunking none 12, ?_⟩
  decide +kernel

theorem split_estimate_branches :
    branchGraph.estimate branchModules branchSizes (branchGraph.nodes.take 1) ≤
        branchGraph.estimate branchModules branchSizes branchGraph.nodes ∧
      branchGraph.estimate branchModules branchSizes
          (branchGraph.nodes.drop 1) ≤
        branchGraph.estimate branchModules branchSizes branchGraph.nodes := by
  have chunking : branchGraph.Chunking ([] ++ branchGraph.nodes :: []) := by
    simp [Chunking]
  obtain ⟨_, _, safe⟩ := split_estimate branchModules chunking 1
  exact safe.mpr (.inl (by decide +kernel)) branchSizes

end FxGraph

end TrainPool
