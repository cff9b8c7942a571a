import Mathlib.Data.List.Induction
import TrainPool.Torch.Forward
import TrainPool.Torch.Reverse

namespace TrainPool

open HandleStore

variable {τ γ σ : Type}

/-! The backward pass knows the owner of every live handle, and its gradients
are those of a map without handles. -/

/-- The gradients that wait for the groups that produce their values. -/
abbrev Pending (τ σ : Type) := NodeName → Option (Gradient τ σ)

namespace Pending

def accumulate (add : τ → τ → τ) (pending : Pending τ σ)
    (entry : NodeName × Gradient τ σ) : Pending τ σ :=
  Function.update pending entry.1 (some (match pending entry.1 with
    | none => entry.2
    | some old => Gradient.sum add old entry.2))

def without (pending : Pending τ σ) (names : List NodeName) : Pending τ σ :=
  fun name => if name ∈ names then none else pending name

@[simp] theorem without_nil (pending : Pending τ σ) :
    pending.without [] = pending := by
  funext name
  simp [without]

theorem without_cons (pending : Pending τ σ) (name : NodeName)
    (names : List NodeName) :
    pending.without (name :: names) =
      without (Function.update pending name none) names := by
  funext other
  by_cases same : other = name
  · subst same
    simp [without]
  · simp [without, same]

def outputs (requires : NodeName → Nat → Bool) (pending : Pending τ σ)
    (entries : List (NodeName × Value τ γ σ)) : List ((NodeName × Nat) × τ) :=
  entries.flatMap fun entry =>
    match pending entry.1 with
    | none => []
    | some grad => GraphRuntime.upstream requires entry.1 entry.2 grad

end Pending

/-- The values that `final` gives to names. -/
def valuesOf (final : NodeName → Option (Value τ γ σ))
    (names : List NodeName) : List (Value τ γ σ) :=
  (names.mapM final).getD []

/-- The backward pass without handles: the pending gradients and the parameter
gradients so far, by group and parameter. -/
structure Sweep (τ σ : Type) where
  pending : Pending τ σ
  parameters : List ((Nat × Nat) × Option τ)

namespace Sweep

open GraphRuntime

variable (autograd : Autograd τ γ σ)
  (final : NodeName → Option (Value τ γ σ)) (states : Nat → ModuleState τ)

def arguments (group : Group) : List (NodeName × Value τ γ σ) :=
  group.inputs.zip (valuesOf final group.inputs)

def targets (group : Group) (stage : ModuleStage) : List Target :=
  argumentTargets autograd.isFloatingPoint (arguments final group) ++
    (trainableNames stage).map .parameter

/-- The derivatives that a group yields for the gradients of its outputs. -/
def derivative (index : Nat) (group : Group) (stage : ModuleStage)
    (pending : Pending τ σ) : Target → Option τ :=
  derivatives autograd index (states index) (valuesOf final group.inputs)
    (targets autograd final group stage)
    (pending.outputs
      (autograd.requiresGrad index (states index)
        (valuesOf final group.inputs) (targets autograd final group stage))
      (group.outputs.zip (valuesOf final group.outputs)))

def contributions (index : Nat) (group : Group) (stage : ModuleStage)
    (pending : Pending τ σ) : List (NodeName × Gradient τ σ) :=
  (arguments final group).map (inputGradient autograd.isFloatingPoint
    (derivative autograd final states index group stage pending))

def parameterGradients (index : Nat) (group : Group) (stage : ModuleStage)
    (pending : Pending τ σ) : List ((Nat × Nat) × Option τ) :=
  (trainableNames stage).filterMap fun name =>
    (derivative autograd final states index group stage pending
      (.parameter name)).map fun grad => ((index, name), some grad)

def seeds : List (OutputLeaf γ) → List (Option τ) →
    List (NodeName × Gradient τ σ)
  | [], _ => []
  | .constant _ :: rest, gradOutputs => seeds rest gradOutputs
  | .node name :: rest, gradOutputs =>
      match final name with
      | none => []
      | some value =>
          match takeGradients value.leaves gradOutputs with
          | none => []
          | some (leaves, gradOutputs) =>
              (name, ⟨leaves, value.spec⟩) :: seeds rest gradOutputs

/-- The group takes the gradients of its outputs and gives those of its
inputs. -/
def reverseGroup (index : Nat) (group : Group) (stage : ModuleStage)
    (sweep : Sweep τ σ) : Sweep τ σ where
  pending := (contributions autograd final states index group stage
    sweep.pending).foldl (Pending.accumulate autograd.add)
      (sweep.pending.without group.outputs)
  parameters := sweep.parameters ++
    parameterGradients autograd final states index group stage sweep.pending

def step (sweep : Sweep τ σ) (entry : (Group × ModuleStage) × Nat) :
    Sweep τ σ :=
  if entry.1.1.outputs.any fun name => (sweep.pending name).isSome then
    reverseGroup autograd final states entry.2 entry.1.1 entry.1.2 sweep
  else sweep

def order (groups : List Group) (stages : List ModuleStage) :
    List ((Group × ModuleStage) × Nat) :=
  (groups.zip stages).zipIdx.reverse

def run (ir : GraphIR γ σ) (stages : List ModuleStage)
    (gradOutputs : List (Option τ)) : Sweep τ σ :=
  (order ir.groups stages).foldl (step autograd final states)
    ⟨(seeds final ir.frontend.output.leaves gradOutputs).foldl
      (Pending.accumulate autograd.add) fun _ => none, []⟩

def result (sweep : Sweep τ σ) (name : NodeName) : Option (Gradient τ σ) :=
  match sweep.pending name with
  | some grad => some grad
  | none => (final name).map fun value =>
      ⟨value.leaves.map fun _ => .none, value.spec⟩

theorem zip_snoc {groups : List Group} {stages : List ModuleStage}
    (group : Group) {stage : ModuleStage}
    (found : stages[groups.length]? = some stage) :
    (groups ++ [group]).zip stages =
      groups.zip stages ++ [(group, stage)] := by
  induction groups generalizing stages with
  | nil =>
      cases stages with
      | nil => cases found
      | cons first stages =>
          cases found
          rfl
  | cons first groups ih =>
      cases stages with
      | nil => cases found
      | cons other stages =>
          simp only [List.cons_append, List.zip_cons_cons]
          rw [ih (by simpa using found)]

theorem order_snoc {groups : List Group} {stages : List ModuleStage}
    (group : Group) {stage : ModuleStage}
    (found : stages[groups.length]? = some stage) :
    order (groups ++ [group]) stages =
      ((group, stage), groups.length) :: order groups stages := by
  have short : groups.length ≤ stages.length :=
    Nat.le_of_lt (List.getElem?_eq_some_iff.mp found).1
  rw [order, zip_snoc group found, List.zipIdx_append, List.reverse_append]
  simp [order, Nat.min_eq_left short]

theorem order_chunks_snoc (graph : FxGraph γ σ) {front : List (List FxNode)}
    (chunk : List FxNode) {stages : List ModuleStage} {stage : ModuleStage}
    (found : stages[front.length]? = some stage) :
    order ((front ++ [chunk]).map graph.makeGroup) stages =
      ((graph.makeGroup chunk, stage), front.length) ::
        order (front.map graph.makeGroup) stages := by
  have located : stages[(front.map graph.makeGroup).length]? = some stage := by
    rw [List.length_map]
    exact found
  rw [List.map_append, List.map_singleton, order_snoc _ located,
    List.length_map]

end Sweep

theorem Tape.Valid.congr {final other : NodeName → Option (Value τ γ σ)}
    {tape : Tape γ σ} {store : HandleStore τ} {rest : Multiset Handle}
    (valid : tape.Valid final store rest)
    (same : ∀ name ∈ tape.values, other name = final name) :
    tape.Valid other store rest where
  owned := valid.owned
  held := by
    intro name saved found
    obtain ⟨value, restored, equal⟩ := valid.held name saved found
    refine ⟨value, restored, ?_⟩
    rw [same name (AList.lookup_isSome.mp (by simp [found])), equal]

def gradientHandles (gradients : Gradients σ) : Multiset Handle :=
  Table.sum SavedTree.handles gradients

def Shaped (final : NodeName → Option (Value τ γ σ)) (name : NodeName)
    (grad : Gradient τ σ) : Prop :=
  ∃ value, final name = some value ∧
    grad.leaves.length = value.leaves.length

/-- `gradients` holds `pending`, and the live handles are its own and `rest`. -/
structure Holds (final : NodeName → Option (Value τ γ σ))
    (pending : Pending τ σ) (gradients : Gradients σ) (store : HandleStore τ)
    (rest : Multiset Handle) : Prop where
  valid : (⟨gradients, []⟩ : Tape Empty σ).Valid pending store rest
  keys : ∀ name, name ∉ gradients → pending name = none
  shaped : ∀ name grad, pending name = some grad → Shaped final name grad

namespace Holds

variable {final : NodeName → Option (Value τ γ σ)} {pending : Pending τ σ}
  {gradients : Gradients σ} {store next : HandleStore τ}
  {rest other : Multiset Handle} {name : NodeName}

theorem owned (holds : Holds final pending gradients store rest) :
    store.handles = gradientHandles gradients + rest :=
  holds.valid.owned

theorem mem_iff (holds : Holds final pending gradients store rest) :
    name ∈ gradients ↔ ∃ grad, pending name = some grad := by
  refine ⟨?_, ?_⟩
  · intro stored
    exact (holds.valid.restore stored).2
  · intro waiting
    obtain ⟨grad, found⟩ := waiting
    by_contra absent
    rw [holds.keys name absent] at found
    cases found

theorem frame (holds : Holds final pending gradients store rest)
    (owned : next.handles = gradientHandles gradients + other)
    (keeps : Keeps (gradientHandles gradients) store next) :
    Holds final pending gradients next other :=
  ⟨holds.valid.frame owned keeps, holds.keys, holds.shaped⟩

theorem pop (holds : Holds final pending gradients store rest)
    {saved : SavedTree Empty σ}
    (found : gradients.lookup name = some saved) :
    ∃ grad, saved.restore store = some grad ∧ pending name = some grad ∧
      Holds final (Function.update pending name none) (gradients.erase name)
        (saved.free store) rest ∧
      Keeps rest store (saved.free store) := by
  obtain ⟨grad, restored, waiting⟩ := holds.valid.held name saved found
  have stored : name ∈ gradients :=
    AList.lookup_isSome.mp (by simp [found])
  obtain ⟨next, dropped, valid, keeps⟩ := holds.valid.drop stored
  have freed : next = saved.free store := by
    simp [Tape.drop, found] at dropped
    exact dropped.symm
  subst freed
  refine ⟨grad, restored, waiting, ⟨valid.congr ?_, ?_, ?_⟩, keeps⟩
  · intro other member
    exact Function.update_of_ne (AList.mem_erase.mp member).1 _ _
  · intro other absent
    by_cases same : other = name
    · rw [same, Function.update_self]
    · rw [Function.update_of_ne same]
      apply holds.keys
      intro present
      exact absent (AList.mem_erase.mpr ⟨same, present⟩)
  · intro other kept waits
    by_cases same : other = name
    · rw [same, Function.update_self] at waits
      cases waits
    · rw [Function.update_of_ne same] at waits
      exact holds.shaped other kept waits

theorem save (holds : Holds final pending gradients store rest)
    (absent : name ∉ gradients) {grad : Gradient τ σ}
    (shaped : Shaped final name grad) :
    Holds final (Function.update pending name (some grad))
        (gradients.insert name (SavedTree.save grad store).1)
        (SavedTree.save grad store).2 rest ∧
      Keeps rest store (SavedTree.save grad store).2 := by
  have elsewhere : (⟨gradients, []⟩ : Tape Empty σ).Valid
      (Function.update pending name (some grad)) store rest := by
    refine holds.valid.congr ?_
    intro other present
    refine Function.update_of_ne ?_ _ _
    intro same
    exact absent (same ▸ present)
  obtain ⟨valid, keeps⟩ := elsewhere.save absent grad
    (Function.update_self ..)
  refine ⟨⟨valid, ?_, ?_⟩, keeps.mono ?_⟩
  · intro other missing
    have different : other ≠ name ∧ other ∉ gradients := by
      rw [AList.mem_insert, not_or] at missing
      exact missing
    rw [Function.update_of_ne different.1]
    exact holds.keys other different.2
  · intro other kept waits
    by_cases same : other = name
    · subst same
      rw [Function.update_self] at waits
      cases waits
      exact shaped
    · rw [Function.update_of_ne same] at waits
      exact holds.shaped other kept waits
  · intro handle member
    rw [holds.owned]
    exact Multiset.mem_add.mpr (.inr member)

end Holds

namespace GraphRuntime

variable {final : NodeName → Option (Value τ γ σ)} {pending : Pending τ σ}
  {gradients : Gradients σ} {store : HandleStore τ} {rest : Multiset Handle}

theorem accumulate_spec (add : τ → τ → τ) {name : NodeName}
    {values : Gradient τ σ}
    (holds : Holds final pending gradients store rest)
    (shaped : Shaped final name values) :
    ∃ after next, accumulate add name values gradients store =
        some (after, next) ∧
      Holds final (pending.accumulate add (name, values)) after next rest ∧
      Keeps rest store next := by
  cases found : gradients.lookup name with
  | none =>
      have absent : name ∉ gradients := AList.lookup_eq_none.mp found
      obtain ⟨saved, keeps⟩ := holds.save absent shaped
      refine ⟨_, _, by simp only [accumulate, found]; rfl, ?_, keeps⟩
      simp only [Pending.accumulate, holds.keys name absent]
      exact saved
  | some previous =>
      obtain ⟨old, restored, waiting, popped, keeps⟩ := holds.pop found
      obtain ⟨value, defined, width⟩ := holds.shaped name old waiting
      obtain ⟨_, same, length⟩ := shaped
      rw [defined] at same
      cases same
      have equal : old.leaves.length = values.leaves.length := by
        rw [width, length]
      have whole : Shaped final name (Gradient.sum add old values) := by
        refine ⟨value, defined, ?_⟩
        simp [Gradient.sum, width, length]
      have missing : name ∉ gradients.erase name := by
        simp [AList.mem_erase]
      obtain ⟨saved, keeps'⟩ := popped.save missing whole
      let stored := SavedTree.save (Gradient.sum add old values)
        (previous.free store)
      refine ⟨(gradients.erase name).insert name stored.1, stored.2, ?_, ?_,
        keeps.trans keeps'⟩
      · simp only [accumulate, found, restored, equal, guard_true,
          Option.bind_eq_bind, Option.bind_some]
        rfl
      · simp only [Pending.accumulate, waiting]
        rw [Function.update_idem] at saved
        exact saved

theorem accumulateAll_spec (add : τ → τ → τ)
    {entries : List (NodeName × Gradient τ σ)}
    (holds : Holds final pending gradients store rest)
    (shaped : ∀ entry ∈ entries, Shaped final entry.1 entry.2) :
    ∃ after next, accumulateAll add entries gradients store =
        some (after, next) ∧
      Holds final (entries.foldl (Pending.accumulate add) pending) after next
        rest ∧
      Keeps rest store next := by
  induction entries generalizing pending gradients store with
  | nil => exact ⟨gradients, store, rfl, holds, Keeps.refl _ _⟩
  | cons entry entries ih =>
      obtain ⟨after, next, first, holds, keeps⟩ :=
        accumulate_spec add holds (shaped entry (by simp))
      obtain ⟨last, final, others, holds, keeps'⟩ := ih holds
        (fun other member => shaped other (List.mem_cons_of_mem _ member))
      refine ⟨last, final, ?_, holds, keeps.trans keeps'⟩
      simp only [accumulateAll, first, Option.bind_eq_bind, Option.bind_some]
      exact others

theorem restored_structure {saved : SavedTree γ σ} {value : Value τ γ σ}
    (restored : saved.restore store = some value) :
    saved.spec = value.spec ∧
      (∀ gradOutputs : List (Option τ),
        takeGradients saved.leaves gradOutputs =
          takeGradients value.leaves gradOutputs) ∧
      saved.leaves.length = value.leaves.length := by
  simp only [SavedTree.restore, Option.bind_eq_bind,
    Option.bind_eq_some_iff] at restored
  obtain ⟨leaves, collected, same⟩ := restored
  cases same
  have related := Dataflow.mapM_eq_some.mp collected
  refine ⟨rfl, ?_, related.length_eq⟩
  clear collected
  generalize saved.leaves = olds at related
  simp only
  induction related with
  | nil => intro _; rfl
  | @cons old new olds news same _ ih =>
      intro gradOutputs
      cases old with
      | tensor handle =>
          simp only [SavedTree.restoreLeaf, Option.map_eq_some_iff] at same
          obtain ⟨_, _, rfl⟩ := same
          cases gradOutputs with
          | nil => rfl
          | cons grad gradOutputs => simp [takeGradients, ih]
      | constant value =>
          cases same
          simp [takeGradients, ih]
      | none =>
          cases same
          simp [takeGradients, ih]

theorem takeGradients_total {α : Type} (leaves : List (Leaf α γ))
    {gradOutputs : List (Option τ)}
    (enough : leaves.countP Leaf.isTensor ≤ gradOutputs.length) :
    ∃ taken, takeGradients leaves gradOutputs =
        some (taken, gradOutputs.drop (leaves.countP Leaf.isTensor)) ∧
      taken.length = leaves.length := by
  induction leaves generalizing gradOutputs with
  | nil => exact ⟨[], rfl, rfl⟩
  | cons leaf leaves ih =>
      cases leaf with
      | tensor value =>
          simp only [List.countP_cons, Leaf.isTensor, if_true] at enough ⊢
          cases gradOutputs with
          | nil => simp at enough
          | cons grad gradOutputs =>
              obtain ⟨taken, found, width⟩ :=
                @ih gradOutputs (by simpa using enough)
              exact ⟨Gradient.ofOption grad :: taken,
                by simp [takeGradients, found], by simp [width]⟩
      | constant value =>
          simp only [List.countP_cons, Leaf.isTensor] at enough ⊢
          obtain ⟨taken, found, width⟩ := ih (by simpa using enough)
          exact ⟨.none :: taken, by simp [takeGradients, found],
            by simp [width]⟩
      | none =>
          simp only [List.countP_cons, Leaf.isTensor] at enough ⊢
          obtain ⟨taken, found, width⟩ := ih (by simpa using enough)
          exact ⟨.none :: taken, by simp [takeGradients, found],
            by simp [width]⟩

theorem seed_eq (add : τ → τ → τ) {tape : Tape γ σ} {origin : HandleStore τ}
    (valid : tape.Valid final origin rest) {leaves : List (OutputLeaf γ)}
    (stored : ∀ name, .node name ∈ leaves → name ∈ tape.values)
    {results : List (ResultLeaf τ γ σ)} {spec : σ}
    (read : leaves.mapM (resultLeaf final) = some results)
    {gradOutputs : List (Option τ)}
    (enough : outputLeaves ⟨results, spec⟩ ≤ gradOutputs.length)
    (gradients : Gradients σ) (store : HandleStore τ) :
    seed add tape leaves gradOutputs gradients store =
        accumulateAll add (Sweep.seeds final leaves gradOutputs) gradients
          store ∧
      ∀ entry ∈ Sweep.seeds final leaves gradOutputs,
        Shaped final entry.1 entry.2 := by
  have related := Dataflow.mapM_eq_some.mp read
  clear read
  induction related generalizing gradOutputs gradients store with
  | nil => exact ⟨rfl, nofun⟩
  | @cons leaf result leaves results same _ ih =>
      have later := fun name listed =>
        stored name (List.mem_cons_of_mem leaf listed)
      cases leaf with
      | constant value =>
          cases same
          exact ih later (by simpa [outputLeaves] using enough) gradients store
      | node name =>
          obtain ⟨value, found, rfl⟩ := Option.map_eq_some_iff.mp same
          obtain ⟨saved, looked⟩ := Option.isSome_iff_exists.mp
            (AList.lookup_isSome.mpr (stored name (by simp)))
          obtain ⟨_, restored, held⟩ := valid.held name saved looked
          rw [found] at held
          cases held
          obtain ⟨specs, taking, _⟩ := restored_structure restored
          simp only [outputLeaves, List.map_cons, List.sum_cons] at enough
          obtain ⟨taken, took, width⟩ := takeGradients_total value.leaves
            (Nat.le_of_add_right_le enough)
          have left : outputLeaves ⟨results, spec⟩ ≤ (gradOutputs.drop
              (value.leaves.countP Leaf.isTensor)).length := by
            rw [List.length_drop]
            simp only [outputLeaves]
            omega
          have rest := ih later left
          have seeds : Sweep.seeds final (.node name :: leaves) gradOutputs =
              (name, ⟨taken, value.spec⟩) :: Sweep.seeds final leaves
                (gradOutputs.drop (value.leaves.countP Leaf.isTensor)) := by
            simp [Sweep.seeds, found, took]
          rw [seeds]
          refine ⟨?_, ?_⟩
          · simp only [seed, looked, taking, took, specs, accumulateAll,
              Option.bind_eq_bind, Option.bind_some]
            refine congrArg _ (funext fun stepped => ?_)
            exact (rest stepped.1 stepped.2).1
          · intro entry member
            rcases List.mem_cons.mp member with rfl | member
            · exact ⟨value, found, width⟩
            · exact (rest gradients store).2 entry member

theorem collectOutputs_spec (requires : NodeName → Nat → Bool)
    {entries : List (NodeName × Value τ γ σ)}
    (holds : Holds final pending gradients store rest)
    (distinct : (entries.map Prod.fst).Nodup)
    (values : ∀ entry ∈ entries, final entry.1 = some entry.2) :
    ∃ after next, collectOutputs requires entries gradients store =
        some (pending.outputs requires entries, after, next) ∧
      Holds final (pending.without (entries.map Prod.fst)) after next rest ∧
      Keeps rest store next := by
  induction entries generalizing pending gradients store with
  | nil =>
      refine ⟨gradients, store, rfl, ?_, Keeps.refl _ _⟩
      rw [List.map_nil, Pending.without_nil]
      exact holds
  | cons entry entries ih =>
      obtain ⟨name, value⟩ := entry
      rw [List.map_cons, List.nodup_cons] at distinct
      have others := fun entry member =>
        values entry (List.mem_cons_of_mem (name, value) member)
      cases found : gradients.lookup name with
      | none =>
          have missing := holds.keys name (AList.lookup_eq_none.mp found)
          obtain ⟨after, next, collected, holds, keeps⟩ :=
            ih holds distinct.2 others
          refine ⟨after, next, ?_, ?_, keeps⟩
          · simp only [collectOutputs, found, collected, Pending.outputs,
              List.flatMap_cons, missing, List.nil_append]
          · rw [List.map_cons, Pending.without_cons]
            have same : Function.update pending name none = pending := by
              rw [← missing, Function.update_eq_self]
            rw [same]
            exact holds
      | some saved =>
          obtain ⟨grad, restored, waiting, popped, keeps⟩ := holds.pop found
          obtain ⟨_, defined, width⟩ := holds.shaped name grad waiting
          rw [values (name, value) (by simp)] at defined
          cases defined
          obtain ⟨after, next, collected, holds, keeps'⟩ :=
            ih popped distinct.2 others
          have same : Pending.outputs requires
              (Function.update pending name none) entries =
                Pending.outputs requires pending entries := by
            refine List.flatMap_congr ?_
            intro entry member
            rw [Function.update_of_ne]
            intro equal
            refine distinct.1 (List.mem_map.mpr ⟨entry, member, equal⟩)
          refine ⟨after, next, ?_, ?_, keeps.trans keeps'⟩
          · rw [same] at collected
            simp only [collectOutputs, found, restored, width, guard_true,
              collected, Option.bind_eq_bind, Option.bind_some]
            simp [Pending.outputs, waiting]
          · rw [List.map_cons, Pending.without_cons]
            exact holds

theorem storeGradients_spec (index : Nat) (derivative : Target → Option τ)
    (names : List Nat) (store : HandleStore τ) :
    (storeGradients index derivative names store).2.handles =
        ((storeGradients index derivative names store).1.map Prod.snd :
          List Handle) + store.handles ∧
      Keeps store.handles store
        (storeGradients index derivative names store).2 ∧
      (∀ entry ∈ (storeGradients index derivative names store).1,
        store.next ≤ entry.2) ∧
      (storeGradients index derivative names store).1.map (fun entry =>
          (entry.1, (storeGradients index derivative names store).2.restore
            entry.2)) =
        names.filterMap fun name =>
          (derivative (.parameter name)).map fun grad =>
            ((index, name), some grad) := by
  induction names generalizing store with
  | nil => exact ⟨by simp [storeGradients], Keeps.refl _ _, nofun, rfl⟩
  | cons name names ih =>
      cases known : derivative (.parameter name) with
      | none =>
          obtain ⟨grown, keeps, fresh, values⟩ := ih store
          simp only [storeGradients, known]
          refine ⟨grown, keeps, fresh, ?_⟩
          rw [List.filterMap_cons, known]
          exact values
      | some grad =>
          obtain ⟨grown, keeps, fresh, values⟩ := ih (store.offload grad).2
          have live : (store.offload grad).1 ∈
              (store.offload grad).2.handles := by
            rw [handles_offload]
            exact Multiset.mem_cons_self _ _
          simp only [storeGradients, known]
          refine ⟨?_, offload_keeps.trans (keeps.mono ?_), ?_, ?_⟩
          · rw [grown, handles_offload, List.map_cons, ← Multiset.cons_coe,
              Multiset.add_cons, Multiset.cons_add]
          · intro handle member
            rw [handles_offload]
            exact Multiset.mem_cons_of_mem member
          · intro entry member
            rcases List.mem_cons.mp member with rfl | member
            · exact Nat.le_refl _
            · exact (Nat.le_succ _).trans (fresh entry member)
          · rw [List.map_cons, values, List.filterMap_cons, known,
              keeps.same _ live, restore_offload_self]
            rfl

theorem dropAll_spec {names : List NodeName} {tape : Tape γ σ}
    (valid : tape.Valid final store rest) (distinct : names.Nodup)
    (stored : ∀ name ∈ names, name ∈ tape.values) :
    ∃ after next, dropAll names tape store = some (after, next) ∧
      after.Valid final next rest ∧ Keeps rest store next ∧
      after.buffers = tape.buffers ∧
      ∀ name ∈ tape.values, name ∉ names → name ∈ after.values := by
  induction names generalizing tape store with
  | nil =>
      exact ⟨tape, store, rfl, valid, Keeps.refl _ _, rfl,
        fun _ listed _ => listed⟩
  | cons name names ih =>
      rw [List.nodup_cons] at distinct
      obtain ⟨middle, dropped, valid, keeps⟩ :=
        valid.drop (stored name (by simp))
      obtain ⟨after, next, rest, valid, keeps', buffers, kept⟩ :=
        ih valid distinct.2 (by
          intro other listed
          refine AList.mem_erase.mpr
            ⟨?_, stored other (List.mem_cons_of_mem _ listed)⟩
          intro same
          exact distinct.1 (same ▸ listed))
      refine ⟨after, next, ?_, valid, keeps.trans keeps', buffers, ?_⟩
      · simp only [dropAll, dropped, Option.bind_eq_bind, Option.bind_some]
        exact rest
      · intro other listed missing
        rw [List.mem_cons, not_or] at missing
        exact kept other (AList.mem_erase.mpr ⟨missing.1, listed⟩) missing.2

theorem freeEntries_spec {δ : Type} {entries : List (Σ _ : NodeName, SavedTree δ σ)}
    (owned : store.handles =
      (entries.map fun entry => entry.2.handles).sum + rest) :
    (entries.foldl (fun store entry => entry.2.free store) store).handles =
        rest ∧
      Keeps rest store
        (entries.foldl (fun store entry => entry.2.free store) store) := by
  induction entries generalizing store with
  | nil => exact ⟨by simpa using owned, Keeps.refl _ _⟩
  | cons entry entries ih =>
      rw [List.map_cons, List.sum_cons, add_assoc] at owned
      obtain ⟨left, keeps⟩ := SavedTree.free_spec owned
      obtain ⟨all, keeps'⟩ := ih left
      refine ⟨all, (keeps.mono ?_).trans keeps'⟩
      intro handle member
      exact Multiset.mem_add.mpr (.inr member)

theorem freeSnapshots_spec {buffers : List (List (Nat × Handle))}
    (owned : store.handles = snapshotHandles buffers + rest) :
    (buffers.foldl (fun store snapshot => snapshot.foldl
        (fun store entry => store.free entry.2) store) store).handles =
        rest ∧
      Keeps rest store (buffers.foldl (fun store snapshot => snapshot.foldl
        (fun store entry => store.free entry.2) store) store) := by
  rw [← List.foldl_flatten]
  have listed := @SavedTree.freeList_keeps τ store rest
    (buffers.flatten.map Prod.snd) owned
  rwa [List.foldl_map] at listed

/-- `release_tape` gives back the handles of the tape. -/
theorem release_spec {tape : Tape γ σ}
    (valid : tape.Valid final store
      (snapshotHandles tape.buffers + rest)) :
    (tape.release store).handles = rest ∧
      Keeps rest store (tape.release store) := by
  obtain ⟨left, keeps⟩ := freeEntries_spec valid.owned
  obtain ⟨all, keeps'⟩ := freeSnapshots_spec left
  refine ⟨all, (keeps.mono ?_).trans keeps'⟩
  intro handle member
  exact Multiset.mem_add.mpr (.inr member)

/-- The owners of handles other than the tape and the pending gradients. -/
def owners (base : Multiset Handle) (stages : List ModuleStage)
    (buffers : List (List (Nat × Handle)))
    (produced : List ((Nat × Nat) × Handle)) : Multiset Handle :=
  base + stageHandles stages + snapshotHandles buffers +
    (produced.map Prod.snd : List Handle)

/-- What `reverse` has established when the chunks `front` are left. -/
structure Backed (graph : FxGraph γ σ) (chunks : List (List FxNode))
    (final : NodeName → Option (Value τ γ σ))
    (states : Nat → ModuleState τ) (base : Multiset Handle)
    (stages : List ModuleStage) (limit : Handle) (front : List (List FxNode))
    (sweep : Sweep τ σ) (reversing : Reversing τ γ σ) : Prop where
  tape : reversing.tape.Valid final reversing.store
    (gradientHandles reversing.gradients +
      owners base stages reversing.tape.buffers reversing.produced)
  holds : Holds final sweep.pending reversing.gradients reversing.store
    (reversing.tape.handles +
      owners base stages reversing.tape.buffers reversing.produced)
  available : ∀ name ∈ graph.placeholders ++ graph.outputsOf front,
    name ∈ reversing.tape.values
  snapshots : reversing.tape.buffers.length = chunks.length
  replays : ∀ index stage snapshot, stages[index]? = some stage →
    reversing.tape.buffers[index]? = some snapshot →
      stage.state snapshot reversing.store = some (states index) ∧
        ∀ entry ∈ stage.stateHandles snapshot,
          entry.2 ∈ base + stageHandles stages +
            snapshotHandles reversing.tape.buffers
  grown : limit ≤ reversing.store.next
  fresh : ∀ entry ∈ reversing.produced, limit ≤ entry.2
  parameters : reversing.produced.map (fun entry =>
    (entry.1, reversing.store.restore entry.2)) = sweep.parameters

theorem valuesOf_eq {names : List NodeName} {values : List (Value τ γ σ)}
    (collected : names.mapM final = some values) :
    valuesOf final names = values := by
  simp [valuesOf, collected]

theorem inputGradient_shaped (floating : τ → Bool)
    (derivative : Target → Option τ) {entry : NodeName × Value τ γ σ}
    (value : final entry.1 = some entry.2) :
    Shaped final (inputGradient floating derivative entry).1
      (inputGradient floating derivative entry).2 :=
  ⟨entry.2, value, by simp [inputGradient]⟩

section Group

variable {operators : Operators τ γ σ} {autograd : Autograd τ γ σ}
  {graph : FxGraph γ σ} {chunks front back : List (List FxNode)}
  {chunk : List FxNode} {states : Nat → ModuleState τ}
  {base : Multiset Handle} {stages : List ModuleStage} {limit : Handle}
  {sweep : Sweep τ σ} {reversing : Reversing τ γ σ}

theorem mem_boundary_left {name : NodeName}
    (listed : name ∈ graph.placeholders ++ graph.outputsOf front) :
    name ∈ graph.placeholders ++ graph.outputsOf (front ++ [chunk]) := by
  rw [FxGraph.outputsOf, List.flatMap_append, ← List.append_assoc]
  exact List.mem_append_left _ listed

theorem gather_spec {index : Nat} {group : Group} {stage : ModuleStage}
    {arguments results : List (Value τ γ σ)}
    (given : group.inputs.mapM final = some arguments)
    (produced : group.outputs.mapM final = some results)
    (distinct : group.outputs.Nodup) {pending : Pending τ σ}
    {gradients : Gradients σ} {rest : Multiset Handle}
    (holds : Holds final pending gradients store rest) :
    let requires := autograd.requiresGrad index (states index) arguments
      (argumentTargets autograd.isFloatingPoint (group.inputs.zip arguments) ++
        (trainableNames stage).map Target.parameter)
    let derivative := Sweep.derivative autograd final states index group stage
      pending
    ∃ outputs taken first added second,
      collectOutputs requires (group.outputs.zip results) gradients store =
        some (outputs, taken, first) ∧
      derivatives autograd index (states index) arguments
        (argumentTargets autograd.isFloatingPoint
          (group.inputs.zip arguments) ++
            (trainableNames stage).map Target.parameter) outputs =
        derivative ∧
      accumulateAll autograd.add ((group.inputs.zip arguments).map
        (inputGradient autograd.isFloatingPoint derivative)) taken first =
          some (added, second) ∧
      Holds final ((Sweep.contributions autograd final states index group stage
        pending).foldl (Pending.accumulate autograd.add)
          (pending.without group.outputs)) added second rest ∧
      Keeps rest store second := by
  intro requires derivative
  obtain ⟨outputNames, outputValues⟩ := zip_spec produced
  obtain ⟨_, inputValues⟩ := zip_spec given
  obtain ⟨taken, first, collected, holds, keeps⟩ := collectOutputs_spec
    requires holds (by rwa [outputNames]) outputValues
  obtain ⟨added, second, summed, holds, keeps'⟩ :=
    @accumulateAll_spec _ _ _ _ _ _ _ _ autograd.add
      ((group.inputs.zip arguments).map
        (inputGradient autograd.isFloatingPoint derivative)) holds
      (by
        intro entry member
        obtain ⟨argument, inside, rfl⟩ := List.mem_map.mp member
        exact inputGradient_shaped _ _ (inputValues argument inside))
  refine ⟨_, taken, first, added, second, collected, ?_, summed, ?_,
    keeps.trans keeps'⟩
  · simp only [derivative, Sweep.derivative, Sweep.targets, Sweep.arguments,
      valuesOf_eq given, valuesOf_eq produced, requires]
  · rw [outputNames] at holds
    simpa only [Sweep.contributions, Sweep.arguments, valuesOf_eq given,
      derivative] using holds

theorem settle_spec (index : Nat) (derivative : Target → Option τ)
    (parameters : List Nat) {names : List NodeName} {tape : Tape γ σ}
    {pending : Pending τ σ} {gradients : Gradients σ}
    {produced : List ((Nat × Nat) × Handle)}
    (valid : tape.Valid final store (gradientHandles gradients +
      owners base stages tape.buffers produced))
    (holds : Holds final pending gradients store (tape.handles +
      owners base stages tape.buffers produced))
    (distinct : names.Nodup) (stored : ∀ name ∈ names, name ∈ tape.values) :
    let new := storeGradients index derivative parameters store
    let owned := owners base stages tape.buffers (produced ++ new.1)
    ∃ after last, dropAll names tape new.2 = some (after, last) ∧
      after.Valid final last (gradientHandles gradients + owned) ∧
      Holds final pending gradients last (after.handles + owned) ∧
      Keeps (owners base stages tape.buffers produced) store last ∧
      after.buffers = tape.buffers ∧
      (∀ name ∈ tape.values, name ∉ names → name ∈ after.values) ∧
      (∀ entry ∈ new.1, store.next ≤ entry.2) ∧
      new.1.map (fun entry => (entry.1, last.restore entry.2)) =
        parameters.filterMap fun name =>
          (derivative (.parameter name)).map fun grad =>
            ((index, name), some grad) := by
  intro new owned
  obtain ⟨grown, keeps, fresh, values⟩ :=
    storeGradients_spec index derivative parameters store
  have total : new.2.handles =
      tape.handles + (gradientHandles gradients + owned) := by
    rw [grown, holds.owned]
    simp only [owned, owners, new, List.map_append, ← Multiset.coe_add]
    ac_rfl
  have inside : ∀ handle ∈ gradientHandles gradients + (tape.handles +
      owners base stages tape.buffers produced), handle ∈ store.handles := by
    intro handle member
    rwa [holds.owned]
  have tape' : tape.Valid final new.2 (gradientHandles gradients + owned) :=
    valid.frame total (keeps.mono fun handle member =>
      inside handle (Multiset.mem_add.mpr
        (.inr (Multiset.mem_add.mpr (.inl member)))))
  obtain ⟨after, last, dropped, left, keeps', buffers, kept⟩ :=
    dropAll_spec tape' distinct stored
  refine ⟨after, last, dropped, left, holds.frame ?_ ?_, ?_, buffers, kept,
    fresh, ?_⟩
  · rw [left.owned]
    ac_rfl
  · refine (keeps.mono fun handle member => inside handle
      (Multiset.mem_add.mpr (.inl member))).trans (keeps'.mono ?_)
    exact fun handle member => Multiset.mem_add.mpr (.inl member)
  · refine (keeps.mono fun handle member => inside handle (Multiset.mem_add.mpr
      (.inr (Multiset.mem_add.mpr (.inr member))))).trans (keeps'.mono ?_)
    intro handle member
    simp only [owned, owners, List.map_append, ← Multiset.coe_add,
      Multiset.mem_add] at member ⊢
    tauto
  · rw [← values]
    refine List.map_congr_left ?_
    intro entry member
    rw [keeps'.same]
    simp only [owned, owners, List.map_append, ← Multiset.coe_add,
      Multiset.mem_add, Multiset.mem_coe]
    exact .inr (.inr (.inr (List.mem_map_of_mem member)))

theorem Backed.replays_keep {index : Nat} {other : HandleStore τ}
    (backed : Backed graph chunks final states base stages limit front sweep
      reversing)
    (keeps : Keeps (owners base stages reversing.tape.buffers
      reversing.produced) reversing.store other) {stage : ModuleStage}
    {snapshot : List (Nat × Handle)} (listed : stages[index]? = some stage)
    (looked : reversing.tape.buffers[index]? = some snapshot) :
    stage.state snapshot other = some (states index) ∧
      ∀ entry ∈ stage.stateHandles snapshot,
        entry.2 ∈ base + stageHandles stages +
          snapshotHandles reversing.tape.buffers := by
  obtain ⟨state, inside⟩ := backed.replays index stage snapshot listed looked
  refine ⟨?_, inside⟩
  rw [← state]
  refine ModuleStage.state_keeps (keeps.mono ?_) inside
  intro handle member
  simp only [owners, Multiset.mem_add] at member ⊢
  tauto

theorem reverseGroup_spec (chunking : graph.Chunking chunks)
    (split : chunks = front ++ chunk :: back)
    (solves : Dataflow.Solves FxNode.name FxNode.inputs
      (operators.apply front.length (states front.length)) final chunk)
    {stage : ModuleStage} (found : stages[front.length]? = some stage)
    (backed : Backed graph chunks final states base stages limit
      (front ++ [chunk]) sweep reversing) :
    ∃ next,
      reverseGroup operators autograd front.length (graph.makeGroup chunk)
          stage reversing = some next ∧
        Backed graph chunks final states base stages limit front
          (sweep.reverseGroup autograd final states front.length
            (graph.makeGroup chunk) stage) next := by
  obtain ⟨arguments, read, given⟩ := backed.tape.restoreAll
    fun name declared => backed.available name
      (mem_boundary_left (FxGraph.inputs_available chunking split declared))
  obtain ⟨results, called, produced⟩ :=
    functionalCall_spec chunking split solves given
  obtain ⟨distinct, apart⟩ := outputs_apart chunking split
  obtain ⟨snapshot, snapped⟩ :
      ∃ snapshot, reversing.tape.buffers[front.length]? = some snapshot := by
    apply Option.isSome_iff_exists.mp
    simp [backed.snapshots, split]
  obtain ⟨state, _⟩ := backed.replays _ stage snapshot found snapped
  obtain ⟨outputs, taken, first, added, second, collected, same, summed, holds,
    gathers⟩ := @gather_spec _ _ _ _ _ autograd states front.length
      (graph.makeGroup chunk) stage arguments results given produced distinct
      _ _ _ backed.holds
  have tape : reversing.tape.Valid final second (gradientHandles added +
      owners base stages reversing.tape.buffers reversing.produced) := by
    refine backed.tape.frame ?_ (gathers.mono fun handle member =>
      Multiset.mem_add.mpr (.inl member))
    rw [holds.owned]
    ac_rfl
  let derivative := Sweep.derivative autograd final states front.length
    (graph.makeGroup chunk) stage sweep.pending
  obtain ⟨after, last, dropped, tape, holds, settles, buffers, kept, fresh,
    values⟩ := settle_spec front.length derivative (trainableNames stage) tape
      holds distinct (by
        intro name listed
        apply backed.available
        rw [FxGraph.outputsOf, List.flatMap_append, ← List.append_assoc]
        exact List.mem_append_right _ (by simpa using listed))
  have keeps : Keeps (owners base stages reversing.tape.buffers
      reversing.produced) reversing.store last :=
    (gathers.mono fun handle member =>
      Multiset.mem_add.mpr (.inr member)).trans settles
  refine ⟨⟨last, after, added, reversing.produced ++ (storeGradients
    front.length derivative (trainableNames stage) second).1⟩, ?_, ?_⟩
  · simp only [reverseGroup, read, snapped, state, called,
      Option.bind_eq_bind, Option.bind_some]
    rw [collected]
    simp only [Option.bind_some]
    rw [same, summed]
    simp only [Option.bind_some]
    exact congrArg (Option.bind · _) dropped
  · refine ⟨?_, ?_, ?_, ?_, ?_, ?_, ?_, ?_⟩
    · simp only [buffers]
      exact tape
    · simp only [buffers]
      exact holds
    · intro name listed
      exact kept name (backed.available name (mem_boundary_left listed))
        (apart name listed)
    · rw [buffers]
      exact backed.snapshots
    · intro index other taken listed looked
      rw [buffers] at looked ⊢
      exact backed.replays_keep keeps listed looked
    · exact backed.grown.trans keeps.grows
    · intro entry member
      rcases List.mem_append.mp member with old | new
      · exact backed.fresh entry old
      · exact (backed.grown.trans gathers.grows).trans (fresh entry new)
    · simp only [Sweep.reverseGroup, List.map_append, ← backed.parameters]
      refine congrArg₂ _ ?_ values
      refine List.map_congr_left ?_
      intro entry member
      rw [keeps.same]
      simp only [owners, Multiset.mem_add, Multiset.mem_coe]
      exact .inr (List.mem_map_of_mem member)

theorem reverseStep_spec (chunking : graph.Chunking chunks)
    (split : chunks = front ++ chunk :: back)
    (solves : Dataflow.Solves FxNode.name FxNode.inputs
      (operators.apply front.length (states front.length)) final chunk)
    {stage : ModuleStage} (found : stages[front.length]? = some stage)
    (backed : Backed graph chunks final states base stages limit
      (front ++ [chunk]) sweep reversing) :
    ∃ next,
      reverseStep operators autograd front.length (graph.makeGroup chunk)
          stage reversing = some next ∧
        Backed graph chunks final states base stages limit front
          (sweep.step autograd final states
            ((graph.makeGroup chunk, stage), front.length)) next := by
  have waits : ((graph.makeGroup chunk).outputs.any
      (· ∈ reversing.gradients)) = (graph.makeGroup chunk).outputs.any
        fun name => (sweep.pending name).isSome := by
    refine congrArg _ (funext fun name => ?_)
    rw [Bool.eq_iff_iff, decide_eq_true_eq, Option.isSome_iff_exists]
    exact backed.holds.mem_iff
  unfold reverseStep Sweep.step
  rw [waits]
  split
  · exact reverseGroup_spec chunking split solves found backed
  · exact ⟨reversing, rfl, { backed with
      available := fun name listed =>
        backed.available name (mem_boundary_left listed) }⟩

theorem reverseGroups_spec (chunking : graph.Chunking chunks)
    (split : chunks = front ++ back)
    (solves : ∀ index chunk, chunks[index]? = some chunk →
      Dataflow.Solves FxNode.name FxNode.inputs
        (operators.apply index (states index)) final chunk)
    (lengths : stages.length = chunks.length)
    (backed : Backed graph chunks final states base stages limit front sweep
      reversing) :
    ∃ next,
      reverseGroups operators autograd
          (Sweep.order (front.map graph.makeGroup) stages) reversing =
        some next ∧
      Backed graph chunks final states base stages limit []
        ((Sweep.order (front.map graph.makeGroup) stages).foldl
          (Sweep.step autograd final states) sweep) next := by
  -- The last group is taken first, so the induction removes chunks at the end.
  induction front using List.reverseRecOn generalizing back sweep reversing with
  | nil => exact ⟨reversing, rfl, backed⟩
  | append_singleton front chunk ih =>
      have whole : chunks = front ++ chunk :: back := by simp [split]
      obtain ⟨stage, found⟩ :
          ∃ stage, stages[front.length]? = some stage := by
        apply Option.isSome_iff_exists.mp
        simp [lengths, whole]
      obtain ⟨middle, ran, backed⟩ := reverseStep_spec chunking whole
        (solves front.length chunk (by simp [whole])) found backed
      obtain ⟨next, rest, backed⟩ := ih whole backed
      rw [Sweep.order_chunks_snoc graph chunk found, List.foldl_cons]
      refine ⟨next, ?_, backed⟩
      simp only [reverseGroups, ran, Option.bind_eq_bind, Option.bind_some]
      exact rest

theorem Backed.placeholderGradient
    (backed : Backed graph chunks final states base stages limit front sweep
      reversing) {name : NodeName} (listed : name ∈ graph.placeholders) :
    placeholderGradient reversing name = sweep.result final name ∧
      ∃ grad, sweep.result final name = some grad := by
  have stored := backed.available name (List.mem_append_left _ listed)
  obtain ⟨saved, found⟩ :=
    Option.isSome_iff_exists.mp (AList.lookup_isSome.mpr stored)
  obtain ⟨value, restored, defined⟩ := backed.tape.held name saved found
  obtain ⟨spec, _, width⟩ := restored_structure restored
  unfold GraphRuntime.placeholderGradient Sweep.result
  cases looked : reversing.gradients.lookup name with
  | some grad =>
      obtain ⟨tree, kept, waiting⟩ :=
        backed.holds.valid.held name grad looked
      simp [waiting, kept]
  | none =>
      have missing := backed.holds.keys name (AList.lookup_eq_none.mp looked)
      simp [missing, found, defined, spec, width, List.map_const']

theorem seeded {remaining : NodeName → Nat} {store : HandleStore τ}
    {tape : Tape γ σ} {origin : HandleStore τ}
    {result : Tree (ResultLeaf τ γ σ) σ} {gradOutputs : List (Option τ)}
    (chunking : graph.Chunking chunks)
    (reached : Reached graph chunks final states base origin true chunks
      stages [] ⟨store, tape, remaining⟩)
    (output : readOutput graph.output final = some result)
    (enough : outputLeaves result ≤ gradOutputs.length) :
    ∃ gradients next,
      seed autograd.add tape graph.output.leaves gradOutputs ∅ store =
        some (gradients, next) ∧
      Backed graph chunks final states base stages origin.next chunks
        ⟨(Sweep.seeds final graph.output.leaves gradOutputs).foldl
          (Pending.accumulate autograd.add) fun _ => none, []⟩
        ⟨next, tape, gradients, []⟩ := by
  simp only [readOutput, Option.bind_eq_bind, Option.bind_eq_some_iff]
    at output
  obtain ⟨results, read, same⟩ := output
  cases same
  obtain ⟨equal, shaped⟩ := seed_eq autograd.add reached.valid
    (fun name listed => reached.available name
      (FxGraph.returned_available chunking (FxGraph.returns_iff.mpr listed))
      (.inl rfl))
    read enough ∅ store
  have empty : Holds final (fun _ => none) (∅ : Gradients σ) store
      (tape.handles + owners base stages tape.buffers []) := by
    refine ⟨⟨?_, by simp⟩, fun _ _ => rfl, (by intros; contradiction)⟩
    rw [reached.valid.owned]
    simp [Tape.handles, Table.sum, owners, stageHandles]
  obtain ⟨gradients, next, accumulated, holds, keeps⟩ :=
    accumulateAll_spec autograd.add empty shaped
  refine ⟨gradients, next, equal.trans accumulated, ?_⟩
  refine ⟨?_, holds, ?_, reached.snapshots, ?_, ?_, (by intros; contradiction), rfl⟩
  · refine reached.valid.frame ?_ (keeps.mono fun handle member =>
      Multiset.mem_add.mpr (.inl member))
    rw [holds.owned]
    ac_rfl
  · intro name listed
    exact reached.available name listed (.inl rfl)
  · intro index stage snapshot found looked
    obtain ⟨state, inside⟩ :=
      reached.replays rfl index stage snapshot found looked
    refine ⟨?_, inside⟩
    rw [← state]
    refine ModuleStage.state_keeps (keeps.mono ?_) inside
    intro handle member
    simp only [owners, Multiset.mem_add] at member ⊢
    tauto
  · exact reached.grown.grows.trans keeps.grows

/-- The backward pass succeeds, computes what it computes without handles, and
owns nothing but the tape and the parameter gradients in the end. -/
theorem reverse_spec {remaining : NodeName → Nat} {store : HandleStore τ}
    {tape : Tape γ σ} {origin : HandleStore τ}
    {result : Tree (ResultLeaf τ γ σ) σ} {gradOutputs : List (Option τ)}
    (chunking : graph.Chunking chunks)
    (solves : ∀ index chunk, chunks[index]? = some chunk →
      Dataflow.Solves FxNode.name FxNode.inputs
        (operators.apply index (states index)) final chunk)
    (reached : Reached graph chunks final states base origin true chunks
      stages [] ⟨store, tape, remaining⟩)
    (output : readOutput graph.output final = some result)
    (enough : outputLeaves result ≤ gradOutputs.length) :
    ∃ reversed,
      reverse operators autograd (graph.makeIr chunks) stages tape gradOutputs
          store = some reversed ∧
      graph.placeholders.mapM ((Sweep.run autograd final states
          (graph.makeIr chunks) stages gradOutputs).result final) =
        some reversed.results ∧
      reversed.tape.Valid final reversed.store
        (owners base stages reversed.tape.buffers reversed.produced) ∧
      (∀ entry ∈ reversed.produced, origin.next ≤ entry.2) ∧
      reversed.produced.map (fun entry =>
          (entry.1, reversed.store.restore entry.2)) =
        (Sweep.run autograd final states (graph.makeIr chunks) stages
          gradOutputs).parameters := by
  obtain ⟨gradients, next, seeded, backed⟩ :=
    @seeded _ _ _ _ autograd _ _ _ _ _ _ _ _ _ _ _ chunking reached output
      enough
  obtain ⟨reversing, ran, backed⟩ := @reverseGroups_spec _ _ _ _ operators _ _
    _ _ [] _ _ _ _ _ _ chunking (List.append_nil _).symm solves
      reached.stages backed
  have found := fun name listed =>
    @Backed.placeholderGradient _ _ _ _ _ _ _ _ _ _ _ _ _ backed name listed
  obtain ⟨results, collected⟩ :=
    Dataflow.mapM_total fun name listed => (found name listed).2
  have read : graph.placeholders.mapM
      (GraphRuntime.placeholderGradient reversing) = some results := by
    rw [← collected]
    exact Dataflow.mapM_congr fun name listed => (found name listed).1
  obtain ⟨left, keeps⟩ := freeEntries_spec backed.holds.owned
  refine ⟨⟨results, reversing.tape, reversing.produced,
    freeGradients reversing.gradients reversing.store⟩, ?_, collected, ?_,
    backed.fresh, ?_⟩
  · have groups : (graph.makeIr chunks).groups =
        chunks.map graph.makeGroup := rfl
    have frontend : (graph.makeIr chunks).frontend = graph := rfl
    simp only [reverse, frontend, groups, seeded, Option.bind_eq_bind,
      Option.bind_some]
    exact (congrArg (Option.bind · _) ran).trans
      (congrArg (Option.bind · _) read)
  · exact backed.tape.frame left (keeps.mono fun handle member =>
      Multiset.mem_add.mpr (.inl member))
  · refine Eq.trans ?_ backed.parameters
    refine List.map_congr_left ?_
    intro entry member
    rw [show (freeGradients reversing.gradients reversing.store).restore
      entry.2 = _ from keeps.same _ ?_]
    simp only [owners, Multiset.mem_add, Multiset.mem_coe]
    exact .inr (.inr (List.mem_map_of_mem member))

end Group

end GraphRuntime

end TrainPool
