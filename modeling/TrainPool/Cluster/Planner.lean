import Mathlib.Data.Rat.Defs
import Mathlib.Data.String.Basic
import TrainPool.Cluster.Placement

namespace TrainPool

/-! The plan of a job: its one GPU, and the nodes that lend it memory. -/

structure Gpu where
  uuid : String
  vramFree : Nat
  usableVram : Nat
  deriving DecidableEq, Repr

structure PlannedNode extends RamNode where
  gpuCompute : Bool
  gpus : List Gpu
  deriving DecidableEq, Repr

structure GpuAssignment where
  nodeId : Uuid
  gpuId : String
  usableBytes : Nat
  safetyReserveBytes : Nat
  capacityShare : ℚ
  deriving DecidableEq, Repr

structure StageSpec where
  name : String
  workingSetBytes : Nat
  deriving DecidableEq, Repr

structure StageAssignment where
  stage : String
  nodeId : Uuid
  gpuId : String
  deriving DecidableEq, Repr

structure TrainingPlan (θ : Type) where
  jobId : Uuid
  leaderId : Uuid
  leaderEpoch : Uuid
  strategy : String
  computeNodes : List Uuid
  gpuAssignments : List GpuAssignment
  memoryNodes : List Uuid
  tensorPlacementPolicy : String
  topology : θ
  memoryBudgets : Table Uuid Nat
  stages : List StageAssignment
  executionSupported : Bool

namespace Planner

/-- `Iterator::min_by`: of several least items the first. -/
def minBy {α : Type} (order : α → α → Ordering) : List α → Option α
  | [] => none
  | first :: rest => some (rest.foldl (fun best other =>
      if order best other = .gt then other else best) first)

def eligible (nodes : List PlannedNode) : List (Uuid × Gpu) :=
  (nodes.filter (·.gpuCompute)).flatMap fun node =>
    (node.gpus.filter (0 < ·.usableVram)).map fun gpu => (node.nodeId, gpu)

def order (left right : Uuid × Gpu) : Ordering :=
  ((compare right.2.usableVram left.2.usableVram).then
    (compare left.2.uuid right.2.uuid)).then (compare left.1 right.1)

def primary (nodes : List PlannedNode) : Option (Uuid × Gpu) :=
  minBy order (eligible nodes)

def assignment (chosen : Uuid × Gpu) : GpuAssignment where
  nodeId := chosen.1
  gpuId := chosen.2.uuid
  usableBytes := chosen.2.usableVram
  safetyReserveBytes := chosen.2.vramFree - chosen.2.usableVram
  capacityShare := 1

def assign (gpus : List GpuAssignment) (stage : StageSpec) :
    Result StageAssignment :=
  match gpus.head?.filter (stage.workingSetBytes ≤ ·.usableBytes) with
  | none => .error (.error s!"TRAINPOOL_UNSUPPORTED_WORKING_SET: {stage.name} exceeds primary GPU capacity")
  | some gpu => .ok ⟨stage.name, gpu.nodeId, gpu.gpuId⟩

section

variable {θ : Type} (jobId : Uuid) (nodes : List PlannedNode)
  (leader : Leadership) (topology : θ) (stages : List StageSpec)

/-- `CapacityPlanner::plan` -/
def plan : Result (TrainingPlan θ) := do
  let gpus := (primary nodes).toList.map assignment
  ensure (stages = [] ∨ gpus ≠ [])
    "TRAINPOOL_NO_CUDA: no eligible primary GPU"
  let assignments ← stages.mapM (assign gpus)
  match leader.leaderId with
  | none => .error (.error "no leader")
  | some leaderId => pure {
      jobId := jobId
      leaderId := leaderId
      leaderEpoch := leader.leaderEpoch
      strategy := if gpus.length = 0 then "MemoryOnly"
        else "SingleGpuDistributedMemory"
      computeNodes := (gpus.head?.map fun gpu => [gpu.nodeId]).getD []
      gpuAssignments := gpus
      memoryNodes := (nodes.filter (·.ramProvider)).map (·.nodeId)
      tensorPlacementPolicy := "vram-then-local-ram-then-remote-cost"
      topology := topology
      memoryBudgets := (nodes.filter (·.ramProvider)).foldl
        (fun budgets node =>
          budgets.insert node.nodeId node.trainpoolRamBudget) ∅
      stages := assignments
      executionSupported := gpus.length = 1 }

end

def requireCuda {θ : Type} (plan : TrainingPlan θ) (node : Uuid) :
    Result Unit :=
  ensure (plan.gpuAssignments.any (·.nodeId = node))
    s!"TRAINPOOL_NO_CUDA: node {node} is a memory provider only"

/-! The choice of the GPU. -/

section

variable {α : Type} {κ : Type} [LinearOrder κ] {order : α → α → Ordering}
  {key : α → κ} {items other : List α} {chosen : α}

theorem foldl_min (keyed : ∀ left right,
      order left right = .gt ↔ key right < key left)
    (first : α) (rest : List α) :
    let least := rest.foldl (fun best other =>
      if order best other = .gt then other else best) first
    least ∈ first :: rest ∧ ∀ item ∈ first :: rest, key least ≤ key item := by
  induction rest generalizing first with
  | nil =>
      refine ⟨List.mem_cons_self, ?_⟩
      intro item member
      cases List.mem_singleton.mp member
      exact le_refl _
  | cons second rest ih =>
      rw [List.foldl_cons]
      by_cases greater : order first second = .gt
      · rw [if_pos greater]
        obtain ⟨member, least⟩ := ih second
        refine ⟨List.mem_cons_of_mem _ member, ?_⟩
        intro item listed
        rcases List.mem_cons.mp listed with rfl | later
        · exact (least second List.mem_cons_self).trans
            ((keyed _ _).mp greater).le
        · exact least item later
      · rw [if_neg greater]
        obtain ⟨member, least⟩ := ih first
        refine ⟨?_, ?_⟩
        · rcases List.mem_cons.mp member with same | later
          · rw [same]
            exact List.mem_cons_self
          · exact List.mem_cons_of_mem _ (List.mem_cons_of_mem _ later)
        · intro item listed
          have ahead := least first List.mem_cons_self
          rcases List.mem_cons.mp listed with rfl | later
          · exact ahead
          rcases List.mem_cons.mp later with rfl | last
          · exact ahead.trans (not_lt.mp ((keyed _ _).not.mp greater))
          · exact least item (List.mem_cons_of_mem _ last)

theorem minBy_spec (keyed : ∀ left right,
      order left right = .gt ↔ key right < key left)
    (found : minBy order items = some chosen) :
    chosen ∈ items ∧ ∀ item ∈ items, key chosen ≤ key item := by
  cases items with
  | nil => cases found
  | cons first rest =>
      cases found
      exact foldl_min keyed first rest

theorem minBy_eq_none : minBy order items = none ↔ items = [] := by
  cases items with
  | nil => exact iff_of_true rfl rfl
  | cons first rest => exact iff_of_false nofun nofun

theorem minBy_key_perm (keyed : ∀ left right,
      order left right = .gt ↔ key right < key left)
    (same : other.Perm items) :
    (minBy order other).map key = (minBy order items).map key := by
  cases found : minBy order items with
  | none =>
      rw [minBy_eq_none] at found
      subst found
      rw [same.eq_nil]
      rfl
  | some chosen =>
      cases again : minBy order other with
      | none =>
          rw [minBy_eq_none] at again
          subst again
          rw [same.symm.eq_nil] at found
          cases found
      | some twin =>
          obtain ⟨member, least⟩ := minBy_spec keyed found
          obtain ⟨member', least'⟩ := minBy_spec keyed again
          have inside := same.mem_iff.mp member'
          have outside := same.mem_iff.mpr member
          exact congrArg some
            (le_antisymm (least' chosen outside) (least twin inside))

theorem minBy_perm (keyed : ∀ left right,
      order left right = .gt ↔ key right < key left)
    (distinct : ∀ left ∈ items, ∀ right ∈ items,
      key left = key right → left = right)
    (same : other.Perm items) : minBy order other = minBy order items := by
  have keys := minBy_key_perm keyed same
  cases found : minBy order items with
  | none =>
      rw [found] at keys
      exact Option.map_eq_none_iff.mp keys
  | some chosen =>
      rw [found] at keys
      obtain ⟨twin, again, alike⟩ := Option.map_eq_some_iff.mp keys
      have member := same.mem_iff.mp (minBy_spec keyed again).1
      rw [again, distinct twin member chosen (minBy_spec keyed found).1 alike]

end

def key (entry : Uuid × Gpu) : Natᵒᵈ ×ₗ (String ×ₗ Nat) :=
  toLex (OrderDual.toDual entry.2.usableVram, toLex (entry.2.uuid, entry.1))

theorem order_gt (left right : Uuid × Gpu) :
    order left right = .gt ↔ key right < key left := by
  unfold order key
  rw [Prod.Lex.toLex_lt_toLex, Prod.Lex.toLex_lt_toLex]
  simp only [OrderDual.toDual_lt_toDual, OrderDual.toDual_inj]
  rcases lt_trichotomy left.2.usableVram right.2.usableVram with
    less | same | more
  · simp [compare_gt_iff_gt.mpr less, less]
  · rcases lt_trichotomy left.2.uuid right.2.uuid with below | equal | above
    · simp [same, compare_lt_iff_lt.mpr below, below.not_gt, below.ne']
    · simp [same, equal, compare_gt_iff_gt]
    · simp [same, compare_gt_iff_gt.mpr above, above]
  · simp [compare_lt_iff_lt.mpr more, more.not_gt, more.ne]

section

variable {nodes other : List PlannedNode} {chosen : Uuid × Gpu}

theorem mem_eligible {entry : Uuid × Gpu} : entry ∈ eligible nodes ↔
    ∃ node ∈ nodes, node.gpuCompute = true ∧ entry.1 = node.nodeId ∧
      entry.2 ∈ node.gpus ∧ 0 < entry.2.usableVram := by
  unfold eligible
  simp only [List.mem_flatMap, List.mem_map, List.mem_filter,
    decide_eq_true_eq]
  constructor
  · intro listed
    obtain ⟨node, ⟨member, computes⟩, gpu, ⟨among, usable⟩, rfl⟩ := listed
    exact ⟨node, member, computes, rfl, among, usable⟩
  · intro listed
    obtain ⟨node, member, computes, same, among, usable⟩ := listed
    exact ⟨node, ⟨member, computes⟩, entry.2, ⟨among, usable⟩,
      Prod.ext same.symm rfl⟩

theorem primary_spec (found : primary nodes = some chosen) :
    chosen ∈ eligible nodes ∧ ∀ entry ∈ eligible nodes,
      entry.2.usableVram ≤ chosen.2.usableVram := by
  obtain ⟨member, least⟩ := minBy_spec order_gt found
  refine ⟨member, ?_⟩
  intro entry listed
  rcases Prod.Lex.toLex_le_toLex.mp (least entry listed) with less | same
  · exact Nat.le_of_lt (OrderDual.toDual_lt_toDual.mp less)
  · exact Nat.le_of_eq (OrderDual.toDual_inj.mp same.1).symm

theorem eligible_perm (same : other.Perm nodes) :
    (eligible other).Perm (eligible nodes) :=
  (same.filter _).flatMap_right _

theorem assign_ok {gpus : List GpuAssignment} {stage : StageSpec}
    {assigned : StageAssignment} : assign gpus stage = .ok assigned ↔
      ∃ gpu, gpus.head? = some gpu ∧ stage.workingSetBytes ≤ gpu.usableBytes ∧
        assigned = ⟨stage.name, gpu.nodeId, gpu.gpuId⟩ := by
  unfold assign
  cases gpus.head? with
  | none => simp
  | some gpu =>
      by_cases fits : stage.workingSetBytes ≤ gpu.usableBytes
      · simp [Option.filter, fits, eq_comm]
      · simp [Option.filter, fits]

/-- The GPU of an assignment, apart from what is kept in reserve on it. -/
def gpu (assignment : GpuAssignment) : Uuid × String × Nat :=
  (assignment.nodeId, assignment.gpuId, assignment.usableBytes)

theorem assign_congr {gpus others : List GpuAssignment}
    (same : others.map gpu = gpus.map gpu) :
    assign others = assign gpus := by
  funext stage
  unfold assign
  cases gpus with
  | nil => rw [List.map_eq_nil_iff.mp same]
  | cons first rest =>
      cases others with
      | nil => cases same
      | cons twin others =>
          simp only [List.map_cons, List.cons.injEq, gpu,
            Prod.mk.injEq] at same
          obtain ⟨⟨node, uuid, usable⟩, _⟩ := same
          simp only [List.head?_cons, Option.filter_some, usable]
          by_cases fits : stage.workingSetBytes ≤ first.usableBytes
          · simp [fits, node, uuid]
          · simp [fits]

theorem primary_perm (same : other.Perm nodes) :
    ((primary other).toList.map assignment).map gpu =
      ((primary nodes).toList.map assignment).map gpu := by
  have keys : (primary other).map key = (primary nodes).map key :=
    minBy_key_perm order_gt (eligible_perm same)
  cases found : primary nodes with
  | none =>
      rw [found] at keys
      rw [Option.map_eq_none_iff.mp keys]
  | some chosen =>
      rw [found] at keys
      obtain ⟨twin, again, alike⟩ := Option.map_eq_some_iff.mp keys
      obtain ⟨usable, rest⟩ := Prod.ext_iff.mp (toLex_inj.mp alike)
      obtain ⟨uuid, node⟩ := Prod.ext_iff.mp (toLex_inj.mp rest)
      rw [again]
      simp only [Option.toList_some, List.map_cons, List.map_nil, gpu,
        assignment]
      rw [show twin.1 = chosen.1 from node,
        show twin.2.uuid = chosen.2.uuid from uuid,
        show twin.2.usableVram = chosen.2.usableVram from
          OrderDual.toDual_inj.mp usable]

theorem mapM_ok {α β : Type} {f : α → Result β} {items : List α}
    {results : List β} : items.mapM f = .ok results ↔
      List.Forall₂ (fun item result => f item = .ok result) items results := by
  induction items generalizing results with
  | nil =>
      constructor
      · intro mapped
        cases mapped
        exact .nil
      · intro mapped
        cases mapped
        rfl
  | cons item rest ih =>
      rw [List.mapM_cons]
      constructor
      · intro mapped
        obtain ⟨result, first, mapped⟩ := bind_ok.mp mapped
        obtain ⟨others, later, mapped⟩ := bind_ok.mp mapped
        cases mapped
        exact .cons first (ih.mp later)
      · intro mapped
        cases mapped with
        | cons first later =>
            exact bind_ok.mpr ⟨_, first, bind_ok.mpr ⟨_, ih.mpr later, rfl⟩⟩

section

variable {θ : Type} {jobId : Uuid} {leader : Leadership} {topology : θ}
  {stages : List StageSpec} {made : TrainingPlan θ}

theorem plan_spec (planned : plan jobId nodes leader topology stages =
      .ok made) :
    (stages = [] ∨ primary nodes ≠ none) ∧ leader.leaderId ≠ none ∧
      List.Forall₂ (fun stage assigned =>
        assign ((primary nodes).toList.map assignment) stage = .ok assigned)
        stages made.stages ∧
      made.gpuAssignments = (primary nodes).toList.map assignment ∧
      made.computeNodes = (primary nodes).toList.map Prod.fst ∧
      made.memoryNodes = (nodes.filter (·.ramProvider)).map (·.nodeId) ∧
      made.executionSupported = (primary nodes).isSome := by
  unfold plan at planned
  obtain ⟨_, guarded, planned⟩ := bind_ok.mp planned
  obtain ⟨assignments, mapped, planned⟩ := bind_ok.mp planned
  rw [mapM_ok] at mapped
  rw [ensure_ok] at guarded
  split at planned
  · cases planned
  · rename_i leaderId leads
    cases planned
    refine ⟨guarded.imp_right ?_, leads ▸ nofun, mapped, rfl, ?_, rfl, ?_⟩
    · intro chosen nothing
      rw [nothing] at chosen
      exact chosen rfl
    · cases primary nodes with
      | none => rfl
      | some chosen => rfl
    · cases primary nodes with
      | none => rfl
      | some chosen => rfl

theorem plan_made {assignments : List StageAssignment}
    (guarded : stages = [] ∨ primary nodes ≠ none)
    (leads : leader.leaderId ≠ none)
    (assigned : List.Forall₂ (fun stage assigned =>
      assign ((primary nodes).toList.map assignment) stage = .ok assigned)
      stages assignments) :
    ∃ made, plan jobId nodes leader topology stages = .ok made := by
  obtain ⟨leaderId, leads⟩ := Option.ne_none_iff_exists'.mp leads
  have chosen : stages = [] ∨ (primary nodes).toList.map assignment ≠ [] := by
    refine guarded.imp_right fun found => ?_
    obtain ⟨chosen, found⟩ := Option.ne_none_iff_exists'.mp found
    rw [found]
    exact nofun
  have guard : ensure (stages = [] ∨ (primary nodes).toList.map assignment ≠ [])
      "TRAINPOOL_NO_CUDA: no eligible primary GPU" = .ok () :=
    ensure_ok.mpr chosen
  have mapped := mapM_ok.mpr assigned
  unfold plan
  simp only [guard, mapped, leads]
  exact ⟨_, rfl⟩

def assigned (chosen : Uuid × Gpu) (stages : List StageSpec) :
    List StageAssignment :=
  stages.map fun stage => ⟨stage.name, chosen.1, chosen.2.uuid⟩

theorem assigned_iff {assignments : List StageAssignment} :
    List.Forall₂ (fun stage assigned =>
        assign ([chosen].map assignment) stage = .ok assigned)
        stages assignments ↔
      (∀ stage ∈ stages, stage.workingSetBytes ≤ chosen.2.usableVram) ∧
        assignments = assigned chosen stages := by
  induction stages generalizing assignments with
  | nil => simp [assigned]
  | cons stage rest ih =>
      constructor
      · intro related
        cases related with
        | cons first later =>
            obtain ⟨gpu, found, fits, rfl⟩ := assign_ok.mp first
            cases found
            obtain ⟨others, rfl⟩ := ih.mp later
            exact ⟨List.forall_mem_cons.mpr ⟨fits, others⟩, rfl⟩
      · intro given
        obtain ⟨fits, rfl⟩ := given
        obtain ⟨first, others⟩ := List.forall_mem_cons.mp fits
        exact .cons (assign_ok.mpr ⟨_, rfl, first, rfl⟩)
          (ih.mpr ⟨others, rfl⟩)

theorem primary_none : primary nodes = none ↔ eligible nodes = [] :=
  minBy_eq_none

theorem plan_fits (leads : leader.leaderId ≠ none)
    (fits : ∀ stage ∈ stages, ∃ entry ∈ eligible nodes,
      stage.workingSetBytes ≤ entry.2.usableVram) :
    ∃ made, plan jobId nodes leader topology stages = .ok made := by
  cases found : primary nodes with
  | none =>
      rw [primary_none] at found
      have idle : stages = [] := by
        apply List.eq_nil_iff_forall_not_mem.mpr
        intro stage member
        obtain ⟨entry, listed, _⟩ := fits stage member
        rw [found] at listed
        cases listed
      subst idle
      exact plan_made (.inl rfl) leads .nil
  | some chosen =>
      have related : List.Forall₂ (fun stage assigned =>
          assign ((primary nodes).toList.map assignment) stage = .ok assigned)
          stages (assigned chosen stages) := by
        rw [found, Option.toList_some, assigned_iff]
        refine ⟨?_, rfl⟩
        intro stage member
        obtain ⟨entry, listed, small⟩ := fits stage member
        exact small.trans ((primary_spec found).2 entry listed)
      exact plan_made (.inr (found ▸ nofun)) leads related

theorem plan_chosen (planned : plan jobId nodes leader topology stages =
      .ok made) :
    eligible nodes = [] ∧ made.executionSupported = false ∧
        made.gpuAssignments = [] ∧ stages = [] ∧ made.stages = [] ∨
      ∃ chosen, primary nodes = some chosen ∧
        made.executionSupported = true ∧
        made.gpuAssignments = [assignment chosen] ∧
        (∀ stage ∈ stages, stage.workingSetBytes ≤ chosen.2.usableVram) ∧
        made.stages = assigned chosen stages := by
  obtain ⟨guarded, _, related, gpus, _, _, supported⟩ := plan_spec planned
  cases found : primary nodes with
  | none =>
      have idle := guarded.resolve_right (fun chosen => chosen found)
      subst idle
      rw [found] at gpus supported
      rw [primary_none] at found
      exact .inl ⟨found, supported, gpus, rfl,
        List.forall₂_nil_left_iff.mp related⟩
  | some chosen =>
      rw [found] at gpus supported related
      rw [Option.toList_some, assigned_iff] at related
      obtain ⟨fits, same⟩ := related
      exact .inr ⟨chosen, rfl, supported, gpus, fits, same⟩

theorem requireCuda_iff (planned : plan jobId nodes leader topology stages =
      .ok made) (node : Uuid) :
    requireCuda made node = .ok () ↔ node ∈ made.computeNodes := by
  obtain ⟨_, _, _, gpus, computes, _⟩ := plan_spec planned
  unfold requireCuda
  rw [ensure_ok, gpus, computes]
  cases primary nodes with
  | none => simp
  | some chosen => simp [assignment, eq_comm]

end

/-- A plan is made exactly when there is a leader and every stage fits some GPU.
It then has one GPU, of those with the most memory, which runs all stages; and
which one that is does not depend on the order of the nodes, nor, unless two
entries are alike, what is kept in reserve on it. -/
theorem plan_exact {θ : Type} (jobId : Uuid) (nodes : List PlannedNode)
    (leader : Leadership) (topology : θ) (stages : List StageSpec) :
    ((∃ made, plan jobId nodes leader topology stages = .ok made) ↔
      leader.leaderId ≠ none ∧ ∀ stage ∈ stages, ∃ entry ∈ eligible nodes,
        stage.workingSetBytes ≤ entry.2.usableVram) ∧
    ∀ made, plan jobId nodes leader topology stages = .ok made →
      (∀ node, requireCuda made node = .ok () ↔ node ∈ made.computeNodes) ∧
      (eligible nodes = [] ∧ made.executionSupported = false ∧
          made.gpuAssignments = [] ∧ made.stages = [] ∨
        ∃ chosen ∈ eligible nodes,
          (∀ entry ∈ eligible nodes,
            entry.2.usableVram ≤ chosen.2.usableVram) ∧
          made.executionSupported = true ∧
          made.gpuAssignments = [assignment chosen] ∧
          made.stages = assigned chosen stages) ∧
      ∀ other : List PlannedNode, other.Perm nodes →
        ∃ twin, plan jobId other leader topology stages = .ok twin ∧
          twin.gpuAssignments.map gpu = made.gpuAssignments.map gpu ∧
          (((eligible nodes).map key).Nodup →
            twin.gpuAssignments = made.gpuAssignments) ∧
          twin.stages = made.stages ∧
          twin.memoryNodes.Perm made.memoryNodes := by
  refine ⟨⟨?_, fun given => plan_fits given.1 given.2⟩, ?_⟩
  · intro planned
    obtain ⟨made, planned⟩ := planned
    refine ⟨(plan_spec planned).2.1, ?_⟩
    intro stage member
    rcases plan_chosen planned with
      ⟨_, _, _, rfl, _⟩ | ⟨chosen, found, _, _, fits, _⟩
    · cases member
    · exact ⟨chosen, (primary_spec found).1, fits stage member⟩
  · intro made planned
    refine ⟨requireCuda_iff planned, ?_, ?_⟩
    · rcases plan_chosen planned with
        ⟨nothing, idle, gpus, _, none_⟩ |
          ⟨chosen, found, supported, gpus, _, same⟩
      · exact .inl ⟨nothing, idle, gpus, none_⟩
      · obtain ⟨member, most⟩ := primary_spec found
        exact .inr ⟨chosen, member, most, supported, gpus, same⟩
    · intro other same
      obtain ⟨guarded, leads, related, gpus, _, memory, _⟩ := plan_spec planned
      have chosen := primary_perm same
      have alike := assign_congr chosen
      have guarded' : stages = [] ∨ primary other ≠ none := by
        refine guarded.imp_right fun found nothing => found ?_
        have none := congrArg List.length chosen
        rw [nothing] at none
        simpa using none.symm
      rw [← alike] at related
      obtain ⟨twin, again⟩ : ∃ twin,
          plan jobId other leader topology stages = .ok twin :=
        plan_made guarded' leads related
      obtain ⟨_, _, related', gpus', _, memory', _⟩ := plan_spec again
      refine ⟨twin, again, by rw [gpus', gpus, chosen], ?_, ?_, ?_⟩
      · intro distinct
        have least : primary other = primary nodes :=
          minBy_perm order_gt (fun left member right listed alike =>
            List.inj_on_of_nodup_map distinct member listed alike)
            (eligible_perm same)
        rw [gpus', gpus, least]
      · exact Except.ok.inj
          ((mapM_ok.mpr related').symm.trans (mapM_ok.mpr related))
      · rw [memory', memory]
        exact (same.filter _).map _

/-! Node 3 has the larger of two GPUs. -/

def pair : List PlannedNode :=
  [⟨Placement.ramNode 2 8, true, [⟨"a", 9, 4⟩]⟩,
    ⟨Placement.ramNode 3 8, true, [⟨"b", 9, 0⟩, ⟨"c", 9, 6⟩]⟩]

theorem plan_exact_pair : ∃ made, plan 1 pair ⟨some 2, 5, 20⟩ ()
      [⟨"train", 6⟩] = .ok made ∧
    made.gpuAssignments = [⟨3, "c", 6, 3, 1⟩] ∧
    ∀ node, requireCuda made node = .ok () ↔ node ∈ made.computeNodes := by
  obtain ⟨makes, shows⟩ := plan_exact 1 pair ⟨some 2, 5, 20⟩ () [⟨"train", 6⟩]
  have fits : ∀ stage ∈ [StageSpec.mk "train" 6], ∃ entry ∈ eligible pair,
      stage.workingSetBytes ≤ entry.2.usableVram := by
    intro stage member
    cases List.mem_singleton.mp member
    exact ⟨(3, ⟨"c", 9, 6⟩), by decide, by decide⟩
  obtain ⟨made, planned⟩ := makes.mpr ⟨nofun, fits⟩
  refine ⟨made, planned, ?_, (shows made planned).1⟩
  have same : plan 1 pair ⟨some 2, 5, 20⟩ () [⟨"train", 6⟩] = .ok _ := rfl
  cases planned.symm.trans same
  rfl

end

end Planner

end TrainPool
