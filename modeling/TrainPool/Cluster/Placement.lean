import Mathlib.Data.Prod.Lex
import Mathlib.Order.OrderDual
import TrainPool.Cluster.Allocate

namespace TrainPool

/-! Where `Allocate` places a block: the ranking of the nodes, and the offers
that are made to them in that order. -/

structure RamNode extends NodeCapabilities where
  ramProvider : Bool
  trainpoolRamUsed : Nat
  trainpoolRamBudget : Nat
  trainpoolRamAvailable : Nat
  activeTransfers : Nat
  deriving DecidableEq, Repr

namespace RamNode

def excess (node : RamNode) : Nat :=
  node.trainpoolRamUsed - node.trainpoolRamBudget

def provides (size : Nat) (node : RamNode) : Bool :=
  node.ramProvider && size ≤ node.trainpoolRamAvailable && node.excess = 0

end RamNode

/-- The estimates of the links.  Costs are fractions, of which only the order
matters; `underLoad` multiplies one by the active transfers. -/
structure Topology (κ : Type) where
  transferCost : Uuid → Uuid → Nat → κ
  underLoad : κ → Nat → κ

open Execution Leader AllocateState

namespace Placement

section

variable {κ : Type} [LinearOrder κ] (topology : Topology κ) (compute : Uuid)
  (size : Nat)

def cost (node : RamNode) : κ :=
  topology.underLoad (topology.transferCost compute node.nodeId size)
    node.activeTransfers

def order (left right : RamNode) : Ordering :=
  ((compare (cost topology compute size left)
    (cost topology compute size right)).then
    (compare right.trainpoolRamAvailable left.trainpoolRamAvailable)).then
    (compare left.nodeId right.nodeId)

def rankRam (nodes : List RamNode) : List RamNode :=
  let (near, remote) := (nodes.filter (·.provides size)).partition
    (·.nodeId = compute)
  near ++ remote.mergeSort fun left right =>
    (order topology compute size left right).isLE

def key (node : RamNode) : κ ×ₗ (Natᵒᵈ ×ₗ Nat) :=
  toLex (cost topology compute size node,
    toLex (OrderDual.toDual node.trainpoolRamAvailable, node.nodeId))

theorem order_isLE (left right : RamNode) :
    (order topology compute size left right).isLE ↔
      key topology compute size left ≤ key topology compute size right := by
  unfold order key
  rw [Prod.Lex.toLex_le_toLex, Prod.Lex.toLex_le_toLex]
  simp only [OrderDual.toDual_lt_toDual, OrderDual.toDual_inj]
  rcases lt_trichotomy (cost topology compute size left)
    (cost topology compute size right) with below | same | above
  · simp [compare_lt_iff_lt.mpr below, below]
  · rcases lt_trichotomy right.trainpoolRamAvailable
      left.trainpoolRamAvailable with more | equal | less
    · simp [same, compare_lt_iff_lt.mpr more, more]
    · simp [same, equal, Nat.isLE_compare]
    · simp [same, compare_gt_iff_gt.mpr less, less.not_gt, less.ne]
  · simp [compare_gt_iff_gt.mpr above, above.not_gt, above.ne']

/-- The tiers, and in the remote one the order of the offers. -/
def Precedes (left right : RamNode) : Prop :=
  right.nodeId ≠ compute ∧ (left.nodeId = compute ∨
    cost topology compute size left < cost topology compute size right ∨
    cost topology compute size left = cost topology compute size right ∧
      (right.trainpoolRamAvailable < left.trainpoolRamAvailable ∨
        right.trainpoolRamAvailable = left.trainpoolRamAvailable ∧
          left.nodeId < right.nodeId))

variable {topology compute size} {nodes other : List RamNode}
  {left right node : RamNode}

theorem key_lt : key topology compute size left <
      key topology compute size right ↔
    cost topology compute size left < cost topology compute size right ∨
    cost topology compute size left = cost topology compute size right ∧
      (right.trainpoolRamAvailable < left.trainpoolRamAvailable ∨
        right.trainpoolRamAvailable = left.trainpoolRamAvailable ∧
          left.nodeId < right.nodeId) := by
  unfold key
  rw [Prod.Lex.toLex_lt_toLex, Prod.Lex.toLex_lt_toLex]
  simp only [OrderDual.toDual_lt_toDual, OrderDual.toDual_inj]
  simp only [eq_comm (a := left.trainpoolRamAvailable)]

theorem Precedes.asymm (first : Precedes topology compute size left right) :
    ¬Precedes topology compute size right left := by
  intro second
  obtain ⟨remote, before⟩ := first
  obtain ⟨remote', after⟩ := second
  have below := key_lt.mpr (before.resolve_left remote')
  have above := key_lt.mpr (after.resolve_left remote)
  exact lt_asymm below above

theorem mem_rankRam : node ∈ rankRam topology compute size nodes ↔
    node ∈ nodes ∧ node.provides size = true := by
  unfold rankRam
  rw [List.partition_eq_filter_filter]
  simp only [List.mem_append, List.mem_mergeSort, List.mem_filter]
  by_cases here : node.nodeId = compute <;> simp [here]

theorem rankRam_perm (nodes : List RamNode) :
    (rankRam topology compute size nodes).Perm
      (nodes.filter (·.provides size)) := by
  unfold rankRam
  rw [List.partition_eq_filter_filter]
  refine List.Perm.trans (List.Perm.append_left _
    (List.mergeSort_perm _ _)) ?_
  exact List.filter_append_perm _ _

theorem rankRam_precedes (distinct : (nodes.map (·.nodeId)).Nodup) :
    (rankRam topology compute size nodes).Pairwise
      (Precedes topology compute size) := by
  have apart : (nodes.filter (·.provides size)).Pairwise
      fun left right => left.nodeId ≠ right.nodeId :=
    (List.pairwise_map.mp distinct).filter _
  unfold rankRam
  rw [List.partition_eq_filter_filter]
  refine List.pairwise_append.mpr ⟨?_, ?_, ?_⟩
  · -- There is at most one node on the near side.
    refine (apart.filter _).imp_of_mem ?_
    intro left right near near' differ
    rw [List.mem_filter] at near near'
    have here : left.nodeId = compute := of_decide_eq_true near.2
    have here' : right.nodeId = compute := of_decide_eq_true near'.2
    exact absurd (here.trans here'.symm) differ
  · have sorted := List.pairwise_mergeSort
      (fun first second third below above =>
        (order_isLE topology compute size first third).mpr
          (le_trans ((order_isLE topology compute size _ _).mp below)
            ((order_isLE topology compute size _ _).mp above)))
      (fun first second => by
        rw [Bool.or_eq_true, order_isLE, order_isLE]
        exact le_total _ _)
      ((nodes.filter (·.provides size)).filter
        ((fun flag => !flag) ∘ fun node => decide (node.nodeId = compute)))
    have unequal := (apart.filter
      ((fun flag => !flag) ∘ fun node => decide (node.nodeId = compute))).perm
        (List.mergeSort_perm _ fun left right =>
          (order topology compute size left right).isLE).symm Ne.symm
    refine (sorted.and unequal).imp_of_mem ?_
    intro left right _ member both
    obtain ⟨below, differ⟩ := both
    rw [List.mem_mergeSort, List.mem_filter] at member
    have remote : right.nodeId ≠ compute := by simpa using member.2
    have least := (order_isLE topology compute size left right).mp below
    refine ⟨remote, .inr (key_lt.mp (lt_of_le_of_ne least ?_))⟩
    intro same
    simp only [key, EmbeddingLike.apply_eq_iff_eq, Prod.mk.injEq] at same
    exact differ same.2.2
  · intro left near right remote
    rw [List.mem_filter] at near
    rw [List.mem_mergeSort, List.mem_filter] at remote
    exact ⟨by simpa using remote.2, .inl (of_decide_eq_true near.2)⟩

theorem rankRam_eq (distinct : (nodes.map (·.nodeId)).Nodup)
    (same : other.Perm nodes) :
    rankRam topology compute size other =
      rankRam topology compute size nodes := by
  have distinct' : (other.map (·.nodeId)).Nodup :=
    (same.map _).nodup_iff.mpr distinct
  refine List.Perm.eq_of_pairwise ?_ (rankRam_precedes distinct')
    (rankRam_precedes distinct) ?_
  · intro left right _ _ before after
    exact absurd after before.asymm
  · exact (rankRam_perm other).trans
      ((same.filter _).trans (rankRam_perm nodes).symm)

end

/-! The offers. -/

/-- One offer: the identifiers and the time that its handle is made with, and
what the owner answers. -/
structure Offer where
  choice : AllocateChoice
  refusal : Uuid → Option String

section

variable {κ : Type} [LinearOrder κ] (request : AllocateRequest)
  (leaseSeconds : Nat) (topology : Topology κ)

def candidates (nodes : List RamNode) : List RamNode :=
  (rankRam topology request.computeNode request.size nodes).filter
    fun node => request.eligible node.toNodeCapabilities

def place : (Nat → Offer) → List NodeCapabilities → String →
    ResidencyTable → Result MemoryBlockHandle × ResidencyTable
  | _, [], lastError, table =>
      (.error (.error s!"TRAINPOOL_OUT_OF_CAPACITY: {lastError}"), table)
  | offers, node :: rest, _, table =>
      let handle := request.handle leaseSeconds node (offers 0).choice
      match (offers 0).refusal node.nodeId with
      | none => (.ok handle, table.register handle)
      | some error => place (fun attempt => offers (attempt + 1)) rest error
          table

/-- The placement of `Allocate`. -/
def allocate (offers : Nat → Offer) (nodes : List RamNode)
    (table : ResidencyTable) : Result MemoryBlockHandle × ResidencyTable :=
  place request leaseSeconds offers
    ((candidates request topology nodes).map (·.toNodeCapabilities))
    "no eligible memory nodes" table

/-- The owner of a candidate accepts, those of the earlier ones refused. -/
def FirstAccepting (offers : Nat → Offer) (nodes : List NodeCapabilities)
    (attempt : Nat) (node : NodeCapabilities) : Prop :=
  nodes[attempt]? = some node ∧ (offers attempt).refusal node.nodeId = none ∧
    ∀ before < attempt, ∀ earlier, nodes[before]? = some earlier →
      (offers before).refusal earlier.nodeId ≠ none

variable {request leaseSeconds topology}

theorem place_accepted {offers : Nat → Offer} {attempt : Nat}
    {nodes : List NodeCapabilities} {node : NodeCapabilities}
    (first : FirstAccepting offers nodes attempt node) (lastError : String)
    (table : ResidencyTable) :
    place request leaseSeconds offers nodes lastError table =
      (.ok (request.handle leaseSeconds node (offers attempt).choice),
        table.register
          (request.handle leaseSeconds node (offers attempt).choice)) := by
  obtain ⟨found, accepts, refused⟩ := first
  induction nodes generalizing offers attempt lastError with
  | nil => cases found
  | cons head rest induction =>
      cases attempt with
      | zero =>
          cases found
          rw [place, accepts]
      | succ attempt =>
          have no := refused 0 (Nat.succ_pos _) head rfl
          obtain ⟨error, refusal⟩ := Option.ne_none_iff_exists'.mp no
          rw [place, refusal]
          apply @induction (fun attempt => offers (attempt + 1)) attempt
          · exact found
          · exact accepts
          · intro before earlier node there
            exact refused (before + 1) (Nat.succ_lt_succ earlier) node there

theorem place_refused {offers : Nat → Offer} {nodes : List NodeCapabilities}
    (refused : ∀ attempt node, nodes[attempt]? = some node →
      (offers attempt).refusal node.nodeId ≠ none) (lastError : String)
    (table : ResidencyTable) :
    ∃ error : String, place request leaseSeconds offers nodes lastError table =
      (.error (.error s!"TRAINPOOL_OUT_OF_CAPACITY: {error}"), table) := by
  induction nodes generalizing offers lastError with
  | nil => exact ⟨lastError, rfl⟩
  | cons head rest induction =>
      obtain ⟨error, refusal⟩ :=
        Option.ne_none_iff_exists'.mp (refused 0 head rfl)
      rw [place, refusal]
      exact @induction (fun attempt => offers (attempt + 1))
        (fun attempt node there => refused (attempt + 1) node there) error

theorem place_ok {offers : Nat → Offer} {nodes : List NodeCapabilities}
    {lastError : String} {table : ResidencyTable} {handle : MemoryBlockHandle}
    (placed : (place request leaseSeconds offers nodes lastError table).1 =
      .ok handle) :
    ∃ attempt node, FirstAccepting offers nodes attempt node ∧
      handle = request.handle leaseSeconds node (offers attempt).choice := by
  induction nodes generalizing offers lastError with
  | nil => cases placed
  | cons head rest induction =>
      rw [place] at placed
      cases answer : (offers 0).refusal head.nodeId with
      | none =>
          rw [answer] at placed
          cases placed
          exact ⟨0, head, ⟨rfl, answer, by intros; contradiction⟩, rfl⟩
      | some error =>
          rw [answer] at placed
          obtain ⟨attempt, node, first, made⟩ := induction placed
          obtain ⟨found, accepts, refused⟩ := first
          refine ⟨attempt + 1, node, ⟨found, accepts, ?_⟩, made⟩
          intro before earlier other there
          cases before with
          | zero =>
              cases there
              rw [answer]
              exact Option.some_ne_none error
          | succ before =>
              exact refused before (Nat.lt_of_succ_lt_succ earlier) other there

/-! The stages of the handler make these offers. -/

def preceded (offer : Offer) (offers : Nat → Offer) : Nat → Offer
  | 0 => offer
  | attempt + 1 => offers attempt

def Agrees (leadership : Leadership)
    (placed : Result MemoryBlockHandle × ResidencyTable)
    (final : AllocateState) : Prop :=
  final.leader.residency = placed.2 ∧
    ((∃ handle, placed.1 = .ok handle ∧
        final.stage = .returned leadership handle) ∨
      ∃ message, placed.1 = .error (.error message) ∧
        final.stage = .failed message)

/-- The handler is done. -/
def Done (state : AllocateState) : Prop :=
  (∃ leadership handle, state.stage = .returned leadership handle) ∨
    ∃ message, state.stage = .failed message

theorem stuck {state final : AllocateState} {choices : List AllocateChoice}
    (done : Done state) (ran : run (step request leaseSeconds) state
      (choices.map .advance) = some final) : final = state := by
  cases choices with
  | nil =>
      cases ran
      rfl
  | cons choice rest =>
      obtain ⟨next, stepped, _⟩ := Option.bind_eq_some_iff.mp ran
      change state.advance request leaseSeconds choice = some next at stepped
      unfold advance at stepped
      rcases done with ⟨leadership, handle, stage⟩ | ⟨message, stage⟩
      · rw [stage] at stepped
        cases stepped
      · rw [stage] at stepped
        cases stepped

theorem refused_agrees {leadership : Leadership} {final : AllocateState}
    {node : NodeCapabilities} {rest : List NodeCapabilities}
    {error : String} (lastError : String) {table : ResidencyTable}
    (choice : AllocateChoice)
    (later : ∃ offers, Agrees leadership
      (place request leaseSeconds offers rest error table) final) :
    ∃ offers, Agrees leadership
      (place request leaseSeconds offers (node :: rest) lastError table)
      final := by
  obtain ⟨offers, agrees⟩ := later
  exact ⟨preceded ⟨choice, fun _ => some error⟩ offers, agrees⟩

theorem allocate_agrees {leadership : Leadership} {node : NodeCapabilities}
    {rest : List NodeCapabilities} {address : SocketAddr}
    {state final : AllocateState} {choice : AllocateChoice}
    {choices : List AllocateChoice}
    (stage : state.stage = .allocate leadership
      (request.handle leaseSeconds node choice) address rest)
    (lastError : String)
    (later : ∀ {lastError : String} {middle : AllocateState}
      {choices : List AllocateChoice},
      middle.stage = .offer leadership rest lastError →
      run (step request leaseSeconds) middle (choices.map .advance) =
        some final →
      ∃ offers, Agrees leadership (place request leaseSeconds offers rest
        lastError middle.leader.residency) final)
    (ran : run (step request leaseSeconds) state (choices.map .advance) =
      some final) (done : Done final) :
    ∃ offers, Agrees leadership (place request leaseSeconds offers
      (node :: rest) lastError state.leader.residency) final := by
  cases choices with
  | nil =>
      cases ran
      rw [Done, stage] at done
      simp at done
  | cons answer choices =>
      obtain ⟨next, stepped, ran⟩ := run_cons.mp ran
      change state.advance request leaseSeconds answer = some next at stepped
      unfold advance at stepped
      rw [stage] at stepped
      simp only at stepped
      split at stepped
      · cases stepped
        have offers := later (by rfl) ran
        exact refused_agrees lastError choice offers
      · cases stepped
        have offers := later (by rfl) ran
        exact refused_agrees lastError choice offers
      · split at stepped
        · cases stepped
          cases choices with
          | nil =>
              cases ran
              rw [Done] at done
              simp [goes] at done
          | cons last choices =>
              obtain ⟨registered, stepped, ran⟩ := run_cons.mp ran
              cases stepped
              have same := stuck (.inl ⟨_, _, rfl⟩) ran
              subst same
              exact ⟨fun _ => ⟨choice, fun _ => none⟩, rfl,
                .inl ⟨_, rfl, rfl⟩⟩
        · cases stepped
          have offers := later (by rfl) ran
          exact refused_agrees lastError choice offers

/-- However the calls of the handler end, what it registers and returns is the
placement with the answers of the owners. -/
theorem run_agrees {leadership : Leadership} {nodes : List NodeCapabilities}
    {lastError : String} {state final : AllocateState}
    {choices : List AllocateChoice}
    (stage : state.stage = .offer leadership nodes lastError)
    (ran : run (step request leaseSeconds) state (choices.map .advance) =
      some final) (done : Done final) :
    ∃ offers, Agrees leadership (place request leaseSeconds offers nodes
      lastError state.leader.residency) final := by
  induction nodes generalizing state choices lastError with
  | nil =>
      cases choices with
      | nil =>
          cases ran
          rw [Done, stage] at done
          simp at done
      | cons choice rest =>
          obtain ⟨next, stepped, ran⟩ := run_cons.mp ran
          change state.advance request leaseSeconds choice = some next
            at stepped
          unfold advance at stepped
          rw [stage] at stepped
          cases stepped
          have same := stuck (.inr ⟨_, rfl⟩) ran
          subst same
          exact ⟨fun _ => ⟨choice, fun _ => none⟩, rfl, .inr ⟨_, rfl, rfl⟩⟩
  | cons node rest induction =>
      cases choices with
      | nil =>
          cases ran
          rw [Done, stage] at done
          simp at done
      | cons choice choices =>
          obtain ⟨next, stepped, ran⟩ := run_cons.mp ran
          change state.advance request leaseSeconds choice = some next
            at stepped
          unfold advance at stepped
          rw [stage] at stepped
          simp only at stepped
          split at stepped
          · cases stepped
            have offers := induction (by rfl) ran
            exact refused_agrees lastError choice offers
          · split at stepped
            · cases stepped
              have offers := allocate_agrees (by rfl) lastError
                (fun stage ran => induction stage ran) ran done
              exact offers
            · cases stepped
              have offers := induction (by rfl) ran
              exact refused_agrees lastError choice offers

theorem mem_candidates {nodes : List RamNode} {node : RamNode} :
    node ∈ candidates request topology nodes ↔
      node ∈ nodes ∧ node.provides request.size = true ∧
        (node.nodeId = request.computeNode ∨
          ∀ preferred ∈ request.preferredNode, node.nodeId = preferred) := by
  unfold candidates
  rw [List.mem_filter, mem_rankRam, and_assoc]
  refine and_congr_right fun _ => and_congr_right fun _ => ?_
  unfold AllocateRequest.eligible
  cases request.preferredNode <;> simp

theorem candidates_precedes {nodes : List RamNode}
    (distinct : (nodes.map (·.nodeId)).Nodup) :
    (candidates request topology nodes).Pairwise
      (Precedes topology request.computeNode request.size) :=
  (rankRam_precedes distinct).filter _

theorem candidates_head {nodes : List RamNode}
    (distinct : (nodes.map (·.nodeId)).Nodup) {node : RamNode}
    (listed : node ∈ nodes) (here : node.nodeId = request.computeNode)
    (provides : node.provides request.size = true) :
    (candidates request topology nodes)[0]? = some node := by
  have member : node ∈ candidates request topology nodes :=
    mem_candidates.mpr ⟨listed, provides, .inl here⟩
  have ordered : (candidates request topology nodes).Pairwise
      (Precedes topology request.computeNode request.size) :=
    candidates_precedes distinct
  cases list : candidates request topology nodes with
  | nil =>
      rw [list] at member
      cases member
  | cons head rest =>
      rw [list] at member ordered
      rcases List.mem_cons.mp member with rfl | later
      · rfl
      · have before := (List.pairwise_cons.mp ordered).1 node later
        exact absurd here before.1

variable (request leaseSeconds topology)

/-- `Allocate` offers the block to the compute node first and then to the other
eligible nodes by cost, available RAM and identifier, returns and registers the
handle of the first that accepts, however the nodes are listed, and changes
nothing if all refuse. -/
theorem allocation_ordered {nodes : List RamNode}
    (distinct : (nodes.map (·.nodeId)).Nodup) (offers : Nat → Offer)
    (table : ResidencyTable) :
    (∀ node, node ∈ candidates request topology nodes ↔
      node ∈ nodes ∧ node.provides request.size = true ∧
        (node.nodeId = request.computeNode ∨
          ∀ preferred ∈ request.preferredNode, node.nodeId = preferred)) ∧
    (candidates request topology nodes).Pairwise
      (Precedes topology request.computeNode request.size) ∧
    (∀ attempt node, FirstAccepting offers
        ((candidates request topology nodes).map (·.toNodeCapabilities))
        attempt node →
      allocate request leaseSeconds topology offers nodes table =
        (.ok (request.handle leaseSeconds node (offers attempt).choice),
          table.register
            (request.handle leaseSeconds node (offers attempt).choice))) ∧
    (∀ handle, (allocate request leaseSeconds topology offers nodes
        table).1 = .ok handle → handle.ownerNode ≠ request.computeNode →
      ∀ node ∈ nodes, node.nodeId = request.computeNode →
        node.provides request.size = false ∨
          (offers 0).refusal node.nodeId ≠ none) ∧
    (∀ other : List RamNode, other.Perm nodes →
      allocate request leaseSeconds topology offers other table =
        allocate request leaseSeconds topology offers nodes table) ∧
    ((∀ attempt node, ((candidates request topology nodes).map
        (·.toNodeCapabilities))[attempt]? = some node →
          (offers attempt).refusal node.nodeId ≠ none) →
      ∃ error : String, allocate request leaseSeconds topology offers nodes
        table =
          (.error (.error s!"TRAINPOOL_OUT_OF_CAPACITY: {error}"), table)) := by
  refine ⟨fun node => mem_candidates, candidates_precedes distinct,
    fun attempt node first => place_accepted first _ table, ?_, ?_,
    fun refused => place_refused refused _ table⟩
  · intro handle returned remote node listed here
    obtain ⟨attempt, owner, first, rfl⟩ := place_ok returned
    obtain ⟨found, accepts, refused⟩ := first
    by_contra neither
    obtain ⟨provides, free⟩ := not_or.mp neither
    have head : (candidates request topology nodes)[0]? = some node :=
      candidates_head distinct listed here (Bool.not_eq_false _ ▸ provides)
    have first : ((candidates request topology nodes).map
        (·.toNodeCapabilities))[0]? = some node.toNodeCapabilities := by
      rw [List.getElem?_map, head]
      rfl
    rcases Nat.eq_zero_or_pos attempt with rfl | later
    · rw [first] at found
      cases found
      exact remote here
    · exact free (refused 0 later _ first)
  · intro other same
    unfold allocate candidates
    rw [rankRam_eq distinct same]

end

/-! Node 2 computes, node 3 is near it, and node 1 far away. -/

def ramNode (id available : Nat) : RamNode where
  toNodeCapabilities := sampleNode id (id * 10)
  ramProvider := true
  trainpoolRamUsed := 0
  trainpoolRamBudget := available
  trainpoolRamAvailable := available
  activeTransfers := 0

def sampleTopology : Topology Nat where
  transferCost _ destination _ := if destination = 3 then 1 else 2
  underLoad cost active := cost * (1 + active)

/-- The compute node refuses, and so does the nearer of the others. -/
def sampleOffers (attempt : Nat) : Offer where
  choice := ⟨none, [], 7 + attempt, 5, 0, .answered, "", true, true⟩
  refusal node := if node = 1 then none else some "full"

def sampleRanking : List RamNode := [ramNode 2 8, ramNode 3 8, ramNode 1 8]

theorem sampleRanking_candidates :
    candidates sampleRequest sampleTopology sampleRanking =
      sampleRanking := by
  unfold candidates rankRam
  rw [List.partition_eq_filter_filter]
  change List.filter _ ([ramNode 2 8] ++
    [ramNode 3 8, ramNode 1 8].mergeSort _) = _
  rw [List.mergeSort_of_pairwise (by decide +kernel)]
  rfl

theorem allocation_ordered_sample :
    (allocate sampleRequest 300 sampleTopology sampleOffers
      sampleRanking.reverse ∅).1.map (·.ownerNode) = .ok 1 := by
  have spec := allocation_ordered sampleRequest 300 sampleTopology
    (show (sampleRanking.map (·.nodeId)).Nodup by decide +kernel)
    sampleOffers ∅
  obtain ⟨_, _, accepted, _, same, _⟩ := spec
  have first := accepted 2 (sampleNode 1 10) (by
    rw [sampleRanking_candidates]
    exact ⟨rfl, rfl, by decide +kernel⟩)
  rw [same _ (List.reverse_perm _), first]
  rfl

end Placement

end TrainPool
