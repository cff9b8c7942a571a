import TrainPool.Cluster.Placement

namespace TrainPool

/-! What the leader does for a node that owns more memory than its budget. -/

/-- A `Migrate` that the leader has sent, and whether it succeeded. -/
structure Relief where
  block : MemoryBlockHandle
  target : Uuid
  moved : Bool
  deriving DecidableEq, Repr

/-- What the leader finds while it goes on: the nodes and the links when the
targets of a block are ranked, whether the source is known when a target is
tried, and whether the migration succeeds. -/
structure Outside (κ : Type) where
  nodes : MemoryBlockHandle → List RamNode
  topology : MemoryBlockHandle → Topology κ
  known : MemoryBlockHandle → Uuid → Bool
  migrates : MemoryBlockHandle → Uuid → Bool

namespace Pressure

/-- The committed blocks of the source whose leases run, smallest first. -/
def eligible (source : Uuid) (now : Nat) (table : ResidencyTable) :
    List MemoryBlockHandle :=
  ((table.entries.map Sigma.snd).filter fun block =>
      block.ownerNode = source && block.state = .ready &&
        now < block.leaseExpiresMs).insertionSort fun left right =>
    toLex (left.size, left.id) ≤ (toLex (right.size, right.id) : Nat ×ₗ Nat)

section

variable {κ : Type} (around : Outside κ) (source : Uuid)
def offer (block : MemoryBlockHandle) :
    List RamNode → Result Bool × List Relief
  | [] => (.ok false, [])
  | target :: rest =>
      if around.known block target.nodeId then
        if around.migrates block target.nodeId then
          (.ok true, [⟨block, target.nodeId, true⟩])
        else
          let (answer, sent) := offer block rest
          (answer, ⟨block, target.nodeId, false⟩ :: sent)
      else
        (.error (.error s!"TRAINPOOL_NODE_UNAVAILABLE: {source}"), [])

variable [LinearOrder κ]

def targets (block : MemoryBlockHandle) : List RamNode :=
  Placement.rankRam (around.topology block) source block.size
    ((around.nodes block).filter (·.nodeId ≠ source))

def move (excess : Nat) : List MemoryBlockHandle → Nat →
    Result Nat × List Relief
  | [], moved => (.ok moved, [])
  | block :: rest, moved =>
      if excess ≤ moved then
        (.ok moved, [])
      else
        match offer around source block (targets around source block) with
        | (.error failure, sent) => (.error failure, sent)
        | (.ok true, sent) =>
            let (answer, later) := move excess rest (moved + block.size)
            (answer, sent ++ later)
        | (.ok false, sent) =>
            let (answer, later) := move excess rest moved
            (answer, sent ++ later)

/-- `relieve_pressure`; one at a time. -/
def relievePressure (gated : Bool) (excess now : Nat)
    (table : ResidencyTable) : Result Nat × List Relief :=
  if gated then (.ok 0, [])
  else move around source excess (eligible source now table) 0

end

section

variable {κ : Type} {around : Outside κ} {source : Uuid}
  {block : MemoryBlockHandle} {sent : List Relief}

def gone (sent : List Relief) : List MemoryBlockHandle :=
  (sent.filter (·.moved)).map Relief.block

def bytes (blocks : List MemoryBlockHandle) : Nat :=
  (blocks.map MemoryBlockHandle.size).sum

theorem gone_append (early late : List Relief) :
    gone (early ++ late) = gone early ++ gone late := by
  unfold gone
  rw [List.filter_append, List.map_append]

theorem offer_sent (nodes : List RamNode) {answer : Result Bool}
    (offered : offer around source block nodes = (answer, sent)) :
    ∀ relief ∈ sent, relief.block = block ∧
      ∃ target ∈ nodes, target.nodeId = relief.target := by
  induction nodes generalizing answer sent with
  | nil =>
      cases offered
      exact nofun
  | cons target rest ih =>
      unfold offer at offered
      split at offered
      · split at offered
        · cases offered
          intro relief member
          cases List.mem_singleton.mp member
          exact ⟨rfl, target, List.mem_cons_self, rfl⟩
        · cases offered
          intro relief member
          rcases List.mem_cons.mp member with rfl | later
          · exact ⟨rfl, target, List.mem_cons_self, rfl⟩
          · obtain ⟨same, node, among, named⟩ := ih rfl relief later
            exact ⟨same, node, List.mem_cons_of_mem _ among, named⟩
      · cases offered
        exact nofun

theorem offer_true (nodes : List RamNode)
    (offered : offer around source block nodes = (.ok true, sent)) :
    gone sent = [block] := by
  induction nodes generalizing sent with
  | nil => cases offered
  | cons target rest ih =>
      unfold offer at offered
      split at offered
      · split at offered
        · cases offered
          rfl
        · cases later : offer around source block rest with
          | mk answer others =>
              rw [later] at offered
              cases offered
              change gone others = [block]
              exact ih later
      · cases offered

theorem offer_false (nodes : List RamNode)
    (offered : offer around source block nodes = (.ok false, sent)) :
    gone sent = [] ∧
      ∀ target ∈ nodes, ⟨block, target.nodeId, false⟩ ∈ sent := by
  induction nodes generalizing sent with
  | nil =>
      cases offered
      exact ⟨rfl, nofun⟩
  | cons target rest ih =>
      unfold offer at offered
      split at offered
      · split at offered
        · cases offered
        · cases later : offer around source block rest with
          | mk answer others =>
              rw [later] at offered
              cases offered
              obtain ⟨nothing, all⟩ := ih later
              refine ⟨nothing, ?_⟩
              intro node member
              rcases List.mem_cons.mp member with rfl | among
              · exact List.mem_cons_self
              · exact List.mem_cons_of_mem _ (all node among)
      · cases offered

variable [LinearOrder κ]

def Refused (around : Outside κ) (source : Uuid)
    (block : MemoryBlockHandle) (sent : List Relief) : Prop :=
  ∀ target ∈ targets around source block,
    ⟨block, target.nodeId, false⟩ ∈ sent

structure Relieved (around : Outside κ) (source : Uuid) (excess : Nat)
    (blocks : List MemoryBlockHandle) (before moved : Nat)
    (sent : List Relief) : Prop where
  total : moved = before + bytes (gone sent)
  once : (gone sent).Sublist blocks
  sparing : ∀ front last, gone sent = front ++ [last] →
    before + bytes front < excess
  ranked : ∀ relief ∈ sent, relief.block ∈ blocks ∧
    ∃ target ∈ targets around source relief.block,
      target.nodeId = relief.target
  refused : moved < excess → ∀ block ∈ blocks, block ∈ gone sent ∨
    Refused around source block sent

theorem targets_of_offer {nodes : List RamNode} {answer : Result Bool}
    {blocks : List MemoryBlockHandle}
    (same : nodes = targets around source block)
    (offered : offer around source block nodes = (answer, sent)) :
    ∀ relief ∈ sent, relief.block ∈ block :: blocks ∧
      ∃ target ∈ targets around source relief.block,
        target.nodeId = relief.target := by
  intro relief member
  obtain ⟨own, target, among, named⟩ := offer_sent nodes offered relief member
  subst same
  rw [own]
  exact ⟨List.mem_cons_self, target, among, named⟩

theorem move_relieved {excess : Nat} (blocks : List MemoryBlockHandle)
    {before moved : Nat}
    (relieved : move around source excess blocks before = (.ok moved, sent)) :
    Relieved around source excess blocks before moved sent := by
  induction blocks generalizing before sent with
  | nil =>
      cases relieved
      exact ⟨rfl, .slnil, by simp [gone], nofun, nofun⟩
  | cons block rest ih =>
      unfold move at relieved
      split at relieved
      · rename_i enough
        cases relieved
        refine ⟨rfl, List.nil_sublist _, by simp [gone], nofun, ?_⟩
        intro fewer
        exact absurd enough (Nat.not_le.mpr fewer)
      · rename_i missing
        split at relieved
        · cases relieved
        · rename_i early offered
          cases later : move around source excess rest (before + block.size)
            with
          | mk answer late =>
              rw [later] at relieved
              cases relieved
              have one := offer_true _ offered
              have others := ih later
              have all : gone (early ++ late) = block :: gone late := by
                rw [gone_append, one, List.singleton_append]
              refine ⟨?_, ?_, ?_, ?_, ?_⟩
              · rw [others.total, all]
                simp [bytes, Nat.add_assoc]
              · rw [all]
                exact others.once.cons_cons block
              · intro front last whole
                rw [all] at whole
                cases front with
                | nil =>
                    simpa [bytes] using missing
                | cons first front =>
                    obtain ⟨rfl, tail⟩ := List.cons.inj whole
                    have fits := others.sparing front last tail
                    simpa [bytes, Nat.add_assoc] using fits
              · intro relief member
                rcases List.mem_append.mp member with first | second
                · exact targets_of_offer rfl offered relief first
                · obtain ⟨among, found⟩ := others.ranked relief second
                  exact ⟨List.mem_cons_of_mem _ among, found⟩
              · intro fewer other member
                rw [all]
                rcases List.mem_cons.mp member with rfl | among
                · exact .inl List.mem_cons_self
                · rcases others.refused fewer other among with left | refused
                  · exact .inl (List.mem_cons_of_mem _ left)
                  · exact .inr fun target listed =>
                      List.mem_append_right _ (refused target listed)
        · rename_i early offered
          cases later : move around source excess rest before with
          | mk answer late =>
              rw [later] at relieved
              cases relieved
              obtain ⟨nothing, refusals⟩ := offer_false _ offered
              have others := ih later
              have all : gone (early ++ late) = gone late := by
                rw [gone_append, nothing, List.nil_append]
              refine ⟨?_, ?_, ?_, ?_, ?_⟩
              · rw [others.total, all]
              · rw [all]
                exact others.once.cons block
              · rw [all]
                exact others.sparing
              · intro relief member
                rcases List.mem_append.mp member with first | second
                · exact targets_of_offer rfl offered relief first
                · obtain ⟨among, found⟩ := others.ranked relief second
                  exact ⟨List.mem_cons_of_mem _ among, found⟩
              · intro fewer other member
                rw [all]
                rcases List.mem_cons.mp member with rfl | among
                · exact .inr fun target listed =>
                    List.mem_append_left _ (refusals target listed)
                · rcases others.refused fewer other among with left | refused
                  · exact .inl left
                  · exact .inr fun target listed =>
                      List.mem_append_right _ (refused target listed)

theorem mem_eligible {now : Nat} {table : ResidencyTable} :
    block ∈ eligible source now table ↔
      block ∈ table.entries.map Sigma.snd ∧ block.ownerNode = source ∧
        block.state = .ready ∧ now < block.leaseExpiresMs := by
  unfold eligible
  rw [List.mem_insertionSort, List.mem_filter]
  simp [and_assoc]

theorem eligible_ascending {now : Nat} {table : ResidencyTable} :
    (eligible source now table).Pairwise
      fun left right => left.size ≤ right.size := by
  have : IsTrans MemoryBlockHandle fun left right =>
      toLex (left.size, left.id) ≤
        (toLex (right.size, right.id) : Nat ×ₗ Nat) :=
    ⟨fun _ _ _ => le_trans⟩
  have : Std.Total fun left right : MemoryBlockHandle =>
      toLex (left.size, left.id) ≤
        (toLex (right.size, right.id) : Nat ×ₗ Nat) :=
    ⟨fun _ _ => le_total _ _⟩
  unfold eligible
  apply (List.pairwise_insertionSort _ _).imp
  intro left right least
  rcases Prod.Lex.toLex_le_toLex.mp least with less | same
  · exact Nat.le_of_lt less
  · exact Nat.le_of_eq same.1

theorem mem_targets {target : RamNode} :
    target ∈ targets around source block ↔
      (target ∈ around.nodes block ∧ target.nodeId ≠ source) ∧
        target.provides block.size = true := by
  unfold targets
  rw [Placement.mem_rankRam, List.mem_filter, decide_eq_true_eq]

theorem relievePressure_gated {excess now moved : Nat}
    {table : ResidencyTable}
    (answered : relievePressure around source true excess now table =
      (.ok moved, sent)) : moved = 0 ∧ sent = [] := by
  unfold relievePressure at answered
  rw [if_pos rfl] at answered
  cases answered
  exact ⟨rfl, rfl⟩

/-- What `relieve_pressure` returns are the bytes of the blocks that have left
the source, each of them once, the smallest first and no more than needed.  It
does nothing while another one holds the gate, and with the gate it falls short
only if every other block was refused by all nodes that could take it. -/
theorem pressure_relieved {gated : Bool} {excess now moved : Nat}
    {table : ResidencyTable}
    (answered : relievePressure around source gated excess now table =
      (.ok moved, sent)) :
    moved = bytes (gone sent) ∧
    (gone sent).Sublist (eligible source now table) ∧
    (gone sent).Pairwise (fun left right => left.size ≤ right.size) ∧
    (∀ front last, gone sent = front ++ [last] → bytes front < excess) ∧
    (∀ relief ∈ sent, relief.block ∈ eligible source now table ∧
      relief.target ≠ source ∧
      ∃ target ∈ around.nodes relief.block, target.nodeId = relief.target ∧
        target.provides relief.block.size = true) ∧
    (gated = true → sent = []) ∧
    (gated = false → moved < excess →
      ∀ block ∈ eligible source now table, block ∈ gone sent ∨
        ∀ target ∈ around.nodes block, target.nodeId ≠ source →
          target.provides block.size = true →
            ⟨block, target.nodeId, false⟩ ∈ sent) := by
  cases gated with
  | true =>
      obtain ⟨rfl, rfl⟩ := relievePressure_gated answered
      exact ⟨rfl, List.nil_sublist _, .nil, by simp [gone], nofun,
        fun _ => rfl, nofun⟩
  | false =>
      have relieved := move_relieved _ answered
      refine ⟨?_, relieved.once, ?_, ?_, ?_, nofun, ?_⟩
      · rw [relieved.total, Nat.zero_add]
      · exact eligible_ascending.sublist relieved.once
      · intro front last whole
        have fits := relieved.sparing front last whole
        rwa [Nat.zero_add] at fits
      · intro relief member
        obtain ⟨among, target, ranked, named⟩ :=
          relieved.ranked relief member
        obtain ⟨⟨known, other⟩, provides⟩ := mem_targets.mp ranked
        exact ⟨among, named ▸ other, target, known, named, provides⟩
      · intro _ fewer block among
        rcases relieved.refused fewer block among with left | refused
        · exact .inl left
        · refine .inr fun target known other provides => ?_
          exact refused target (mem_targets.mpr ⟨⟨known, other⟩, provides⟩)

end

/-! Node 3 refuses the smaller of two blocks and takes the larger. -/

def largerBlock : MemoryBlockHandle := { abcReady with id := 8, size := 5 }

def pressedTable : ResidencyTable :=
  ((∅ : ResidencyTable).insert 8 largerBlock).insert 7 abcReady

def pressedOutside : Outside Nat where
  nodes _ := [Placement.ramNode 2 8, Placement.ramNode 3 8]
  topology _ := Placement.sampleTopology
  known _ _ := true
  migrates block _ := block.id = 8

theorem pressed_targets {block : MemoryBlockHandle} (fits : block.size ≤ 8) :
    targets pressedOutside 2 block = [Placement.ramNode 3 8] := by
  have provides : (Placement.ramNode 3 8).provides block.size = true := by
    unfold RamNode.provides Placement.ramNode
    simp [fits, RamNode.excess]
  have others : ((pressedOutside.nodes block).filter
      (·.nodeId ≠ 2)).filter (·.provides block.size) =
        [Placement.ramNode 3 8] :=
    List.filter_cons_of_pos provides
  unfold targets Placement.rankRam
  rw [others, List.partition_eq_filter_filter]
  exact List.mergeSort_singleton _

theorem pressed_eligible :
    eligible 2 0 pressedTable = [abcReady, largerBlock] := by
  decide +kernel

theorem pressed_answer :
    relievePressure pressedOutside 2 false 6 0 pressedTable =
      (.ok 5, [⟨abcReady, 3, false⟩, ⟨largerBlock, 3, true⟩]) := by
  unfold relievePressure
  rw [pressed_eligible, if_neg Bool.false_ne_true]
  unfold move
  rw [pressed_targets (by decide), if_neg (by decide)]
  unfold move
  rw [pressed_targets (by decide)]
  rfl

theorem pressure_relieved_larger :
    5 = bytes [largerBlock] ∧
      ∀ target ∈ pressedOutside.nodes abcReady, target.nodeId ≠ 2 →
        target.provides abcReady.size = true →
          (⟨abcReady, target.nodeId, false⟩ : Relief) ∈
            [⟨abcReady, 3, false⟩, ⟨largerBlock, 3, true⟩] := by
  obtain ⟨moved, _, _, _, _, _, refused⟩ := pressure_relieved pressed_answer
  refine ⟨moved, ?_⟩
  have listed : abcReady ∈ eligible 2 0 pressedTable := by
    rw [pressed_eligible]
    exact List.mem_cons_self
  rcases refused rfl (by decide) abcReady listed with gone | refused
  · exact absurd gone (by decide)
  · exact refused

end Pressure

end TrainPool
