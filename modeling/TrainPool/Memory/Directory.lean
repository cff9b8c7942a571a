import Mathlib.Data.List.Induction
import TrainPool.Memory.Residency

namespace TrainPool

/-! The residency table over whole sequences of updates. -/

inductive TableEvent where
  | register (handle : MemoryBlockHandle)
  | loseNode (node : Uuid)
  deriving DecidableEq, Repr

namespace ResidencyTable

def apply (table : ResidencyTable) : TableEvent → ResidencyTable
  | .register handle => table.register handle
  | .loseNode node => (table.loseNode node).1

/-- What an entry can become: later generations replace it, a lease grows
until it ends, and a freed entry stays freed. -/
structure Advances (old entry : MemoryBlockHandle) : Prop where
  generation : old.generation ≤ entry.generation
  freed : old.leaseExpiresMs = 0 → entry.leaseExpiresMs = 0
  leased : entry.generation = old.generation → entry.leaseExpiresMs ≠ 0 →
    old.leaseExpiresMs ≤ entry.leaseExpiresMs

theorem Advances.refl (entry : MemoryBlockHandle) : Advances entry entry :=
  ⟨Nat.le_refl _, id, fun _ _ => Nat.le_refl _⟩

theorem Advances.trans {first second third : MemoryBlockHandle}
    (early : Advances first second) (late : Advances second third) :
    Advances first third := by
  refine ⟨early.generation.trans late.generation,
    fun freed => late.freed (early.freed freed), ?_⟩
  intro same alive
  have least := early.generation
  have most := late.generation
  have alive' : second.leaseExpiresMs ≠ 0 :=
    fun freed => alive (late.freed freed)
  exact (early.leased (by omega) alive').trans (late.leased (by omega) alive)

theorem Merges.advances {old handle merged : MemoryBlockHandle}
    (merges : Merges old handle merged) : Advances old merged := by
  cases merges with
  | freed freed => exact .refl old
  | stale alive stale => exact .refl old
  | kept alive same leased ready writing =>
      refine ⟨Nat.le_refl _, fun freed => absurd freed alive, ?_⟩
      intro _ _
      exact Nat.le_max_left _ _
  | renewed alive same leased differs =>
      refine ⟨same.ge, fun freed => absurd freed alive, ?_⟩
      intro _ _
      exact Nat.le_max_left _ _
  | buried alive same freed =>
      refine ⟨same.ge, fun freed => absurd freed alive, ?_⟩
      intro _ leased
      exact absurd freed leased
  | newer alive newer =>
      refine ⟨newer.le, fun freed => absurd freed alive, ?_⟩
      intro same
      omega

section Events

variable {table : ResidencyTable} {id : Uuid} {old : MemoryBlockHandle}

theorem register_advances (handle : MemoryBlockHandle)
    (found : table.lookup id = some old) :
    ∃ entry, (table.register handle).lookup id = some entry ∧
      Advances old entry := by
  by_cases same : id = handle.id
  · subst same
    obtain ⟨merged, merges, stored⟩ := lookup_register found
    exact ⟨merged, stored, merges.advances⟩
  · rw [lookup_register_ne same]
    exact ⟨old, found, .refl old⟩

theorem loseNode_advances (node : Uuid)
    (found : table.lookup id = some old) :
    ∃ entry, (table.loseNode node).1.lookup id = some entry ∧
      Advances old entry := by
  rw [lookup_loseNode, found, Option.map_some]
  refine ⟨_, rfl, ?_⟩
  split
  · exact ⟨Nat.le_refl _, fun freed => freed, fun _ _ => Nat.le_refl _⟩
  · exact .refl old

theorem apply_advances (event : TableEvent)
    (found : table.lookup id = some old) :
    ∃ entry, (table.apply event).lookup id = some entry ∧
      Advances old entry := by
  cases event with
  | register handle => exact register_advances handle found
  | loseNode node => exact loseNode_advances node found

theorem foldl_advances (events : List TableEvent)
    (found : table.lookup id = some old) :
    ∃ entry, (events.foldl apply table).lookup id = some entry ∧
      Advances old entry := by
  induction events generalizing table old with
  | nil => exact ⟨old, found, .refl old⟩
  | cons event rest ih =>
      obtain ⟨middle, stored, early⟩ := apply_advances event found
      obtain ⟨entry, final, late⟩ := ih stored
      exact ⟨entry, final, early.trans late⟩

theorem register_freed (handle : MemoryBlockHandle)
    (found : table.lookup id = some old) (freed : old.leaseExpiresMs = 0) :
    (table.register handle).lookup id = some old := by
  by_cases same : id = handle.id
  · subst same
    obtain ⟨merged, merges, stored⟩ := lookup_register found
    cases merges with
    | freed _ => exact stored
    | stale alive _ => exact absurd freed alive
    | kept alive _ _ _ _ => exact absurd freed alive
    | renewed alive _ _ _ => exact absurd freed alive
    | buried alive _ _ => exact absurd freed alive
    | newer alive _ => exact absurd freed alive
  · rw [lookup_register_ne same]
    exact found

theorem register_ready {handle entry : MemoryBlockHandle}
    (found : table.lookup id = some old)
    (stored : (table.register handle).lookup id = some entry)
    (leased : handle.leaseExpiresMs ≠ 0) (ready : old.state = .ready)
    (same : entry.generation = old.generation) : entry.state ≠ .writing := by
  by_cases met : id = handle.id
  · subst met
    obtain ⟨merged, merges, stored'⟩ := lookup_register found
    cases stored.symm.trans stored'
    cases merges with
    | freed _ => simp [ready]
    | stale _ _ => simp [ready]
    | kept _ _ _ _ _ => simp [ready]
    | renewed _ _ _ differs => exact differs ready
    | buried _ _ freed => exact absurd freed leased
    | newer _ newer => omega
  · rw [lookup_register_ne met, found] at stored
    cases stored
    simp [ready]

end Events

/-- Over all updates of a table, an entry only moves forward: its generation
and, within one, its lease grow, a freed entry stays as it is, and a leased
handle of its generation does not take a ready block back. -/
theorem entries_move_forward (front back : List TableEvent) (id : Uuid)
    (old : MemoryBlockHandle)
    (found : (front.foldl apply ∅).lookup id = some old) :
    (∃ entry,
      ((front ++ back).foldl apply ∅).lookup id = some entry ∧
        old.generation ≤ entry.generation ∧
        (old.leaseExpiresMs = 0 → entry.leaseExpiresMs = 0) ∧
        (entry.generation = old.generation → entry.leaseExpiresMs ≠ 0 →
          old.leaseExpiresMs ≤ entry.leaseExpiresMs)) ∧
      ∀ handle,
        (old.leaseExpiresMs = 0 →
          ((front.foldl apply ∅).register handle).lookup id = some old) ∧
        (handle.leaseExpiresMs ≠ 0 → old.state = .ready → ∀ entry,
          ((front.foldl apply ∅).register handle).lookup id = some entry →
            entry.generation = old.generation → entry.state ≠ .writing) := by
  constructor
  · rw [List.foldl_append]
    obtain ⟨entry, stored, advances⟩ := foldl_advances back found
    exact ⟨entry, stored, advances.generation, advances.freed,
      advances.leased⟩
  · intro handle
    refine ⟨register_freed handle found, ?_⟩
    intro leased ready entry stored same
    exact register_ready found stored leased ready same

theorem entries_move_forward_abc :
    (([TableEvent.register abcHandle].foldl apply ∅).lookup 7 =
        some abcHandle) ∧
      ∃ entry, (([TableEvent.register abcHandle] ++
          [TableEvent.register { abcHandle with leaseExpiresMs := 0 }]).foldl
            apply ∅).lookup 7 = some entry ∧
        abcHandle.generation ≤ entry.generation := by
  have found : ([TableEvent.register abcHandle].foldl apply ∅).lookup 7 =
      some abcHandle := rfl
  obtain ⟨entry, stored, grown, _⟩ := (entries_move_forward
    [TableEvent.register abcHandle]
    [TableEvent.register { abcHandle with leaseExpiresMs := 0 }] 7 abcHandle found).1
  exact ⟨found, entry, stored, grown⟩

/-! Updates that arrive in any order. -/

def fixedPart (handle : MemoryBlockHandle) : MemoryBlockHandle :=
  { handle with leaseExpiresMs := 0, state := .writing, checksum := none }

/-- Leased handles of writing and ready blocks that tell the same story. -/
structure Coherent (handles : List MemoryBlockHandle) : Prop where
  leased : ∀ handle ∈ handles, handle.leaseExpiresMs ≠ 0
  states : ∀ handle ∈ handles,
    handle.state = .writing ∨ handle.state = .ready
  agree : ∀ left ∈ handles, ∀ right ∈ handles, left.id = right.id →
    left.generation = right.generation → fixedPart left = fixedPart right
  checksums : ∀ left ∈ handles, ∀ right ∈ handles, left.id = right.id →
    left.generation = right.generation → left.state = .ready →
      right.state = .ready → left.checksum = right.checksum

/-- The writing handles of a generation agree on their checksum as well. -/
def Settled (handles : List MemoryBlockHandle) : Prop :=
  ∀ left ∈ handles, ∀ right ∈ handles, left.id = right.id →
    left.generation = right.generation → left.state = .writing →
      right.state = .writing → left.checksum = right.checksum

/-- The entry that handles of one block amount to: the highest generation,
ready if any handle of it is, with the longest lease of it. -/
structure Joins (handles : List MemoryBlockHandle) (id : Uuid)
    (entry : MemoryBlockHandle) : Prop where
  source : ∃ handle ∈ handles, handle.id = id ∧
    entry = { handle with leaseExpiresMs := entry.leaseExpiresMs }
  highest : ∀ handle ∈ handles, handle.id = id →
    handle.generation ≤ entry.generation
  longest : ∀ handle ∈ handles, handle.id = id →
    handle.generation = entry.generation →
      handle.leaseExpiresMs ≤ entry.leaseExpiresMs
  attained : ∃ handle ∈ handles, handle.id = id ∧
    handle.generation = entry.generation ∧
      handle.leaseExpiresMs = entry.leaseExpiresMs
  ready : entry.state = .ready ↔ ∃ handle ∈ handles, handle.id = id ∧
    handle.generation = entry.generation ∧ handle.state = .ready

/-- What the table says about a block once it has taken some handles. -/
def Describes (handles : List MemoryBlockHandle) (id : Uuid)
    (stored : Option MemoryBlockHandle) : Prop :=
  match stored with
  | none => ∀ handle ∈ handles, handle.id ≠ id
  | some entry => Joins handles id entry

def registerAll (handles : List MemoryBlockHandle) : ResidencyTable :=
  handles.foldl (fun table handle => table.register handle) ∅

section Joins

variable {handles : List MemoryBlockHandle} {id : Uuid}
  {handle old entry : MemoryBlockHandle}

theorem Coherent.of_subset {other : List MemoryBlockHandle}
    (coherent : Coherent handles) (within : ∀ met ∈ other, met ∈ handles) :
    Coherent other := by
  refine ⟨?_, ?_, ?_, ?_⟩
  · exact fun met member => coherent.leased met (within met member)
  · exact fun met member => coherent.states met (within met member)
  · exact fun first member second member' => coherent.agree first
      (within first member) second (within second member')
  · exact fun first member second member' => coherent.checksums first
      (within first member) second (within second member')

theorem Coherent.initial (coherent : Coherent (handles ++ [handle])) :
    Coherent handles :=
  coherent.of_subset fun _ member => List.mem_append_left _ member

theorem Coherent.last (coherent : Coherent (handles ++ [handle])) :
    handle.leaseExpiresMs ≠ 0 ∧
      (handle.state = .writing ∨ handle.state = .ready) :=
  ⟨coherent.leased handle (by simp), coherent.states handle (by simp)⟩

theorem Describes.other {stored : Option MemoryBlockHandle}
    (describes : Describes handles id stored) (other : handle.id ≠ id) :
    Describes (handles ++ [handle]) id stored := by
  have only : ∀ {met : MemoryBlockHandle}, met ∈ handles ++ [handle] →
      met.id = id → met ∈ handles := by
    intro met member same
    rcases List.mem_append.mp member with old | new
    · exact old
    · cases List.mem_singleton.mp new
      exact absurd same other
  cases stored with
  | none =>
      intro met member same
      exact describes met (only member same) same
  | some entry =>
      obtain ⟨source, highest, longest, attained, ready⟩ := describes
      refine ⟨?_, ?_, ?_, ?_, ready.trans ?_⟩
      · obtain ⟨met, member, found⟩ := source
        exact ⟨met, List.mem_append_left _ member, found⟩
      · exact fun met member same => highest met (only member same) same
      · exact fun met member same => longest met (only member same) same
      · obtain ⟨met, member, found⟩ := attained
        exact ⟨met, List.mem_append_left _ member, found⟩
      · constructor
        · intro found
          obtain ⟨met, member, found⟩ := found
          exact ⟨met, List.mem_append_left _ member, found⟩
        · intro found
          obtain ⟨met, member, same, found⟩ := found
          exact ⟨met, only member same, same, found⟩

theorem mem_snoc {met : MemoryBlockHandle} :
    met ∈ handles ++ [handle] ↔ met ∈ handles ∨ met = handle := by
  rw [List.mem_append, List.mem_singleton]

theorem Joins.first (absent : ∀ met ∈ handles, met.id ≠ handle.id) :
    Joins (handles ++ [handle]) handle.id handle := by
  have only : ∀ met ∈ handles ++ [handle], met.id = handle.id →
      met = handle := by
    intro met member same
    rcases mem_snoc.mp member with old | new
    · exact absurd same (absent met old)
    · exact new
  have self : handle ∈ handles ++ [handle] := mem_snoc.mpr (.inr rfl)
  refine ⟨⟨handle, self, rfl, rfl⟩, ?_, ?_, ⟨handle, self, rfl, rfl, rfl⟩, ?_⟩
  · intro met member same
    rw [only met member same]
  · intro met member same _
    rw [only met member same]
  · constructor
    · exact fun ready => ⟨handle, self, rfl, rfl, ready⟩
    · intro found
      obtain ⟨met, member, same, _, ready⟩ := found
      rw [← only met member same]
      exact ready

theorem Joins.stale (joins : Joins handles handle.id old)
    (stale : handle.generation < old.generation) :
    Joins (handles ++ [handle]) handle.id old := by
  obtain ⟨source, highest, longest, attained, ready⟩ := joins
  refine ⟨?_, ?_, ?_, ?_, ready.trans ?_⟩
  · obtain ⟨met, member, found⟩ := source
    exact ⟨met, mem_snoc.mpr (.inl member), found⟩
  · intro met member same
    rcases mem_snoc.mp member with before | rfl
    · exact highest met before same
    · exact stale.le
  · intro met member same level
    rcases mem_snoc.mp member with before | rfl
    · exact longest met before same level
    · omega
  · obtain ⟨met, member, found⟩ := attained
    exact ⟨met, mem_snoc.mpr (.inl member), found⟩
  · constructor
    · intro found
      obtain ⟨met, member, found⟩ := found
      exact ⟨met, mem_snoc.mpr (.inl member), found⟩
    · intro found
      obtain ⟨met, member, same, level, found⟩ := found
      rcases mem_snoc.mp member with before | rfl
      · exact ⟨met, before, same, level, found⟩
      · omega

theorem Joins.newer (joins : Joins handles handle.id old)
    (newer : old.generation < handle.generation) :
    Joins (handles ++ [handle]) handle.id handle := by
  have self : handle ∈ handles ++ [handle] := mem_snoc.mpr (.inr rfl)
  have only : ∀ met ∈ handles ++ [handle], met.id = handle.id →
      met.generation = handle.generation → met = handle := by
    intro met member same level
    rcases mem_snoc.mp member with before | after
    · have := joins.highest met before same
      omega
    · exact after
  refine ⟨⟨handle, self, rfl, rfl⟩, ?_, ?_, ⟨handle, self, rfl, rfl, rfl⟩, ?_⟩
  · intro met member same
    rcases mem_snoc.mp member with before | rfl
    · exact (joins.highest met before same).trans newer.le
    · exact Nat.le_refl _
  · intro met member same level
    rw [only met member same level]
  · constructor
    · exact fun ready => ⟨handle, self, rfl, rfl, ready⟩
    · intro found
      obtain ⟨met, member, same, level, ready⟩ := found
      rw [← only met member same level]
      exact ready

/-- A handle of the highest generation joins the entry that keeps the fields
of one of them, is ready if either is, and has the longer lease. -/
theorem Joins.level {merged : MemoryBlockHandle}
    (joins : Joins handles handle.id old)
    (same : handle.generation = old.generation)
    (source : (∃ met ∈ handles, met.id = handle.id ∧
        merged = { met with leaseExpiresMs := merged.leaseExpiresMs }) ∨
      merged = { handle with leaseExpiresMs := merged.leaseExpiresMs })
    (generation : merged.generation = old.generation)
    (lease : merged.leaseExpiresMs =
      max old.leaseExpiresMs handle.leaseExpiresMs)
    (ready : merged.state = .ready ↔
      old.state = .ready ∨ handle.state = .ready) :
    Joins (handles ++ [handle]) handle.id merged := by
  have self : handle ∈ handles ++ [handle] := mem_snoc.mpr (.inr rfl)
  refine ⟨?_, ?_, ?_, ?_, ready.trans ?_⟩
  · rcases source with ⟨met, member, found⟩ | new
    · exact ⟨met, mem_snoc.mpr (.inl member), found⟩
    · exact ⟨handle, self, rfl, new⟩
  · intro met member block
    rw [generation]
    rcases mem_snoc.mp member with before | rfl
    · exact joins.highest met before block
    · exact same.le
  · intro met member block level
    rw [lease]
    rcases mem_snoc.mp member with before | rfl
    · exact (joins.longest met before block
        (level.trans generation)).trans (Nat.le_max_left _ _)
    · exact Nat.le_max_right _ _
  · rw [lease, generation]
    rcases Nat.le_total handle.leaseExpiresMs old.leaseExpiresMs with
      shorter | longer
    · obtain ⟨met, member, block, level, attained⟩ := joins.attained
      refine ⟨met, mem_snoc.mpr (.inl member), block, level, ?_⟩
      rw [attained, Nat.max_eq_left shorter]
    · refine ⟨handle, self, rfl, same, ?_⟩
      rw [Nat.max_eq_right longer]
  · rw [joins.ready, generation]
    constructor
    · intro either
      rcases either with ⟨met, member, found⟩ | new
      · exact ⟨met, mem_snoc.mpr (.inl member), found⟩
      · exact ⟨handle, self, rfl, same, new⟩
    · intro found
      obtain ⟨met, member, block, level, found⟩ := found
      rcases mem_snoc.mp member with before | rfl
      · exact .inl ⟨met, before, block, level, found⟩
      · exact .inr found

theorem Joins.leased (coherent : Coherent handles)
    (joins : Joins handles id entry) : entry.leaseExpiresMs ≠ 0 := by
  obtain ⟨met, member, _, _, attained⟩ := joins.attained
  rw [← attained]
  exact coherent.leased met member

theorem Joins.states (coherent : Coherent handles)
    (joins : Joins handles id entry) :
    entry.state = .writing ∨ entry.state = .ready := by
  obtain ⟨met, member, _, same⟩ := joins.source
  rw [same]
  exact coherent.states met member

theorem Joins.merges {merged : MemoryBlockHandle}
    (coherent : Coherent (handles ++ [handle]))
    (joins : Joins handles handle.id old)
    (merges : Merges old handle merged) :
    Joins (handles ++ [handle]) handle.id merged := by
  have alive := joins.leased coherent.initial
  obtain ⟨leased, state⟩ := coherent.last
  cases merges with
  | freed freed => exact absurd freed alive
  | stale _ stale => exact joins.stale stale
  | kept _ same _ ready writing =>
      obtain ⟨met, member, block, source⟩ := joins.source
      refine joins.level same (.inl ⟨met, member, block, ?_⟩) rfl rfl ?_
      · rw [source]
      · simp [ready]
  | renewed _ same _ differs =>
      refine joins.level same (.inr rfl) same rfl ?_
      constructor
      · exact .inr
      · intro either
        rcases either with ready | ready
        · exact state.resolve_left (differs ready)
        · exact ready
  | buried _ _ freed => exact absurd freed leased
  | newer _ newer => exact joins.newer newer

theorem foldl_register_describes (coherent : Coherent handles) (id : Uuid) :
    Describes handles id ((registerAll handles).lookup id) := by
  unfold registerAll
  induction handles using List.reverseRecOn with
  | nil =>
      rw [List.foldl_nil, AList.lookup_empty]
      exact nofun
  | append_singleton handles handle ih =>
      have before := ih coherent.initial
      rw [List.foldl_append, List.foldl_cons, List.foldl_nil]
      by_cases same : id = handle.id
      · subst same
        cases found : (handles.foldl
            (fun table handle => table.register handle)
              (∅ : ResidencyTable)).lookup handle.id with
        | none =>
            rw [found] at before
            rw [lookup_register_new found]
            exact Joins.first before
        | some old =>
            rw [found] at before
            obtain ⟨merged, merges, stored⟩ := lookup_register found
            rw [stored]
            exact Joins.merges coherent before merges
      · rw [lookup_register_ne same]
        exact before.other (Ne.symm same)

theorem Joins.fixedPart_eq {other : List MemoryBlockHandle}
    {entry' : MemoryBlockHandle} (coherent : Coherent handles)
    (members : ∀ met, met ∈ other ↔ met ∈ handles)
    (left : Joins handles id entry) (right : Joins other id entry') :
    fixedPart entry = fixedPart entry' := by
  obtain ⟨first, member, block, same⟩ := left.source
  obtain ⟨second, member', block', same'⟩ := right.source
  have level : first.generation = second.generation := by
    have up := left.highest second ((members second).mp member') block'
    have down := right.highest first ((members first).mpr member) block
    rw [same] at up
    rw [same'] at down
    exact Nat.le_antisymm down up
  have agrees := coherent.agree first member second
    ((members second).mp member') (block.trans block'.symm) level
  rw [same, same']
  exact agrees

/-- The entries that handles amount to in two orders agree up to the checksum
of a block that is still written. -/
theorem Joins.unique {other : List MemoryBlockHandle}
    {entry' : MemoryBlockHandle} (coherent : Coherent handles)
    (members : ∀ met, met ∈ other ↔ met ∈ handles)
    (left : Joins handles id entry) (right : Joins other id entry') :
    entry' = { entry with checksum := entry'.checksum } ∧
      (entry.state = .ready → entry'.checksum = entry.checksum) ∧
      (Settled handles → entry'.checksum = entry.checksum) := by
  have fixed := left.fixedPart_eq coherent members right
  have generation : entry.generation = entry'.generation := by
    have := congrArg MemoryBlockHandle.generation fixed
    exact this
  have lease : entry.leaseExpiresMs = entry'.leaseExpiresMs := by
    apply Nat.le_antisymm
    · obtain ⟨met, member, block, level, attained⟩ := left.attained
      rw [← attained]
      exact right.longest met ((members met).mpr member) block
        (level.trans generation)
    · obtain ⟨met, member, block, level, attained⟩ := right.attained
      rw [← attained]
      exact left.longest met ((members met).mp member) block
        (level.trans generation.symm)
  have ready : entry.state = .ready ↔ entry'.state = .ready := by
    rw [left.ready, right.ready, generation]
    constructor
    · intro found
      obtain ⟨met, member, found⟩ := found
      exact ⟨met, (members met).mpr member, found⟩
    · intro found
      obtain ⟨met, member, found⟩ := found
      exact ⟨met, (members met).mp member, found⟩
  have coherent' := coherent.of_subset fun met => (members met).mp
  have state : entry.state = entry'.state := by
    rcases left.states coherent with writing | readied
    · rcases right.states coherent' with writing' | readied'
      · rw [writing, writing']
      · rw [ready.mpr readied', readied']
    · rw [readied, ready.mp readied]
  obtain ⟨first, member, block, same⟩ := left.source
  obtain ⟨second, member', block', same'⟩ := right.source
  have level : second.generation = first.generation := by
    have first' := congrArg MemoryBlockHandle.generation same
    have second' := congrArg MemoryBlockHandle.generation same'
    exact second'.symm.trans (generation.symm.trans first')
  have firstState : entry.state = first.state := by rw [same]
  have secondState : entry'.state = second.state := by rw [same']
  have firstSum : entry.checksum = first.checksum := by rw [same]
  have secondSum : entry'.checksum = second.checksum := by rw [same']
  have readySum : entry.state = .ready →
      entry'.checksum = entry.checksum := by
    intro readied
    rw [firstSum, secondSum]
    exact coherent.checksums second ((members second).mp member') first member
      (block'.trans block.symm) level
      (secondState.symm.trans (ready.mp readied))
      (firstState.symm.trans readied)
  refine ⟨?_, readySum, ?_⟩
  · have rest := congrArg (fun handle : MemoryBlockHandle =>
      { handle with
        leaseExpiresMs := entry.leaseExpiresMs
        state := entry.state
        checksum := entry'.checksum }) fixed
    calc entry' = { fixedPart entry' with
            leaseExpiresMs := entry.leaseExpiresMs
            state := entry.state
            checksum := entry'.checksum } := by
          rw [lease, state]
          rfl
      _ = { fixedPart entry with
            leaseExpiresMs := entry.leaseExpiresMs
            state := entry.state
            checksum := entry'.checksum } := rest.symm
      _ = { entry with checksum := entry'.checksum } := rfl
  · intro settled
    rcases left.states coherent with writing | readied
    · rw [firstSum, secondSum]
      exact settled second ((members second).mp member') first member
        (block'.trans block.symm) level
        (secondState.symm.trans (state.symm.trans writing))
        (firstState.symm.trans writing)
    · exact readySum readied

end Joins

/-- Entries that agree up to the checksum of a block that is still written. -/
def Alike (entry entry' : MemoryBlockHandle) : Prop :=
  entry' = { entry with checksum := entry'.checksum } ∧
    (entry.state = .ready → entry'.checksum = entry.checksum)

/-- Coherent updates of an empty table commute: in every order each block has
the entry of its highest generation, ready if a handle of it is and with its
longest lease.  Only the checksum of a block that is still written can differ,
and only if its writing handles do. -/
theorem registrations_commute (handles : List MemoryBlockHandle)
    (coherent : Coherent handles) (id : Uuid) :
    Describes handles id ((registerAll handles).lookup id) ∧
      ∀ other, handles.Perm other →
        Option.Rel Alike ((registerAll handles).lookup id)
            ((registerAll other).lookup id) ∧
          (Settled handles → (registerAll other).lookup id =
            (registerAll handles).lookup id) := by
  have describes := foldl_register_describes coherent id
  refine ⟨describes, ?_⟩
  intro other permuted
  have members : ∀ met, met ∈ other ↔ met ∈ handles :=
    fun met => permuted.symm.mem_iff
  have describes' := foldl_register_describes
    (coherent.of_subset fun met => (members met).mp) id
  cases found : (registerAll handles).lookup id with
  | none =>
      rw [found] at describes
      cases found' : (registerAll other).lookup id with
      | none => exact ⟨.none, fun _ => rfl⟩
      | some entry' =>
          rw [found'] at describes'
          obtain ⟨met, member, block, _⟩ := describes'.source
          exact absurd block (describes met ((members met).mp member))
  | some entry =>
      rw [found] at describes
      cases found' : (registerAll other).lookup id with
      | none =>
          rw [found'] at describes'
          obtain ⟨met, member, block, _⟩ := describes.source
          exact absurd block (describes' met ((members met).mpr member))
      | some entry' =>
          rw [found'] at describes'
          obtain ⟨same, ready, settled⟩ :=
            Joins.unique coherent members describes describes'
          refine ⟨.some ⟨same, ready⟩, ?_⟩
          intro agree
          rw [same, settled agree]

theorem registrations_commute_abc :
    (registerAll [abcReady, abcHandle]).lookup 7 =
      (registerAll [abcHandle, abcReady]).lookup 7 := by
  have coherent : Coherent [abcHandle, abcReady] := by
    refine ⟨?_, ?_, ?_, ?_⟩ <;> decide
  have settled : Settled [abcHandle, abcReady] := by
    unfold Settled
    decide
  exact ((registrations_commute [abcHandle, abcReady] coherent 7).2
    [abcReady, abcHandle] (List.Perm.swap _ _ _)).2 settled

/-- Handles that are still written can differ in their checksum; the last one
wins. -/
theorem writing_checksums_differ :
    Coherent [abcHandle, { abcHandle with checksum := some "" }] ∧
      (registerAll [abcHandle, { abcHandle with checksum := some "" }]).lookup
          7 ≠
        (registerAll [{ abcHandle with checksum := some "" },
          abcHandle]).lookup 7 := by
  constructor
  · refine ⟨?_, ?_, ?_, ?_⟩ <;> decide
  · decide

end ResidencyTable

end TrainPool
