import TrainPool.Cluster.Leader

namespace TrainPool

namespace ResidencyTable

variable {table : ResidencyTable} {handle : MemoryBlockHandle}
  {previous : Nat}

/-! The `Register` with which a migration publishes its copy. -/

/-- The answer to a `Register` and the table it leaves; a failed request
leaves the table as it was. -/
def commit (handle : MemoryBlockHandle) (previous : Nat)
    (table : ResidencyTable) : ResidencyTable × Result Unit :=
  match table.registerRequest handle (some previous) with
  | .ok registered => (registered, .ok ())
  | .error fault => (table, .error fault)

/-- All or nothing: an answered commit is the entry of its block from then on,
and a refused one has changed nothing. -/
def Atomic (handle : MemoryBlockHandle) (previous : Nat)
    (table : ResidencyTable) : Prop :=
  ((table.commit handle previous).2 = .ok () →
    (table.commit handle previous).1.lookup handle.id = some handle ∧
      handle.generation = previous + 1 ∧ handle.state = .ready) ∧
  ∀ fault, (table.commit handle previous).2 = .error fault →
    (table.commit handle previous).1 = table

structure Commits (handle : MemoryBlockHandle) (previous : Nat)
    (old : MemoryBlockHandle) : Prop where
  generation : old.generation = previous
  token : old.leaseToken = handle.leaseToken
  next : handle.generation = (previous + 1) % 2 ^ 64
  ready : handle.state = .ready

/-- What the guards let the commit replace was not freed, and its generation
is not the last one that there is. -/
def Replaceable (handle : MemoryBlockHandle) (previous : Nat)
    (table : ResidencyTable) : Prop :=
  ∀ old, table.lookup handle.id = some old →
    Commits handle previous old →
      old.leaseExpiresMs ≠ 0 ∧ previous + 1 < 2 ^ 64

theorem registerRequest_ok {after : ResidencyTable} :
    table.registerRequest handle (some previous) = .ok after ↔
      (∃ old, table.lookup handle.id = some old ∧
        Commits handle previous old) ∧ table.register handle = after := by
  simp only [registerRequest, Option.elim_some, bind_assoc, ensure_bind_ok,
    pure_ok, Option.any_eq_true, decide_eq_true_eq]
  constructor
  · intro passed
    obtain ⟨⟨old, found, generation, token⟩, ⟨next, ready⟩, same⟩ := passed
    exact ⟨⟨old, found, generation, token, next, ready⟩, same⟩
  · intro passed
    obtain ⟨⟨old, found, generation, token, next, ready⟩, same⟩ := passed
    exact ⟨⟨old, found, generation, token⟩, ⟨next, ready⟩, same⟩

/-- A commit of the next generation replaces what it meets, unless that was
freed. -/
theorem lookup_commit {old : MemoryBlockHandle}
    (found : table.lookup handle.id = some old)
    (commits : Commits handle previous old)
    (bounded : previous + 1 < 2 ^ 64) :
    (table.register handle).lookup handle.id =
      some (if old.leaseExpiresMs = 0 then old else handle) := by
  have later : old.generation < handle.generation := by
    rw [commits.generation, commits.next, Nat.mod_eq_of_lt bounded]
    exact Nat.lt_succ_self previous
  obtain ⟨merged, merges, stored⟩ := lookup_register found
  rw [stored]
  cases merges with
  | freed freed => rw [if_pos freed]
  | stale _ stale => omega
  | kept _ same _ _ _ => omega
  | renewed _ same _ _ => omega
  | buried _ same _ => omega
  | newer alive _ => rw [if_neg alive]

/-- A commit is all or nothing exactly when what it may replace was not freed
and has a generation after its own. -/
theorem commit_atomic_iff (table : ResidencyTable)
    (handle : MemoryBlockHandle) (previous : Nat) :
    table.Atomic handle previous ↔ table.Replaceable handle previous := by
  unfold Atomic commit
  cases answered : table.registerRequest handle (some previous) with
  | error fault =>
      constructor
      · intro _ old found commits
        have passed := registerRequest_ok.mpr ⟨⟨old, found, commits⟩, rfl⟩
        cases passed.symm.trans answered
      · exact fun _ => ⟨nofun, fun _ _ => rfl⟩
  | ok after =>
      obtain ⟨⟨old, found, commits⟩, rfl⟩ := registerRequest_ok.mp answered
      constructor
      · intro atomic other found' _
        cases found.symm.trans found'
        obtain ⟨kept, next, _⟩ := atomic.1 rfl
        -- The successor of the last generation is zero.
        have bounded : previous + 1 < 2 ^ 64 := by
          rw [← next, commits.next]
          exact Nat.mod_lt _ (Nat.two_pow_pos 64)
        refine ⟨?_, bounded⟩
        intro freed
        rw [lookup_commit found commits bounded, if_pos freed] at kept
        have same := congrArg MemoryBlockHandle.generation
          (Option.some.inj kept)
        rw [commits.generation, next] at same
        omega
      · intro replaceable
        obtain ⟨alive, bounded⟩ := replaceable old found commits
        have stored := lookup_commit found commits bounded
        rw [if_neg alive] at stored
        have next : handle.generation = previous + 1 :=
          commits.next.trans (Nat.mod_eq_of_lt bounded)
        exact ⟨fun _ => ⟨stored, next, commits.ready⟩, nofun⟩

/-- A block is registered and freed, and the migration that read it before the
free is told that its copy is published.  So is one whose generation is the
successor of the last, which the table takes for an old one. -/
theorem freed_block_published :
    (let freed := ((∅ : ResidencyTable).register abcReady).register
        { abcReady with leaseExpiresMs := 0 }
      let copy := { abcReady with generation := 1, ownerNode := 3 }
      ((freed.commit copy 0).2 = .ok () ∧
        (freed.commit copy 0).1.lookup 7 =
          some { abcReady with leaseExpiresMs := 0 }) ∧
        ¬freed.Atomic copy 0) ∧
    let last := { abcReady with generation := 2 ^ 64 - 1 }
    let table := (∅ : ResidencyTable).register last
    let copy := { abcReady with generation := 0, ownerNode := 3 }
    ((table.commit copy (2 ^ 64 - 1)).2 = .ok () ∧
      (table.commit copy (2 ^ 64 - 1)).1.lookup 7 = some last) ∧
      ¬table.Atomic copy (2 ^ 64 - 1) := by
  refine ⟨⟨by decide, ?_⟩, by decide, ?_⟩
  · intro atomic
    have published := (atomic.1 (by decide)).1
    revert published
    decide
  · intro atomic
    have published := (atomic.1 (by decide)).1
    revert published
    decide

end ResidencyTable

end TrainPool
