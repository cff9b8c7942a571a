import TrainPool.Cluster.Restart

namespace TrainPool

open Execution

namespace ResidencyTable

variable {table : ResidencyTable} {id node incarnation : Uuid}

def Buried (id node incarnation : Uuid) (table : ResidencyTable) : Prop :=
  ∀ handle, table.lookup id = some handle →
    handle.ownerNode = node → handle.ownerIncarnation = incarnation →
    handle.state = .lost

/-- The entry a handle meets is a tombstone or of a later generation, unless
the handle itself says that the block is lost. -/
def Outdated (table : ResidencyTable) (handle : MemoryBlockHandle) : Prop :=
  handle.state = .lost ∨
    (table.lookup handle.id).any (fun old =>
      old.leaseExpiresMs = 0 ∨ handle.generation < old.generation) = true

instance (table : ResidencyTable) (handle : MemoryBlockHandle) :
    Decidable (table.Outdated handle) :=
  inferInstanceAs (Decidable (_ ∨ _))

/-- A registration leaves the state lost exactly when the handle it brings is
not outdated. -/
theorem register_lost_iff {handle old : MemoryBlockHandle}
    (found : table.lookup handle.id = some old)
    (lost : old.state = .lost) :
    ((table.register handle).lookup handle.id).all
        (·.state = .lost) = true ↔ table.Outdated handle := by
  obtain ⟨merged, merges, after⟩ := lookup_register found
  simp only [after, found, Outdated, Option.all_some, Option.any_some,
    decide_eq_true_eq]
  cases merges with
  | freed freed => simp [lost, freed]
  | stale alive stale => simp [lost, stale]
  | kept _ _ _ ready _ => simp [lost] at ready
  | renewed alive same leased _ => simp [alive, same]
  | buried alive same _ => simp [alive, same]
  | newer alive newer =>
      simp only [alive, Nat.not_lt_of_lt newer, or_false]

theorem register_buried {handle : MemoryBlockHandle}
    (buried : table.Buried id node incarnation)
    (outdated : handle.id = id → handle.ownerNode = node →
      handle.ownerIncarnation = incarnation → table.Outdated handle) :
    (table.register handle).Buried id node incarnation := by
  intro entry found owned same
  by_cases met : id = handle.id
  · subst met
    cases before : table.lookup handle.id with
    | none =>
        cases (lookup_register_new before).symm.trans found
        rcases outdated rfl owned same with lost | late
        · exact lost
        · simp [before] at late
    | some old =>
        obtain ⟨merged, merges, after⟩ :=
          lookup_register before
        cases after.symm.trans found
        -- An outdated handle that is not lost itself replaces nothing.
        have late (owned : handle.ownerNode = node)
            (same : handle.ownerIncarnation = incarnation) :
            handle.state = .lost ∨ old.leaseExpiresMs = 0 ∨
              handle.generation < old.generation := by
          simpa [Outdated, before] using outdated rfl owned same
        cases merges with
        | freed _ => exact buried _ before owned same
        | stale _ _ => exact buried _ before owned same
        | kept _ _ _ _ _ => exact buried old before owned same
        | renewed alive level _ _ =>
            rcases late owned same with lost | freed | stale
            · exact lost
            · exact absurd freed alive
            · omega
        | buried alive level _ =>
            rcases late owned same with lost | freed | stale
            · exact lost
            · exact absurd freed alive
            · omega
        | newer alive newer =>
            rcases late owned same with lost | freed | stale
            · exact lost
            · exact absurd freed alive
            · omega
  · refine buried entry ?_ owned same
    rw [← lookup_register_ne met]
    exact found

theorem register_persists {handle : MemoryBlockHandle}
    (present : table.lookup id ≠ none) :
    (table.register handle).lookup id ≠ none := by
  by_cases met : id = handle.id
  · subst met
    obtain ⟨old, before⟩ := Option.ne_none_iff_exists'.mp present
    obtain ⟨merged, _, after⟩ := lookup_register before
    simp [after]
  · rw [lookup_register_ne met]
    exact present

end ResidencyTable

namespace Leader

variable {leader next : Leader} {id node incarnation : Uuid}

def arriving (leader : Leader) : LeaderEvent → Option MemoryBlockHandle
  | .inventory => leader.accepting.bind (·.inventory.head?)
  | .register position => leader.registering[position]?.map Prod.fst
  | _ => none

/-- A handle of the block that is of the dead incarnation reaches the table
only when it is outdated. -/
def Harmless (id node incarnation : Uuid) (leader : Leader)
    (event : LeaderEvent) : Prop :=
  ∀ handle ∈ leader.arriving event, handle.id = id →
    handle.ownerNode = node → handle.ownerIncarnation = incarnation →
    leader.residency.Outdated handle

instance (leader : Leader) (event : LeaderEvent) :
    Decidable (leader.Harmless id node incarnation event) :=
  inferInstanceAs (Decidable (∀ handle ∈ (_ : Option _), _))

inductive Change (leader : Leader) (event : LeaderEvent) :
    ResidencyTable → Prop
  | same : Change leader event leader.residency
  | register (handle : MemoryBlockHandle)
      (arrives : handle ∈ leader.arriving event) :
      Change leader event (leader.residency.register handle)
  | lose (ids : List Uuid) (error : Uuid → String) :
      Change leader event (ids.foldl
        (fun leader id => leader.lose id (error id)) leader).residency

theorem step_change {event : LeaderEvent}
    (stepped : leader.step event = some next) :
    Change leader event next.residency := by
  cases event with
  | exchange peer inventory =>
      simp only [step] at stepped
      split at stepped
      · cases stepped
      · cases stepped
        unfold acceptPeer
        split
        · exact .same
        · dsimp only
          split
          · exact .lose [peer.nodeId] fun id =>
              s!"TRAINPOOL_DATA_LOST: node {id} restarted"
          · exact .same
  | inventory =>
      simp only [step] at stepped
      split at stepped
      · rename_i peer handle rest before accepted
        cases stepped
        unfold acceptNext
        split
        · exact .register handle (by simp [arriving, accepted])
        · exact .same
      · cases stepped
  | update now epoch =>
      simp only [step] at stepped
      split at stepped
      · cases stepped
        exact .same
      · cases stepped
  | refresh now capabilities =>
      simp only [step] at stepped
      split at stepped
      · cases stepped
      · cases stepped
        exact .same
  | expire now epoch =>
      simp only [step] at stepped
      split at stepped
      · cases stepped
      · cases stepped
        exact .lose _ fun id =>
          s!"TRAINPOOL_DATA_LOST: data stored exclusively on node {id}"
  | request handle previous leadership =>
      simp only [step] at stepped
      split at stepped
      · cases stepped
      · split at stepped
        · cases stepped
          exact .same
        · cases stepped
          exact .same
  | register position =>
      simp only [step] at stepped
      obtain ⟨⟨handle, previous⟩, pending, stepped⟩ :=
        Option.bind_eq_some_iff.mp stepped
      split at stepped
      · rename_i registered
        obtain ⟨_, _, registered⟩ := bind_ok.mp registered
        cases registered
        cases stepped
        exact .register handle (by simp [arriving, pending])
      · cases stepped
        exact .same
  | lookup now id token =>
      simp only [step] at stepped
      split at stepped
      · cases stepped
        exact .same
      · cases stepped
        exact .same
  | answer position =>
      simp only [step] at stepped
      split at stepped
      · cases stepped
      · obtain ⟨_, _, stepped⟩ := Option.bind_eq_some_iff.mp stepped
        cases stepped
        exact .same

theorem Change.buried {event : LeaderEvent} {table : ResidencyTable}
    (change : Change leader event table)
    (buried : leader.residency.Buried id node incarnation)
    (harmless : leader.Harmless id node incarnation event) :
    table.Buried id node incarnation := by
  cases change with
  | same => exact buried
  | register handle arrives =>
      exact ResidencyTable.register_buried buried (harmless handle arrives)
  | lose ids error =>
      intro handle found owned same
      rcases foldl_lose_entry found with ⟨lost, _⟩ | ⟨_, before⟩
      · exact lost
      · exact buried handle before owned same

theorem Change.persists {event : LeaderEvent} {table : ResidencyTable}
    (change : Change leader event table)
    (present : leader.residency.lookup id ≠ none) :
    table.lookup id ≠ none := by
  cases change with
  | same => exact present
  | register handle arrives => exact ResidencyTable.register_persists present
  | lose ids error =>
      induction ids generalizing leader with
      | nil => exact present
      | cons first rest ih =>
          apply ih
          simpa [Leader.lose, ResidencyTable.lookup_loseNode] using present

theorem run_buried {final : Leader} {events : List LeaderEvent}
    (buried : leader.residency.Buried id node incarnation)
    (along : Along step (Harmless id node incarnation) leader events)
    (ran : run step leader events = some final) :
    final.residency.Buried id node incarnation :=
  run_invariant_along
    (fun leader => leader.residency.Buried id node incarnation)
    (fun _ _ _ buried harmless stepped =>
      (step_change stepped).buried buried harmless) buried along ran

theorem run_persists {final : Leader} {events : List LeaderEvent}
    (present : leader.residency.lookup id ≠ none)
    (ran : run step leader events = some final) :
    final.residency.lookup id ≠ none :=
  run_invariant (fun leader => leader.residency.lookup id ≠ none)
    (fun _ _ _ present stepped => (step_change stepped).persists present)
    present ran

theorem restart_buries {peer : NodeCapabilities}
    {inventory : List MemoryBlockHandle} {observed : Leader}
    (recorded : leader.membership.incarnation peer.nodeId = some incarnation)
    (changed : peer.incarnation ≠ incarnation)
    (admitted : leader.admitPeer peer inventory = .ok ())
    (accepted : leader.step (.exchange peer inventory) = some observed) :
    observed.residency.Buried id peer.nodeId incarnation := by
  have restarted : leader.restarted peer = true := by
    simp [Leader.restarted, recorded, Ne.symm changed]
  simp only [step] at accepted
  split at accepted
  · cases accepted
  · cases accepted
    intro handle found owned _
    simp only [acceptPeer, admitted, restarted, if_true] at found
    rcases lose_entry found with ⟨_, lost, _⟩ | ⟨foreign, _⟩
    · exact lost
    · exact absurd owned foreign

/-- A block of a dead incarnation stays lost in every run in which its late
handles are outdated: its entry is there, and as long as no other incarnation
has taken the block over, `Resolve` says that its data are lost. -/
theorem dead_incarnation_stays_lost {peer : NodeCapabilities}
    {inventory : List MemoryBlockHandle} {observed final : Leader}
    {events : List LeaderEvent}
    (recorded : leader.membership.incarnation peer.nodeId = some incarnation)
    (changed : peer.incarnation ≠ incarnation)
    (admitted : leader.admitPeer peer inventory = .ok ())
    (accepted : leader.step (.exchange peer inventory) = some observed)
    (along : Along step (Harmless id peer.nodeId incarnation) observed events)
    (ran : run step observed events = some final) {entry : MemoryBlockHandle}
    (stored : observed.residency.lookup id = some entry) :
    ∃ later, final.residency.lookup id = some later ∧
      (later.ownerNode = peer.nodeId →
        later.ownerIncarnation = incarnation →
        later.state = .lost ∧
          ∀ now, final.residency.resolve now id later.leaseToken =
            .error (.error (s!"TRAINPOOL_DATA_LOST: block {id} " ++
              s!"was stored exclusively on node {peer.nodeId}"))) := by
  have buried := run_buried
    (restart_buries recorded changed admitted accepted) along ran
  have present : final.residency.lookup id ≠ none :=
    run_persists (by simp [stored]) ran
  obtain ⟨later, found⟩ := Option.ne_none_iff_exists'.mp present
  refine ⟨later, found, ?_⟩
  intro owned same
  have lost := buried later found owned same
  refine ⟨lost, ?_⟩
  intro now
  simp [ResidencyTable.resolve, found, ensure, lost, owned, bind,
    Except.bind]

/-- A registration of an earlier generation that the old owner sent. -/
def sampleRegister (handle : MemoryBlockHandle) : List LeaderEvent :=
  [.request handle none ⟨some 1, 6, 99⟩, .register 0]

theorem dead_incarnation_stays_lost_abc :
    ∃ leader observed final, run step (fresh 0 (sampleNode 1 10) sampleJobs)
        [.exchange (sampleNode 2 20) [{ abcReady with generation := 1 }],
          .inventory, .update 1 0] = some leader ∧
      leader.step (.exchange (sampleNode 2 21) []) = some observed ∧
      run step observed (.update 2 0 :: sampleRegister abcReady) =
        some final ∧
      ∃ later, final.residency.lookup 7 = some later ∧
        (later.ownerNode = 2 → later.ownerIncarnation = 20 →
          later.state = .lost ∧
            ∀ now, final.residency.resolve now 7 later.leaseToken =
              .error (.error (s!"TRAINPOOL_DATA_LOST: block {7} " ++
                s!"was stored exclusively on node {2}"))) := by
  obtain ⟨leader, reached, recorded, admitted⟩ : ∃ leader,
      run step (fresh 0 (sampleNode 1 10) sampleJobs)
        [.exchange (sampleNode 2 20) [{ abcReady with generation := 1 }],
          .inventory, .update 1 0] = some leader ∧
        leader.membership.incarnation (sampleNode 2 21).nodeId = some 20 ∧
        leader.admitPeer (sampleNode 2 21) [] = .ok () :=
    ⟨_, rfl, by decide, by decide⟩
  obtain ⟨observed, accepted, along, stored⟩ : ∃ observed,
      leader.step (.exchange (sampleNode 2 21) []) = some observed ∧
        Along step (Harmless 7 2 20) observed
          (.update 2 0 :: sampleRegister abcReady) ∧
        observed.residency.lookup 7 =
          some { abcReady with generation := 1, state := .lost } := by
    cases reached
    exact ⟨_, rfl, by decide +kernel, by decide⟩
  obtain ⟨final, ran⟩ : ∃ final, run step observed
      (.update 2 0 :: sampleRegister abcReady) = some final := by
    cases reached
    cases accepted
    exact ⟨_, rfl⟩
  exact ⟨leader, observed, final, reached, accepted, ran,
    dead_incarnation_stays_lost recorded (by decide) admitted accepted along
      ran stored⟩

/-- A renewal that the old owner sent before its restart, and that arrives
after the restart was noticed, makes the lost block ready again. -/
theorem late_renewal_resurrects :
    ∃ observed final, run step (fresh 0 (sampleNode 1 10) sampleJobs)
        [.exchange (sampleNode 2 20) [abcReady], .inventory, .update 1 0,
          .exchange (sampleNode 2 21) [], .update 2 0] = some observed ∧
      run step observed (sampleRegister
        { abcReady with leaseExpiresMs := 400000 }) = some final ∧
      observed.membership.incarnation 2 = some 21 ∧
      observed.residency.lookup 7 = some { abcReady with state := .lost } ∧
      final.residency.resolve 5 7 5 =
        .ok { abcReady with leaseExpiresMs := 400000 } ∧
      final.answer { abcReady with leaseExpiresMs := 400000 } =
        .ok { abcReady with leaseExpiresMs := 400000 } :=
  ⟨_, _, rfl, rfl, by decide, by decide, by decide, by decide⟩

end Leader

end TrainPool
