import TrainPool.Cluster.Leader

namespace TrainPool

open Execution

namespace Jobs

theorem Failed.fail {id other : Uuid} {error : String} {jobs : Jobs}
    (failed : jobs.Failed id) : (jobs.fail other error).Failed id := by
  intro job found
  rw [Jobs.fail, Table.lookup_mapValues] at found
  obtain ⟨before, present, rfl⟩ := Option.map_eq_some_iff.mp found
  split
  · simp
  · exact failed before present

theorem fail_failed (id : Uuid) (error : String) (jobs : Jobs) :
    (jobs.fail id error).Failed id := by
  intro job found
  rw [Jobs.fail, Table.lookup_mapValues] at found
  obtain ⟨before, present, rfl⟩ := Option.map_eq_some_iff.mp found
  simp

theorem Failed.loseCompute {id node : Uuid} {jobs : Jobs}
    (failed : jobs.Failed id) : (jobs.loseCompute node).Failed id := by
  intro job found
  rw [Jobs.loseCompute, Table.lookup_mapValues] at found
  obtain ⟨before, present, rfl⟩ := Option.map_eq_some_iff.mp found
  split
  · simp
  · exact failed before present

theorem Failed.foldl_fail {id : Uuid} {error : String} {ids : List Uuid}
    {jobs : Jobs} (failed : jobs.Failed id) :
    (ids.foldl (fun jobs job => jobs.fail job error) jobs).Failed id := by
  induction ids generalizing jobs with
  | nil => exact failed
  | cons first rest ih =>
      apply ih
      exact failed.fail

theorem foldl_fail_failed {id : Uuid} {error : String} {ids : List Uuid}
    {jobs : Jobs} (listed : id ∈ ids) :
    (ids.foldl (fun jobs job => jobs.fail job error) jobs).Failed id := by
  induction ids generalizing jobs with
  | nil => cases listed
  | cons first rest ih =>
      rcases List.mem_cons.mp listed with same | later
      · subst same
        rw [List.foldl_cons]
        exact (fail_failed id error jobs).foldl_fail
      · exact ih later

end Jobs

namespace Leader

section Losses

variable {leader : Leader} {node id : Uuid} {handle : MemoryBlockHandle}

theorem lose_failed {error : String} {job : Uuid}
    (failed : leader.jobs.Failed job) :
    (leader.lose node error).jobs.Failed job := by
  apply Jobs.Failed.foldl_fail
  exact failed.loseCompute

/-- An entry after the loss of a node is an entry of that node, which is lost
and whose job has failed, or an entry from before. -/
theorem lose_entry {error : String}
    (found : (leader.lose node error).residency.lookup id = some handle) :
    (handle.ownerNode = node ∧ handle.state = .lost ∧
        (leader.lose node error).jobs.Failed handle.jobId) ∨
      (handle.ownerNode ≠ node ∧
        leader.residency.lookup id = some handle) := by
  have marked := found
  rw [lose, ResidencyTable.lookup_loseNode] at marked
  obtain ⟨before, present, same⟩ := Option.map_eq_some_iff.mp marked
  split at same
  · rename_i owned
    subst same
    refine .inl ⟨owned, rfl, ?_⟩
    apply Jobs.foldl_fail_failed
    have listed := ResidencyTable.mem_loseNode present owned
    exact listed
  · rename_i foreign
    subst same
    exact .inr ⟨foreign, present⟩

variable (error : Uuid → String) (ids : List Uuid)

theorem foldl_lose_frame (leader : Leader) :
    let lost := ids.foldl (fun leader id => leader.lose id (error id)) leader
    lost.membership = leader.membership ∧
      lost.accepting = leader.accepting ∧
      lost.resolving = leader.resolving := by
  induction ids generalizing leader with
  | nil => exact ⟨rfl, rfl, rfl⟩
  | cons first rest ih =>
      exact ih (leader.lose first (error first))

variable {error} {ids}

theorem foldl_lose_failed {job : Uuid} (failed : leader.jobs.Failed job) :
    (ids.foldl (fun leader id => leader.lose id (error id))
      leader).jobs.Failed job := by
  induction ids generalizing leader with
  | nil => exact failed
  | cons first rest ih =>
      apply ih
      exact lose_failed failed

theorem foldl_lose_entry
    (found : (ids.foldl (fun leader id => leader.lose id (error id))
      leader).residency.lookup id = some handle) :
    (handle.state = .lost ∧
        (ids.foldl (fun leader id => leader.lose id (error id))
          leader).jobs.Failed handle.jobId) ∨
      (handle.ownerNode ∉ ids ∧
        leader.residency.lookup id = some handle) := by
  induction ids generalizing leader with
  | nil => exact .inr ⟨List.not_mem_nil, found⟩
  | cons first rest ih =>
      rcases ih found with lost | ⟨foreign, before⟩
      · exact .inl lost
      · rcases lose_entry before with ⟨_, lost, failed⟩ | ⟨other, before⟩
        · rw [List.foldl_cons]
          exact .inl ⟨lost, foldl_lose_failed failed⟩
        · refine .inr ⟨?_, before⟩
          intro listed
          rcases List.mem_cons.mp listed with same | later
          · exact other same
          · exact foreign later

end Losses

/-- The incarnation of a node that the leader goes by: the one recorded, or
the one an exchange under way is about to record. -/
def expected (node : Uuid) (leader : Leader) : Option Uuid :=
  match leader.accepting with
  | some exchange =>
      if node = exchange.node.nodeId then some exchange.node.incarnation
      else leader.membership.incarnation node
  | none => leader.membership.incarnation node

/-- An entry is of an incarnation the leader goes by, or it is lost and its
job has failed. -/
def Settled (leader : Leader) (handle : MemoryBlockHandle) : Prop :=
  leader.expected handle.ownerNode = some handle.ownerIncarnation ∨
    handle.state = .lost ∧ leader.jobs.Failed handle.jobId

structure Noticed (leader : Leader) : Prop where
  entries : ∀ id handle, leader.residency.lookup id = some handle →
    leader.Settled handle
  resolving : ∀ handle ∈ leader.resolving,
    leader.expected handle.ownerNode = none ∨
      leader.expected handle.ownerNode = some handle.ownerIncarnation
  inventory : ∀ exchange, leader.accepting = some exchange →
    ∀ handle ∈ exchange.inventory,
      handle.ownerNode = exchange.node.nodeId ∧
        handle.ownerIncarnation = exchange.node.incarnation

/-- No `Resolve` is between its two reads with a handle of another incarnation
of the node. -/
def Undisturbed (leader : Leader) (node : NodeCapabilities) : Prop :=
  ∀ handle ∈ leader.resolving, handle.ownerNode = node.nodeId →
    handle.ownerIncarnation = node.incarnation

/-- What a step has to meet for restarts to be noticed: only an exchange
brings a new incarnation of a node, not the refresh of its capabilities, no
`Resolve` is overtaken by it, and the handles that enter the table are of the
incarnation that their owner is known by. -/
def Accords (leader : Leader) : LeaderEvent → Prop
  | .exchange node inventory =>
      (∀ handle ∈ inventory, handle.ownerNode = node.nodeId ∧
        handle.ownerIncarnation = node.incarnation) ∧
        leader.Undisturbed node
  | .refresh _ capabilities =>
      (leader.membership.incarnation capabilities.nodeId = none ∨
        leader.membership.incarnation capabilities.nodeId =
          some capabilities.incarnation) ∧
        leader.Undisturbed capabilities
  | .register position =>
      match leader.registering[position]? with
      | some ⟨handle, _⟩ =>
          leader.expected handle.ownerNode = some handle.ownerIncarnation
      | none => True
  | _ => True

instance (leader : Leader) (node : NodeCapabilities) :
    Decidable (leader.Undisturbed node) :=
  inferInstanceAs (Decidable (∀ handle ∈ leader.resolving, _))

instance (leader : Leader) (event : LeaderEvent) :
    Decidable (leader.Accords event) :=
  match event with
  | .exchange _ _ => inferInstanceAs (Decidable (_ ∧ _))
  | .refresh _ _ => inferInstanceAs (Decidable (_ ∧ _))
  | .register position =>
      match found : leader.registering[position]? with
      | some ⟨handle, previous⟩ => decidable_of_iff
          (leader.expected handle.ownerNode = some handle.ownerIncarnation)
          (by simp [Accords, found])
      | none => isTrue (by simp [Accords, found])
  | .inventory | .update _ _ | .expire _ _ | .request _ _ _
  | .lookup _ _ _ | .answer _ => isTrue trivial

theorem fresh_noticed (now : Nat) (node : NodeCapabilities) (jobs : Jobs) :
    (fresh now node jobs).Noticed where
  entries := by simp [fresh]
  resolving := by simp [fresh]
  inventory := by simp [fresh]

/-! A peer that holds a committed block, and the job of that block. -/

def sampleNode (nodeId incarnation : Uuid) : NodeCapabilities where
  nodeId := nodeId
  incarnation := incarnation
  leaderGeneration := 6
  physicalRamTotal := 100 - nodeId
  vramTotals := []
  controlAddress := nodeId
  chunkBytes := 4096

def sampleJobs : Jobs := (∅ : Jobs).insert 3 ⟨[], 6, none⟩

section Steps

variable {leader next : Leader}

theorem Settled.of_eq {handle other : MemoryBlockHandle}
    (settled : leader.Settled handle)
    (goes : next.expected handle.ownerNode =
      leader.expected handle.ownerNode)
    (failed : leader.jobs.Failed handle.jobId →
      next.jobs.Failed handle.jobId)
    (same : other =
      { handle with leaseExpiresMs := other.leaseExpiresMs }) :
    next.Settled other := by
  rw [same]
  rcases settled with current | ⟨lost, gone⟩
  · exact .inl (goes.trans current)
  · exact .inr ⟨lost, failed gone⟩

theorem register_settled {handle : MemoryBlockHandle}
    (settled : ∀ id entry, leader.residency.lookup id = some entry →
      leader.Settled entry)
    (current : leader.expected handle.ownerNode =
      some handle.ownerIncarnation) {id : Uuid} {entry : MemoryBlockHandle}
    (found : (leader.residency.register handle).lookup id = some entry) :
    leader.Settled entry := by
  rcases ResidencyTable.register_cases found with
    ⟨_, same⟩ | ⟨old, before, same⟩
  · rw [same]
    exact .inl current
  · exact (settled id old before).of_eq rfl (fun failed => failed) same

theorem acceptPeer_noticed {node : NodeCapabilities}
    {inventory : List MemoryBlockHandle} (noticed : leader.Noticed)
    (free : leader.accepting = none)
    (owned : ∀ handle ∈ inventory, handle.ownerNode = node.nodeId ∧
      handle.ownerIncarnation = node.incarnation)
    (undisturbed : leader.Undisturbed node) :
    (leader.acceptPeer node inventory).Noticed := by
  have recorded : ∀ other, leader.expected other =
      leader.membership.incarnation other := by
    intro other
    simp [expected, free]
  unfold acceptPeer
  split
  · exact noticed
  · refine ⟨?_, ?_, ?_⟩
    · intro id handle found
      by_cases restart : leader.restarted node = true
      · -- The recorded incarnation differs: the node is lost first.
        simp only [restart, if_true] at found ⊢
        rcases lose_entry found with ⟨_, lost⟩ | ⟨foreign, before⟩
        · exact .inr lost
        · refine (noticed.entries id handle before).of_eq ?_ lose_failed rfl
          rw [recorded]
          simp [expected, foreign, lose]
      · simp only [restart] at found ⊢
        have settled := noticed.entries id handle found
        by_cases same : handle.ownerNode = node.nodeId
        · rcases settled with current | lost
          · refine .inl ?_
            rw [recorded, same] at current
            simp only [restarted, current, Option.any_some,
              decide_eq_true_eq, not_not] at restart
            simp [expected, same, restart]
          · exact .inr lost
        · refine settled.of_eq ?_ (fun failed => failed) rfl
          rw [recorded]
          simp [expected, same]
    · intro handle waiting
      have waited : handle ∈ leader.resolving := by
        by_cases restart : leader.restarted node = true
        · simpa [restart, lose] using waiting
        · simpa [restart] using waiting
      by_cases same : handle.ownerNode = node.nodeId
      · refine .inr ?_
        simp [expected, same, undisturbed handle waited same]
      · have before := noticed.resolving handle waited
        rw [recorded] at before
        by_cases restart : leader.restarted node = true
        · simpa [expected, same, restart, lose] using before
        · simpa [expected, same, restart] using before
    · intro exchange accepted
      cases accepted
      exact owned

theorem acceptNext_noticed {exchange : Exchange}
    {handle : MemoryBlockHandle} {rest : List MemoryBlockHandle}
    (noticed : leader.Noticed) (accepted : leader.accepting = some exchange)
    (listed : exchange.inventory = handle :: rest) :
    (leader.acceptNext exchange handle rest).Noticed := by
  have owned := noticed.inventory exchange accepted
  rw [listed] at owned
  have own := owned handle List.mem_cons_self
  have goes : ∀ other, (leader.acceptNext exchange handle rest).expected
      other = leader.expected other := by
    intro other
    simp [acceptNext, own, expected, accepted]
  refine ⟨?_, ?_, ?_⟩
  · intro id entry found
    simp only [acceptNext, own, and_self, if_true] at found
    have current : leader.expected handle.ownerNode =
        some handle.ownerIncarnation := by
      simp [expected, accepted, own]
    refine (register_settled noticed.entries current found).of_eq
      (goes _) ?_ rfl
    simp [acceptNext, own]
  · intro other waiting
    rw [goes]
    refine noticed.resolving other ?_
    simpa [acceptNext, own] using waiting
  · intro later accepting
    simp only [acceptNext, own, and_self, if_true, Option.some.injEq]
      at accepting
    subst accepting
    intro other waiting
    exact owned other (List.mem_cons_of_mem _ waiting)

theorem expire_noticed {now : Nat} {epoch : Uuid} (noticed : leader.Noticed)
    (free : leader.accepting = none) :
    (leader.expire now epoch).Noticed := by
  obtain ⟨_, accepting, resolving⟩ := foldl_lose_frame
    (fun id =>
      s!"TRAINPOOL_DATA_LOST: data stored exclusively on node {id}")
    (leader.membership.dead now) leader
  have goes : ∀ other, (leader.expire now epoch).expected other =
      if other ∈ leader.membership.dead now then none
      else leader.expected other := by
    intro other
    simp only [expected, expire, Membership.expire, accepting, free,
      Membership.incarnation_rotateLeader]
    exact Membership.incarnation_expire now leader.membership other
  refine ⟨?_, ?_, ?_⟩
  · intro id handle found
    rcases foldl_lose_entry found with lost | ⟨alive, before⟩
    · exact .inr lost
    · refine (noticed.entries id handle before).of_eq ?_ foldl_lose_failed
        rfl
      rw [goes]
      exact if_neg alive
  · intro handle waiting
    rw [goes]
    split
    · exact .inl rfl
    · refine noticed.resolving handle ?_
      rw [← resolving]
      exact waiting
  · intro exchange accepted
    have none := accepting.trans free
    exact absurd (none.symm.trans accepted) (by simp)

theorem update_noticed {node : NodeCapabilities} {now : Nat}
    {before : Leadership} {epoch : Uuid} (noticed : leader.Noticed)
    (accepted : leader.accepting = some ⟨node, [], before⟩) :
    Noticed { leader with
      membership := (leader.membership.update now node).rotateLeader
        before epoch
      accepting := none } := by
  refine ⟨?_, ?_, by simp⟩
  · intro id handle found
    refine (noticed.entries id handle found).of_eq ?_
      (fun failed => failed) rfl
    simp [expected, accepted, Membership.incarnation_update]
  · intro handle waiting
    have before := noticed.resolving handle waiting
    simpa [expected, accepted, Membership.incarnation_update] using before

theorem refresh_noticed {capabilities : NodeCapabilities} {now : Nat}
    (noticed : leader.Noticed) (free : leader.accepting = none)
    (known : leader.membership.incarnation capabilities.nodeId = none ∨
      leader.membership.incarnation capabilities.nodeId =
        some capabilities.incarnation)
    (undisturbed : leader.Undisturbed capabilities) :
    Noticed { leader with
      membership := leader.membership.update now capabilities } := by
  refine ⟨?_, ?_, by simp [free]⟩
  · intro id handle found
    rcases noticed.entries id handle found with current | lost
    · refine .inl ?_
      simp only [expected, free, Membership.incarnation_update] at current ⊢
      split
      · rename_i same
        rw [same] at current
        rw [current] at known
        rcases known with unknown | known
        · cases unknown
        · exact known.symm
      · exact current
    · exact .inr lost
  · intro handle waiting
    have before := noticed.resolving handle waiting
    simp only [expected, free, Membership.incarnation_update] at before ⊢
    split
    · rename_i same
      exact .inr (by rw [undisturbed handle waiting same])
    · exact before

theorem register_noticed {handle : MemoryBlockHandle}
    {previous : Option Nat} {table : ResidencyTable} (noticed : leader.Noticed)
    (current : leader.expected handle.ownerNode =
      some handle.ownerIncarnation)
    (registered : leader.residency.registerRequest handle previous =
      .ok table) :
    Noticed { leader with residency := table } := by
  refine ⟨?_, noticed.resolving, noticed.inventory⟩
  intro id entry found
  obtain ⟨_, _, registered⟩ := bind_ok.mp registered
  cases registered
  exact (register_settled noticed.entries current found).of_eq rfl
    (fun failed => failed) rfl

theorem lookup_noticed {now : Nat} {id token : Uuid}
    {handle : MemoryBlockHandle} (noticed : leader.Noticed)
    (resolved : leader.residency.resolve now id token = .ok handle) :
    Noticed { leader with resolving := leader.resolving ++ [handle] } := by
  obtain ⟨found, _, alive, _⟩ := ResidencyTable.resolve_ok resolved
  refine ⟨noticed.entries, ?_, noticed.inventory⟩
  intro waiting listed
  rcases List.mem_append.mp listed with before | new
  · exact noticed.resolving waiting before
  · rw [List.mem_singleton] at new
    subst new
    rcases noticed.entries id waiting found with current | ⟨lost, _⟩
    · exact .inr current
    · exact absurd lost alive

theorem step_noticed {event : LeaderEvent} (noticed : leader.Noticed)
    (accords : leader.Accords event)
    (stepped : leader.step event = some next) : next.Noticed := by
  cases event with
  | exchange node inventory =>
      simp only [step] at stepped
      split at stepped
      · cases stepped
      · rename_i free
        cases stepped
        exact acceptPeer_noticed noticed free accords.1 accords.2
  | inventory =>
      simp only [step] at stepped
      split at stepped
      · rename_i accepted
        cases stepped
        exact acceptNext_noticed noticed accepted rfl
      · cases stepped
  | update now epoch =>
      simp only [step] at stepped
      split at stepped
      · rename_i accepted
        cases stepped
        exact update_noticed noticed accepted
      · cases stepped
  | refresh now capabilities =>
      simp only [step] at stepped
      split at stepped
      · cases stepped
      · rename_i free
        cases stepped
        exact refresh_noticed noticed free accords.1 accords.2
  | expire now epoch =>
      simp only [step] at stepped
      split at stepped
      · cases stepped
      · rename_i free
        cases stepped
        exact expire_noticed noticed free
  | request handle previous leadership =>
      simp only [step] at stepped
      split at stepped
      · cases stepped
      · split at stepped
        · cases stepped
          exact ⟨noticed.entries, noticed.resolving, noticed.inventory⟩
        · cases stepped
          exact noticed
  | register position =>
      simp only [step] at stepped
      obtain ⟨⟨handle, previous⟩, pending, stepped⟩ :=
        Option.bind_eq_some_iff.mp stepped
      simp only [Accords, pending] at accords
      split at stepped
      · rename_i registered
        cases stepped
        have after := register_noticed noticed accords registered
        exact ⟨after.entries, after.resolving, after.inventory⟩
      · cases stepped
        exact ⟨noticed.entries, noticed.resolving, noticed.inventory⟩
  | lookup now id token =>
      simp only [step] at stepped
      split at stepped
      · rename_i resolved
        cases stepped
        exact lookup_noticed noticed resolved
      · cases stepped
        exact noticed
  | answer position =>
      simp only [step] at stepped
      split at stepped
      · cases stepped
      · obtain ⟨_, _, stepped⟩ := Option.bind_eq_some_iff.mp stepped
        cases stepped
        refine ⟨noticed.entries, ?_, noticed.inventory⟩
        intro handle waiting
        exact noticed.resolving handle (List.mem_of_mem_eraseIdx waiting)

end Steps

/-- Restarts are noticed in every run whose steps accord.  Once the recorded
incarnation of a node has changed, its blocks of the earlier one are lost and
their jobs have failed, and no `Resolve` ends with a ready handle of another
incarnation than the one recorded. -/
theorem restarts_noticed {now : Nat} {node : NodeCapabilities} {jobs : Jobs}
    {middle final : Leader} {front back : List LeaderEvent}
    (along : Along step Accords (fresh now node jobs) (front ++ back))
    (reached : run step (fresh now node jobs) front = some middle)
    (ran : run step middle back = some final)
    (unlocked : final.accepting = none) :
    (∀ owner incarnation,
      middle.membership.incarnation owner = some incarnation →
      final.membership.incarnation owner ≠ some incarnation →
      ∀ id handle, final.residency.lookup id = some handle →
        handle.ownerNode = owner → handle.ownerIncarnation = incarnation →
        handle.state = .lost ∧ final.jobs.Failed handle.jobId) ∧
      ∀ handle ∈ final.resolving, ∀ answered,
        final.answer handle = .ok answered → answered.state = .ready →
        final.membership.incarnation answered.ownerNode =
          some answered.ownerIncarnation := by
  have noticed : final.Noticed :=
    run_invariant_along Noticed
      (fun _ _ _ noticed accords stepped =>
        step_noticed noticed accords stepped)
      (fresh_noticed now node jobs) along
      (run_append.mpr ⟨middle, reached, ran⟩)
  have recorded : ∀ other, final.expected other =
      final.membership.incarnation other := by
    intro other
    simp [expected, unlocked]
  refine ⟨?_, ?_⟩
  · intro owner incarnation _ changed id handle found owned same
    rcases noticed.entries id handle found with current | lost
    · rw [recorded, owned, same] at current
      exact absurd current changed
    · exact lost
  · intro handle waiting answered ok _
    obtain ⟨address, present, same⟩ := bind_ok.mp ok
    cases same
    rcases noticed.resolving handle waiting with absent | current
    · rw [recorded] at absent
      exact absurd absent (Membership.address_ok present)
    · rw [recorded] at current
      exact current

theorem restarts_noticed_abc :
    ∃ final, run step (fresh 0 (sampleNode 1 10) sampleJobs)
        [.exchange (sampleNode 2 20) [abcReady], .inventory, .update 1 0,
          .exchange (sampleNode 2 21) [], .update 2 0] = some final ∧
      final.residency.lookup 7 = some { abcReady with state := .lost } ∧
      final.jobs.Failed 3 := by
  obtain ⟨middle, reached, recorded⟩ : ∃ middle,
      run step (fresh 0 (sampleNode 1 10) sampleJobs)
        [.exchange (sampleNode 2 20) [abcReady], .inventory, .update 1 0] =
          some middle ∧
        middle.membership.incarnation 2 = some 20 := ⟨_, rfl, by decide⟩
  obtain ⟨final, ran, unlocked, changed, stored⟩ : ∃ final,
      run step middle [.exchange (sampleNode 2 21) [], .update 2 0] =
          some final ∧
        final.accepting = none ∧
        final.membership.incarnation 2 ≠ some 20 ∧
        final.residency.lookup 7 = some { abcReady with state := .lost } := by
    cases reached
    exact ⟨_, rfl, rfl, by decide, by decide⟩
  have noticed := restarts_noticed (by decide +kernel) reached ran unlocked
  refine ⟨final, run_append.mpr ⟨middle, reached, ran⟩, stored, ?_⟩
  exact (noticed.1 2 20 recorded changed 7 _ stored rfl rfl).2

/-- The refresh inside `Allocate` records the new incarnation of a node that
restarted and loses nothing: its vanished block still resolves. -/
theorem refresh_hides_restart :
    ∃ before after, run step (fresh 0 (sampleNode 1 10) sampleJobs)
        [.exchange (sampleNode 2 20) [abcReady], .inventory, .update 1 0] =
          some before ∧
      run step before [.refresh 2 (sampleNode 2 21), .lookup 5 7 5] =
        some after ∧
      before.membership.incarnation 2 = some 20 ∧
      after.membership.incarnation 2 = some 21 ∧
      after.residency.lookup 7 = some abcReady ∧
      after.resolving = [abcReady] ∧
      after.answer abcReady = .ok abcReady ∧
      abcReady.state = .ready ∧ abcReady.ownerNode = 2 ∧
      abcReady.ownerIncarnation = 20 :=
  ⟨_, _, rfl, rfl, by decide, by decide, by decide, by decide, by decide,
    rfl, rfl, rfl⟩

end Leader

end TrainPool
