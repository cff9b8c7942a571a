import TrainPool.Cluster.Restart

namespace TrainPool

open Execution

/-! Which jobs fail when a node is lost. -/

theorem Jobs.lookup_foldl_fail (ids : List Uuid) (error : String)
    (jobs : Jobs) (id : Uuid) :
    (ids.foldl (fun jobs job => jobs.fail job error) jobs).lookup id =
      (jobs.lookup id).map fun job =>
        if id ∈ ids then { job with error := some error } else job := by
  induction ids generalizing jobs with
  | nil => simp
  | cons first rest ih =>
      rw [List.foldl_cons, ih, Jobs.fail, Table.lookup_mapValues,
        Option.map_map]
      congr 1
      funext job
      by_cases listed : id ∈ rest
      · by_cases same : id = first <;> simp [listed, same]
      · by_cases same : id = first <;> simp [listed, same]

/-- An entry of the table for a block of the job on the node. -/
structure ResidencyTable.Stores (table : ResidencyTable) (job node : Uuid)
    (entry : MemoryBlockHandle) : Prop where
  listed : ∃ block, table.lookup block = some entry
  owner : entry.ownerNode = node
  job : entry.jobId = job

theorem ResidencyTable.mem_loseNode_iff {table : ResidencyTable}
    {job node : Uuid} :
    job ∈ (table.loseNode node).2 ↔ ∃ entry, table.Stores job node entry := by
  constructor
  · intro member
    simp only [loseNode, List.mem_map, List.mem_filter] at member
    obtain ⟨⟨block, entry⟩, ⟨listed, owner⟩, rfl⟩ := member
    exact ⟨entry, ⟨block, Table.mem_entries.mp listed⟩,
      of_decide_eq_true owner, rfl⟩
  · intro given
    obtain ⟨entry, ⟨block, listed⟩, owner, same⟩ := given
    exact same ▸ mem_loseNode listed owner

theorem ResidencyTable.stores_loseNode {table : ResidencyTable}
    {job node other : Uuid} :
    (∃ entry, (table.loseNode other).1.Stores job node entry) ↔
      ∃ entry, table.Stores job node entry := by
  constructor
  · intro given
    obtain ⟨entry, ⟨block, listed⟩, owner, same⟩ := given
    rw [lookup_loseNode, Option.map_eq_some_iff] at listed
    obtain ⟨old, listed, rfl⟩ := listed
    refine ⟨old, ⟨block, listed⟩, ?_, ?_⟩
    · rw [← owner]
      split <;> rfl
    · rw [← same]
      split <;> rfl
  · intro given
    obtain ⟨entry, ⟨block, listed⟩, owner, same⟩ := given
    refine ⟨if entry.ownerNode = other then { entry with state := .lost }
      else entry, ⟨block, ?_⟩, ?_, ?_⟩
    · rw [lookup_loseNode, listed]
      rfl
    · rw [← owner]
      split <;> rfl
    · rw [← same]
      split <;> rfl

/-- Neither freed nor past its lease. -/
def MemoryBlockHandle.Live (now : Nat) (handle : MemoryBlockHandle) : Prop :=
  handle.leaseExpiresMs ≠ 0 ∧ now < handle.leaseExpiresMs

instance (now : Nat) (handle : MemoryBlockHandle) :
    Decidable (handle.Live now) :=
  inferInstanceAs (Decidable (_ ∧ _))

namespace Leader

def loses (leader : Leader) : LeaderEvent → List Uuid
  | .exchange node inventory =>
      match leader.admitPeer node inventory with
      | .error _ => []
      | .ok () => if leader.restarted node then [node.nodeId] else []
  | .expire now _ => leader.membership.dead now
  | _ => []

def Touched (leader : Leader) (id : Uuid) (job : Job) (node : Uuid) : Prop :=
  node ∈ job.computeNodes ∨
    ∃ entry, leader.residency.Stores id node entry

/-- The job computes on the node or has a live block there. -/
def Affected (leader : Leader) (now : Nat) (id : Uuid) (job : Job)
    (node : Uuid) : Prop :=
  node ∈ job.computeNodes ∨
    ∃ entry, leader.residency.Stores id node entry ∧ entry.Live now

variable {leader next : Leader}

theorem Affected.touched {now : Nat} {id node : Uuid} {job : Job}
    (affected : leader.Affected now id job node) :
    leader.Touched id job node := by
  rcases affected with computes | ⟨entry, stores, _⟩
  · exact .inl computes
  · exact .inr ⟨entry, stores⟩

theorem lose_job (node : Uuid) (error : String) {id : Uuid} {job : Job}
    (known : leader.jobs.lookup id = some job) :
    ∃ later, (leader.lose node error).jobs.lookup id = some later ∧
      later.computeNodes = job.computeNodes ∧
      later.leaderEpoch = job.leaderEpoch ∧
      (later.error ≠ none ↔
        job.error ≠ none ∨ leader.Touched id job node) := by
  simp only [lose, Jobs.lookup_foldl_fail, Jobs.loseCompute,
    Table.lookup_mapValues, known, Option.map_some]
  refine ⟨_, rfl, ?_, ?_, ?_⟩
  · split <;> split <;> rfl
  · split <;> split <;> rfl
  · have stored := @ResidencyTable.mem_loseNode_iff leader.residency id node
    by_cases listed : id ∈ (leader.residency.loseNode node).2
    · simp [listed, Touched, stored.mp listed]
    · have absent := stored.not.mp listed
      by_cases computes : node ∈ job.computeNodes
      · simp [listed, computes, Touched]
      · simp [listed, computes, Touched, absent]

theorem touched_lose {node other id : Uuid} {error : String}
    {job later : Job} (same : later.computeNodes = job.computeNodes) :
    (leader.lose other error).Touched id later node ↔
      leader.Touched id job node := by
  unfold Touched lose
  rw [same, ResidencyTable.stores_loseNode]

theorem foldl_lose_job (ids : List Uuid) (error : Uuid → String)
    {id : Uuid} {job : Job} (known : leader.jobs.lookup id = some job) :
    ∃ later,
      (ids.foldl (fun leader id => leader.lose id (error id))
        leader).jobs.lookup id = some later ∧
      later.leaderEpoch = job.leaderEpoch ∧
      (later.error ≠ none ↔
        job.error ≠ none ∨ ∃ node ∈ ids, leader.Touched id job node) := by
  induction ids generalizing leader job with
  | nil => exact ⟨job, known, rfl, by simp⟩
  | cons first rest ih =>
      obtain ⟨middle, found, computes, epoch, failed⟩ :=
        lose_job first (error first) known
      obtain ⟨later, last, same, fails⟩ := ih found
      refine ⟨later, last, same.trans epoch, ?_⟩
      rw [fails, failed]
      simp only [touched_lose computes, List.mem_cons, exists_eq_or_imp,
        or_assoc]

/-- A step keeps the plans of its jobs, and gives them errors only by the nodes
it loses. -/
theorem step_job {event : LeaderEvent}
    (stepped : leader.step event = some next) {id : Uuid} {job : Job}
    (known : leader.jobs.lookup id = some job) :
    ∃ later, next.jobs.lookup id = some later ∧
      later.leaderEpoch = job.leaderEpoch ∧
      (later.error ≠ none ↔ job.error ≠ none ∨
        ∃ node ∈ leader.loses event, leader.Touched id job node) := by
  have kept : next.jobs = leader.jobs → leader.loses event = [] →
      ∃ later, next.jobs.lookup id = some later ∧
        later.leaderEpoch = job.leaderEpoch ∧
        (later.error ≠ none ↔ job.error ≠ none ∨
          ∃ node ∈ leader.loses event, leader.Touched id job node) := by
    intro same none
    exact ⟨job, same ▸ known, rfl, by simp [none]⟩
  cases event with
  | exchange node inventory =>
      simp only [step] at stepped
      split at stepped <;> cases stepped
      simp only [acceptPeer, loses]
      cases leader.admitPeer node inventory with
      | error fault => exact ⟨job, known, rfl, by simp⟩
      | ok _ =>
          by_cases restart : leader.restarted node = true
          · obtain ⟨later, found, _, epoch, failed⟩ := lose_job node.nodeId
              s!"TRAINPOOL_DATA_LOST: node {node.nodeId} restarted" known
            exact ⟨later, by simpa [restart] using found, epoch,
              by simpa [restart] using failed⟩
          · exact ⟨job, by simpa [restart] using known, rfl,
              by simp [restart]⟩
  | expire now epoch =>
      simp only [step] at stepped
      split at stepped <;> cases stepped
      exact foldl_lose_job (leader.membership.dead now) _ known
  | inventory =>
      simp only [step] at stepped
      split at stepped <;> cases stepped
      refine kept ?_ rfl
      unfold acceptNext
      split <;> rfl
  | update now epoch =>
      simp only [step] at stepped
      split at stepped <;> cases stepped
      exact kept rfl rfl
  | refresh now capabilities =>
      simp only [step] at stepped
      split at stepped <;> cases stepped
      exact kept rfl rfl
  | request handle previous leadership =>
      simp only [step] at stepped
      split at stepped
      · cases stepped
      · split at stepped <;> cases stepped <;> exact kept rfl rfl
  | register position =>
      obtain ⟨⟨handle, previous⟩, _, stepped⟩ :=
        Option.bind_eq_some_iff.mp stepped
      simp only at stepped
      split at stepped <;> cases stepped <;> exact kept rfl rfl
  | lookup now id leaseToken =>
      simp only [step] at stepped
      split at stepped <;> cases stepped <;> exact kept rfl rfl
  | answer position =>
      simp only [step] at stepped
      split at stepped
      · cases stepped
      · obtain ⟨_, _, stepped⟩ := Option.bind_eq_some_iff.mp stepped
        cases stepped
        exact kept rfl rfl

theorem step_localId {event : LeaderEvent}
    (stepped : leader.step event = some next) :
    next.membership.localId = leader.membership.localId := by
  have rotates : ∀ (members : Membership) (before : Leadership)
      (epoch : Uuid),
      (members.rotateLeader before epoch).localId = members.localId := by
    intro members before epoch
    unfold Membership.rotateLeader
    split <;> rfl
  cases event with
  | exchange node inventory =>
      simp only [step] at stepped
      split at stepped <;> cases stepped
      unfold acceptPeer
      split
      · rfl
      · simp only
        split <;> rfl
  | inventory =>
      simp only [step] at stepped
      split at stepped <;> cases stepped
      unfold acceptNext
      split <;> rfl
  | update now epoch =>
      simp only [step] at stepped
      split at stepped <;> cases stepped
      exact rotates _ _ _
  | expire now epoch =>
      simp only [step] at stepped
      split at stepped <;> cases stepped
      exact rotates _ _ _
  | refresh now capabilities =>
      simp only [step] at stepped
      split at stepped <;> cases stepped
      rfl
  | request handle previous leadership =>
      simp only [step] at stepped
      split at stepped
      · cases stepped
      · split at stepped <;> cases stepped <;> rfl
  | register position =>
      obtain ⟨⟨handle, previous⟩, _, stepped⟩ :=
        Option.bind_eq_some_iff.mp stepped
      simp only at stepped
      split at stepped <;> cases stepped <;> rfl
  | lookup now id leaseToken =>
      simp only [step] at stepped
      split at stepped <;> cases stepped <;> rfl
  | answer position =>
      simp only [step] at stepped
      split at stepped
      · cases stepped
      · obtain ⟨_, _, stepped⟩ := Option.bind_eq_some_iff.mp stepped
        cases stepped
        rfl

/-- A job without an error receives one exactly when it is affected by a lost
node, if and only if none has dead blocks on a lost node and is not affected
by any. -/
theorem lost_nodes_fail_affected_jobs {event : LeaderEvent}
    (stepped : leader.step event = some next) (now : Nat) :
    (∀ id job, leader.jobs.lookup id = some job → job.error = none →
      ((∃ later, next.jobs.lookup id = some later ∧ later.error ≠ none) ↔
        ∃ node ∈ leader.loses event, leader.Affected now id job node)) ↔
    ∀ id job, leader.jobs.lookup id = some job → job.error = none →
      (∃ node ∈ leader.loses event, ∃ entry,
        leader.residency.Stores id node entry ∧ ¬entry.Live now) →
      ∃ node ∈ leader.loses event, leader.Affected now id job node := by
  have receives : ∀ id job, leader.jobs.lookup id = some job →
      job.error = none →
      ((∃ later, next.jobs.lookup id = some later ∧ later.error ≠ none) ↔
        ∃ node ∈ leader.loses event, leader.Touched id job node) := by
    intro id job known healthy
    obtain ⟨later, found, _, failed⟩ := step_job stepped known
    rw [show (∃ later, next.jobs.lookup id = some later ∧
      later.error ≠ none) ↔ later.error ≠ none by simp [found], failed]
    simp [healthy]
  constructor
  · intro exact id job known healthy given
    obtain ⟨node, lost, entry, stores, _⟩ := given
    rw [← exact id job known healthy, receives id job known healthy]
    exact ⟨node, lost, .inr ⟨entry, stores⟩⟩
  · intro clean id job known healthy
    rw [receives id job known healthy]
    constructor
    · intro given
      obtain ⟨node, lost, touched⟩ := given
      rcases touched with computes | ⟨entry, stores⟩
      · exact ⟨node, lost, .inl computes⟩
      · by_cases live : entry.Live now
        · exact ⟨node, lost, .inr ⟨entry, stores, live⟩⟩
        · exact clean id job known healthy ⟨node, lost, entry, stores, live⟩
    · intro given
      obtain ⟨node, lost, affected⟩ := given
      exact ⟨node, lost, affected.touched⟩

def sampleJoin : List LeaderEvent :=
  [.exchange (sampleNode 2 20) [abcReady], .inventory, .update 1 0]

def sampleFree : List LeaderEvent :=
  [.request { abcReady with leaseExpiresMs := 0 } none ⟨some 1, 6, 99⟩,
    .register 0]

theorem lost_nodes_fail_affected_jobs_abc :
    ∃ leader next,
      run step (fresh 0 (sampleNode 1 10) sampleJobs) sampleJoin =
        some leader ∧
      leader.step (.expire 8000000000 0) = some next ∧
      leader.loses (.expire 8000000000 0) = [2] ∧
      ∀ id job, leader.jobs.lookup id = some job → job.error = none →
        ((∃ later, next.jobs.lookup id = some later ∧ later.error ≠ none) ↔
          ∃ node ∈ leader.loses (.expire 8000000000 0),
            leader.Affected 5 id job node) := by
  refine ⟨_, _, rfl, rfl, by decide, ?_⟩
  refine (lost_nodes_fail_affected_jobs rfl 5).mpr ?_
  rintro id job known healthy ⟨node, lost, entry, ⟨⟨block, listed⟩, _, _⟩,
    dead⟩
  change ((∅ : ResidencyTable).insert 7 abcReady).lookup block =
    some entry at listed
  rw [Table.lookup_insert_eq] at listed
  split at listed
  · cases listed
    exact absurd (by decide) dead
  · simp at listed

/-- A job whose only block on the lost node was freed long ago fails with it. -/
theorem freed_block_fails_job :
    ∃ leader next,
      run step (fresh 0 (sampleNode 1 10) sampleJobs)
        (sampleJoin ++ sampleFree) = some leader ∧
      leader.step (.expire 8000000000 0) = some next ∧
      leader.loses (.expire 8000000000 0) = [2] ∧
      leader.jobs.lookup 3 = some ⟨[], 6, none⟩ ∧
      (∃ later, next.jobs.lookup 3 = some later ∧ later.error ≠ none) ∧
      ∀ node now, ¬leader.Affected now 3 ⟨[], 6, none⟩ node := by
  refine ⟨_, _, rfl, rfl, by decide, by decide, ⟨_, rfl, by decide⟩, ?_⟩
  intro node now affected
  rcases affected with computes | ⟨entry, ⟨⟨block, listed⟩, _, _⟩, live⟩
  · cases computes
  · change ((∅ : ResidencyTable).insert 7
      { abcReady with leaseExpiresMs := 0 }).lookup block =
        some entry at listed
    rw [Table.lookup_insert_eq] at listed
    split at listed
    · cases listed
      exact live.1 rfl
    · simp at listed

end Leader

end TrainPool
