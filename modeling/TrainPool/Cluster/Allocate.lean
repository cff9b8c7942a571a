import TrainPool.Cluster.Affected
import TrainPool.Cluster.Migration

namespace TrainPool

open Execution Leader

/-! `Allocate` at the leader, interleaved with the changes of its membership
and of what the owners believe. -/

structure AllocateRequest where
  size : Nat
  jobId : Uuid
  computeNode : Uuid
  preferredNode : Option Uuid
  tensor : Option TensorMetadata
  deriving DecidableEq, Repr

structure AllocateOwner where
  self : Identity
  membership : Membership
  ram : LocalRam
  deriving DecidableEq

/-- Where the handler stands between two lock acquisitions.  `epoch` is the one
it has read and checked, `leadership` the one it sends to the owners. -/
inductive AllocateStage where
  | enter
  | epoch
  | job (epoch : Uuid)
  | refresh (epoch : Uuid)
  | update (epoch : Uuid) (capabilities : NodeCapabilities)
  | rank (epoch : Uuid)
  | sample (epoch : Uuid) (candidates : List NodeCapabilities)
  | offer (leadership : Leadership) (candidates : List NodeCapabilities)
      (lastError : String)
  | allocate (leadership : Leadership) (handle : MemoryBlockHandle)
      (address : SocketAddr) (rest : List NodeCapabilities)
  | register (leadership : Leadership) (handle : MemoryBlockHandle)
  | returned (leadership : Leadership) (handle : MemoryBlockHandle)
  | forwarded
  | failed (message : String)
  deriving DecidableEq

structure AllocateState where
  leader : Leader
  owners : SocketAddr → AllocateOwner
  stage : AllocateStage

/-- What the environment decides about a step: the answer to `Capabilities`,
the ranking of the candidates, fresh identifiers, the clock, the fate of the
message to the owner with the error of a failed one, and whether the owner has
memory. -/
structure AllocateChoice where
  capabilities : Option NodeCapabilities
  ranked : List NodeCapabilities
  id : Uuid
  leaseToken : Uuid
  now : Nat
  rpc : Rpc
  broken : String
  headroom : Bool
  reserved : Bool
  deriving DecidableEq

inductive AllocateEvent where
  | leader (event : LeaderEvent)
  | view (address : SocketAddr) (membership : Membership)
  | advance (choice : AllocateChoice)
  deriving DecidableEq

namespace AllocateRequest

variable (request : AllocateRequest) (leaseSeconds : Nat)

def check : Result Unit := do
  request.tensor.elim (pure ()) (·.validate request.size)
  ensure (0 < request.size)
    "zero-length blocks are represented locally by the SDK"

def checkJob (epoch : Uuid) (jobs : Jobs) : Result Unit :=
  match jobs.lookup request.jobId with
  | none => .error (.error "TRAINPOOL_JOB_LOST")
  | some job => do
      ensure (job.error = none) (job.error.getD "")
      ensure (job.leaderEpoch = epoch) "TRAINPOOL_STALE_LEADER"

def handle (node : NodeCapabilities) (choice : AllocateChoice) :
    MemoryBlockHandle where
  id := choice.id
  jobId := request.jobId
  size := request.size
  ownerNode := node.nodeId
  ownerIncarnation := node.incarnation
  locationType := .ram node.nodeId
  checksum := none
  state := .writing
  leaseToken := choice.leaseToken
  leaseExpiresMs := choice.now + leaseSeconds * 1000
  generation := 0
  tensor := request.tensor

def eligible (node : NodeCapabilities) : Bool :=
  node.nodeId = request.computeNode ||
    request.preferredNode.all (node.nodeId = ·)

end AllocateRequest

def AllocateStage.ofResult (stage : AllocateStage) :
    Result Unit → AllocateStage
  | .ok _ => stage
  | .error (.error message) => .failed message
  | .error .panic => .failed ""

namespace AllocateState

variable (request : AllocateRequest) (leaseSeconds : Nat)

def goes (state : AllocateState) (stage : AllocateStage) : AllocateState :=
  { state with stage := stage }

def setLeader (state : AllocateState) (leader : Leader) : AllocateState :=
  { state with leader := leader }

def setOwner (address : SocketAddr) (owner : AllocateOwner)
    (state : AllocateState) : AllocateState :=
  { state with owners := Function.update state.owners address owner }

/-- A step of the handler.  Those that read the membership wait for its lock,
which `accept_peer` holds. -/
def advance (choice : AllocateChoice) (state : AllocateState) :
    Option AllocateState :=
  let membership := state.leader.membership
  match state.stage with
  | .enter =>
      if state.leader.accepting = none then
        if membership.leader.leaderId = some membership.localId then
          some (state.goes (.ofResult .epoch request.check))
        else
          some (state.goes .forwarded)
      else
        none
  | .epoch =>
      if state.leader.accepting = none then
        some (state.goes (.job membership.leader.leaderEpoch))
      else
        none
  | .job epoch =>
      some (state.goes (.ofResult (.refresh epoch)
        (request.checkJob epoch state.leader.jobs)))
  | .refresh epoch =>
      if state.leader.accepting = none then
        if request.computeNode = membership.localId then
          some (state.goes (.rank epoch))
        else
          match membership.peers.lookup request.computeNode,
              choice.capabilities with
          | some _, some capabilities =>
              some (state.goes (.update epoch capabilities))
          | _, _ => some (state.goes (.rank epoch))
      else
        none
  | .update epoch capabilities =>
      if state.leader.accepting = none then
        some ((state.setLeader { state.leader with
          membership := membership.update choice.now capabilities }).goes
            (.rank epoch))
      else
        none
  | .rank epoch =>
      if state.leader.accepting = none ∧
          ∀ node ∈ choice.ranked, node ∈ membership.nodes then
        some (state.goes (.sample epoch choice.ranked))
      else
        none
  | .sample _ candidates =>
      if state.leader.accepting = none then
        some (state.goes (.offer membership.leader
          (candidates.filter request.eligible) "no eligible memory nodes"))
      else
        none
  | .offer _ [] lastError =>
      some (state.goes (.failed s!"TRAINPOOL_OUT_OF_CAPACITY: {lastError}"))
  | .offer leadership (node :: rest) _ =>
      if choice.rpc = .lost then
        some (state.goes (.offer leadership rest choice.broken))
      else if (state.owners node.controlAddress).membership.leader =
          leadership then
        some (state.goes (.allocate leadership
          (request.handle leaseSeconds node choice) node.controlAddress rest))
      else
        some (state.goes (.offer leadership rest
          "TRAINPOOL_STALE_LEADER: membership/epoch changed"))
  | .allocate leadership handle address rest =>
      let owner := state.owners address
      match allocateLocal owner.self handle choice.headroom choice.reserved
          owner.ram with
      | .error (.error message) =>
          some (state.goes (.offer leadership rest message))
      | .error .panic =>
          some (state.goes (.offer leadership rest choice.broken))
      | .ok ram =>
          let allocated := state.setOwner address { owner with ram := ram }
          if choice.rpc = .answered then
            some (allocated.goes (.register leadership handle))
          else
            some (allocated.goes (.offer leadership rest choice.broken))
  | .register leadership handle =>
      some ((state.setLeader { state.leader with
        residency := state.leader.residency.register handle }).goes
          (.returned leadership handle))
  | .returned _ _ | .forwarded | .failed _ => none

def step (state : AllocateState) : AllocateEvent → Option AllocateState
  | .leader event => do
      let leader ← state.leader.step event
      some (state.setLeader leader)
  | .view address membership =>
      some (state.setOwner address
        { state.owners address with membership := membership })
  | .advance choice => state.advance request leaseSeconds choice

variable {request : AllocateRequest} {leaseSeconds : Nat}
  {state next : AllocateState} {event : AllocateEvent}

def Planned (request : AllocateRequest) (epoch : Uuid)
    (state : AllocateState) : Prop :=
  ∃ job, state.leader.jobs.lookup request.jobId = some job ∧
    job.leaderEpoch = epoch

def Covers (request : AllocateRequest) (leadership : Leadership)
    (state : AllocateState) : Prop :=
  leadership.leaderId = some state.leader.membership.localId ∧
    state.Planned request leadership.leaderEpoch

/-- When the handler reads the leadership that it will send, this node is still
the leader, under the epoch that was checked. -/
def Unchanged (state : AllocateState) : AllocateEvent → Prop
  | .advance _ =>
      match state.stage with
      | .sample epoch _ =>
          state.leader.membership.leader.leaderId =
              some state.leader.membership.localId ∧
            state.leader.membership.leader.leaderEpoch = epoch
      | _ => True
  | _ => True

instance (state : AllocateState) :
    (event : AllocateEvent) → Decidable (state.Unchanged event)
  | .advance _ => by
      unfold Unchanged
      dsimp only
      split <;> infer_instance
  | .leader _ | .view _ _ => isTrue trivial

def Fenced (request : AllocateRequest) (state : AllocateState) :
    AllocateStage → Prop
  | .refresh epoch | .update epoch _ | .rank epoch | .sample epoch _ =>
      state.Planned request epoch
  | .offer leadership _ _ => state.Covers request leadership
  | .allocate leadership handle _ _ | .register leadership handle
  | .returned leadership handle =>
      state.Covers request leadership ∧ handle.jobId = request.jobId
  | .enter | .epoch | .job _ | .forwarded | .failed _ => True

/-- What the handler knows survives whatever keeps the plans and the identity
of this node. -/
theorem Fenced.mono {stage : AllocateStage}
    (fenced : state.Fenced request stage)
    (self : next.leader.membership.localId =
      state.leader.membership.localId)
    (planned : ∀ epoch, state.Planned request epoch →
      next.Planned request epoch) : next.Fenced request stage := by
  have covers : ∀ leadership, state.Covers request leadership →
      next.Covers request leadership := by
    intro leadership given
    obtain ⟨own, plan⟩ := given
    exact ⟨self ▸ own, planned _ plan⟩
  cases stage with
  | enter | epoch | job _ | forwarded | failed _ => trivial
  | refresh epoch | update epoch _ | rank epoch | sample epoch _ =>
      exact planned epoch fenced
  | offer leadership _ _ => exact covers leadership fenced
  | allocate leadership handle _ _ | register leadership handle
  | returned leadership handle =>
      exact ⟨covers leadership fenced.1, fenced.2⟩

theorem checkJob_ok {epoch : Uuid}
    (checked : request.checkJob epoch state.leader.jobs = .ok ()) :
    state.Planned request epoch := by
  unfold AllocateRequest.checkJob at checked
  split at checked
  · cases checked
  · rename_i job found
    simp only [ensure_bind_ok, ensure_ok] at checked
    exact ⟨job, found, checked.2⟩

theorem ofResult_fenced {stage : AllocateStage} {result : Result Unit}
    (passed : result = .ok () → state.Fenced request stage) :
    state.Fenced request (.ofResult stage result) := by
  unfold AllocateStage.ofResult
  split
  · exact passed rfl
  · trivial
  · trivial

theorem advance_fenced {choice : AllocateChoice}
    (fenced : state.Fenced request state.stage)
    (unchanged : state.Unchanged (.advance choice))
    (advanced : state.advance request leaseSeconds choice = some next) :
    next.Fenced request next.stage := by
  obtain ⟨leader, owners, stage⟩ := state
  cases stage with
  | enter =>
      simp only [advance] at advanced
      split at advanced
      · split at advanced <;> cases advanced
        · exact ofResult_fenced fun _ => trivial
        · trivial
      · cases advanced
  | epoch =>
      simp only [advance] at advanced
      split at advanced <;> cases advanced
      trivial
  | job epoch =>
      cases advanced
      exact ofResult_fenced fun checked => checkJob_ok checked
  | refresh epoch =>
      simp only [advance] at advanced
      split at advanced
      · split at advanced
        · cases advanced
          exact fenced
        · split at advanced <;> cases advanced <;> exact fenced
      · cases advanced
  | update epoch capabilities =>
      simp only [advance] at advanced
      split at advanced <;> cases advanced
      exact fenced
  | rank epoch =>
      simp only [advance] at advanced
      split at advanced <;> cases advanced
      exact fenced
  | sample epoch candidates =>
      simp only [advance] at advanced
      split at advanced <;> cases advanced
      obtain ⟨own, same⟩ := unchanged
      exact ⟨own, same ▸ fenced⟩
  | offer leadership candidates lastError =>
      cases candidates with
      | nil =>
          cases advanced
          trivial
      | cons node rest =>
          simp only [advance] at advanced
          split at advanced
          · cases advanced
            exact fenced
          · split at advanced <;> cases advanced
            · exact ⟨fenced, rfl⟩
            · exact fenced
  | allocate leadership handle address rest =>
      simp only [advance] at advanced
      split at advanced
      · cases advanced
        exact fenced.1
      · cases advanced
        exact fenced.1
      · split at advanced <;> cases advanced
        · exact fenced
        · exact fenced.1
  | register leadership handle =>
      cases advanced
      exact fenced
  | returned leadership handle => cases advanced
  | forwarded => cases advanced
  | failed message => cases advanced

theorem step_fenced (fenced : state.Fenced request state.stage)
    (unchanged : state.Unchanged event)
    (stepped : state.step request leaseSeconds event = some next) :
    next.Fenced request next.stage := by
  cases event with
  | leader event =>
      obtain ⟨leader, moved, done⟩ := Option.bind_eq_some_iff.mp stepped
      cases done
      refine Fenced.mono fenced (Leader.step_localId moved) ?_
      intro epoch given
      obtain ⟨job, found, planned⟩ := given
      obtain ⟨later, kept, same, _⟩ := Leader.step_job moved found
      exact ⟨later, kept, same.trans planned⟩
  | view address membership =>
      cases stepped
      exact Fenced.mono fenced rfl fun _ planned => planned
  | advance choice => exact advance_fenced fenced unchanged stepped

/-- A handle that `Allocate` returns was allocated under the leadership of this
node and the epoch of its job, in every run in which this node is still the
leader, under the epoch that was checked, when the handler reads the leadership
that it sends. -/
theorem allocation_fenced {start final : AllocateState}
    {events : List AllocateEvent} {leadership : Leadership}
    {handle : MemoryBlockHandle} (entered : start.stage = .enter)
    (along : Along (step request leaseSeconds) Unchanged start events)
    (ran : run (step request leaseSeconds) start events = some final)
    (returned : final.stage = .returned leadership handle) :
    handle.jobId = request.jobId ∧
      leadership.leaderId = some final.leader.membership.localId ∧
      ∃ job, final.leader.jobs.lookup handle.jobId = some job ∧
        job.leaderEpoch = leadership.leaderEpoch := by
  have fenced := run_invariant_along
    (fun state => state.Fenced request state.stage)
    (fun _ _ _ fenced unchanged stepped =>
      step_fenced fenced unchanged stepped)
    (by rw [entered]; trivial) along ran
  rw [returned] at fenced
  obtain ⟨⟨own, planned⟩, same⟩ := fenced
  exact ⟨same, own, same ▸ planned⟩

/-! Node 1 leads and node 2 has memory. -/

def sampleRequest : AllocateRequest := ⟨3, 3, 2, none, none⟩

def sampleView : Membership :=
  (Membership.new 0 (sampleNode 2 20)).update 1 (sampleNode 1 10)

def sampleAllocate : AllocateState where
  leader := { Leader.fresh 0 (sampleNode 1 10) sampleJobs with
    membership :=
      (Membership.new 0 (sampleNode 1 10)).update 1 (sampleNode 2 20) }
  owners := fun _ => ⟨⟨2, 20⟩, sampleView, LocalRam.empty⟩
  stage := .enter

def sampleAdvances (count : Nat) : List AllocateEvent :=
  List.replicate count (.advance
    ⟨none, [sampleNode 2 20], 7, 5, 0, .answered, "", true, true⟩)

theorem allocation_fenced_sample :
    ∃ final leadership handle,
      run (step sampleRequest 300) sampleAllocate (sampleAdvances 9) =
        some final ∧
      final.stage = .returned leadership handle ∧
      leadership.leaderId = some final.leader.membership.localId ∧
      ∃ job, final.leader.jobs.lookup handle.jobId = some job ∧
        job.leaderEpoch = leadership.leaderEpoch :=
  ⟨_, _, _, rfl, rfl, (@allocation_fenced sampleRequest 300 sampleAllocate _
    (sampleAdvances 9) _ _ rfl (by decide +kernel) rfl rfl).2⟩

/-- Node 0 joins and takes the leadership after the epoch was checked.  Its
leadership is sent to node 2, which has heard of it too. -/
theorem allocation_under_new_leader :
    ∃ final leadership handle,
      run (step sampleRequest 300) sampleAllocate
        (sampleAdvances 5 ++
          [.leader (.exchange (sampleNode 0 5) []), .leader (.update 2 0),
            .view 2 (sampleView.update 2 (sampleNode 0 5))] ++
          sampleAdvances 4) = some final ∧
      final.stage = .returned leadership handle ∧
      final.leader.membership.localId = 1 ∧
      leadership.leaderId = some 0 :=
  ⟨_, _, _, rfl, rfl, rfl, rfl⟩

end AllocateState

end TrainPool
