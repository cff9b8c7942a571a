import TrainPool.Memory.Residency
import TrainPool.Cluster.Membership
import TrainPool.Library.Execution

namespace TrainPool

structure Job where
  computeNodes : List Uuid
  leaderEpoch : Uuid
  error : Option String
  deriving DecidableEq, Repr

abbrev Jobs := Table Uuid Job

namespace Jobs

def loseCompute (node : Uuid) (jobs : Jobs) : Jobs :=
  jobs.mapValues fun _ job =>
    if node ∈ job.computeNodes then
      { job with
        error := some
          s!"TRAINPOOL_COMPUTE_LOST: GPU node {node} disappeared" }
    else
      job

def fail (id : Uuid) (error : String) (jobs : Jobs) : Jobs :=
  jobs.mapValues fun other job =>
    if other = id then { job with error := some error } else job

/-- The job cannot go on, if it is known at all. -/
def Failed (id : Uuid) (jobs : Jobs) : Prop :=
  ∀ job, jobs.lookup id = some job → job.error ≠ none

end Jobs

/-- The `Register` of the leader on its table, past its check of the
leadership. -/
def ResidencyTable.registerRequest (handle : MemoryBlockHandle)
    (previous : Option Nat) (table : ResidencyTable) :
    Result ResidencyTable := do
  previous.elim (pure ()) fun previous => do
    ensure ((table.lookup handle.id).any fun block =>
        block.generation = previous ∧ block.leaseToken = handle.leaseToken)
      "TRAINPOOL_MIGRATION_CONFLICT"
    ensure (handle.generation = (previous + 1) % 2 ^ 64 ∧
      handle.state = .ready) "invalid migration commit"
  pure (table.register handle)

/-- The part of `Resolve` that reads the table. -/
def ResidencyTable.resolve (now : Nat) (id leaseToken : Uuid)
    (table : ResidencyTable) : Result MemoryBlockHandle :=
  match table.lookup id with
  | none => .error (.error s!"TRAINPOOL_DATA_LOST: block {id} not found")
  | some handle => do
      ensure (handle.leaseToken = leaseToken) "TRAINPOOL_LEASE_DENIED"
      ensure (handle.state ≠ .lost) (s!"TRAINPOOL_DATA_LOST: block {id} " ++
        s!"was stored exclusively on node {handle.ownerNode}")
      ensure (now < handle.leaseExpiresMs) "TRAINPOOL_LEASE_EXPIRED"
      pure handle

theorem ResidencyTable.resolve_ok {now : Nat} {id token : Uuid}
    {handle : MemoryBlockHandle} {table : ResidencyTable}
    (resolved : table.resolve now id token = .ok handle) :
    table.lookup id = some handle ∧ handle.leaseToken = token ∧
      handle.state ≠ .lost ∧ now < handle.leaseExpiresMs := by
  unfold ResidencyTable.resolve at resolved
  split at resolved
  · cases resolved
  · rename_i entry found
    simp only [ensure_bind_ok, pure_ok] at resolved
    obtain ⟨token, alive, leased, rfl⟩ := resolved
    exact ⟨found, token, alive, leased⟩

/-- An `accept_peer` that holds the write lock of the membership: the node it
is about, the handles it has not registered yet, and the leadership it found. -/
structure Exchange where
  node : NodeCapabilities
  inventory : List MemoryBlockHandle
  before : Leadership
  deriving DecidableEq, Repr

/-- The metadata of the leader, with the requests under way: `accept_peer`,
the `Register`s that passed their check of the leadership, and the `Resolve`s
that read the table and have yet to look for the address of the owner. -/
structure Leader where
  membership : Membership
  residency : ResidencyTable
  jobs : Jobs
  accepting : Option Exchange
  registering : List (MemoryBlockHandle × Option Nat)
  resolving : List MemoryBlockHandle
  deriving DecidableEq

inductive LeaderEvent where
  | exchange (node : NodeCapabilities) (inventory : List MemoryBlockHandle)
  | inventory
  | update (now : Nat) (epoch : Uuid)
  | refresh (now : Nat) (capabilities : NodeCapabilities)
  | expire (now : Nat) (epoch : Uuid)
  | request (handle : MemoryBlockHandle) (previous : Option Nat)
      (leadership : Leadership)
  | register (position : Nat)
  | lookup (now : Nat) (id leaseToken : Uuid)
  | answer (position : Nat)
  deriving DecidableEq

namespace Leader

def fresh (now : Nat) (node : NodeCapabilities) (jobs : Jobs) : Leader where
  membership := .new now node
  residency := ∅
  jobs := jobs
  accepting := none
  registering := []
  resolving := []

/-- The loss of a node: its blocks are marked and their jobs fail. -/
def lose (node : Uuid) (error : String) (leader : Leader) : Leader :=
  let lost := leader.residency.loseNode node
  { leader with
    residency := lost.1
    jobs := lost.2.foldl (fun jobs job => jobs.fail job error)
      (leader.jobs.loseCompute node) }

/-- The checks of `accept_peer` that precede its lock. -/
def admitPeer (node : NodeCapabilities) (inventory : List MemoryBlockHandle)
    (leader : Leader) : Result Unit := do
  ensure (node.nodeId ≠ leader.membership.localId)
    "duplicate node_id: use distinct data directories per installation"
  ensure (4096 ≤ node.chunkBytes ∧ node.chunkBytes ≤ 64 * 1024 * 1024)
    "invalid peer chunk size"
  ensure (inventory.length ≤ 100000) "peer inventory exceeds limit"

def restarted (node : NodeCapabilities) (leader : Leader) : Bool :=
  (leader.membership.incarnation node.nodeId).any (· ≠ node.incarnation)

/-- `accept_peer` up to its loop over the inventory. -/
def acceptPeer (node : NodeCapabilities) (inventory : List MemoryBlockHandle)
    (leader : Leader) : Leader :=
  match leader.admitPeer node inventory with
  | .error _ => leader
  | .ok () =>
      let noticed :=
        if leader.restarted node then
          leader.lose node.nodeId
            s!"TRAINPOOL_DATA_LOST: node {node.nodeId} restarted"
        else
          leader
      { noticed with
        accepting := some ⟨node, inventory, leader.membership.leader⟩ }

/-- The next handle of the inventory; a foreign one ends `accept_peer`, with
the handles before it registered. -/
def acceptNext (leader : Leader) (exchange : Exchange)
    (handle : MemoryBlockHandle) (rest : List MemoryBlockHandle) : Leader :=
  if handle.ownerNode = exchange.node.nodeId ∧
      handle.ownerIncarnation = exchange.node.incarnation then
    { leader with
      residency := leader.residency.register handle
      accepting := some { exchange with inventory := rest } }
  else
    { leader with accepting := none }

def expire (now : Nat) (epoch : Uuid) (leader : Leader) : Leader :=
  let expired := leader.membership.expire now
  let lost := expired.2.foldl (fun leader id => leader.lose id
    s!"TRAINPOOL_DATA_LOST: data stored exclusively on node {id}") leader
  { lost with
    membership := expired.1.rotateLeader leader.membership.leader epoch }

/-- The end of a `Resolve`. -/
def answer (handle : MemoryBlockHandle) (leader : Leader) :
    Result MemoryBlockHandle := do
  let _ ← leader.membership.address handle.ownerNode
  pure handle

def step (leader : Leader) : LeaderEvent → Option Leader
  | .exchange node inventory =>
      match leader.accepting with
      | some _ => none
      | none => some (leader.acceptPeer node inventory)
  | .inventory =>
      match leader.accepting with
      | some ⟨node, handle :: rest, before⟩ =>
          some (leader.acceptNext ⟨node, handle :: rest, before⟩ handle rest)
      | _ => none
  | .update now epoch =>
      match leader.accepting with
      | some ⟨node, [], before⟩ =>
          some { leader with
            membership := (leader.membership.update now node).rotateLeader
              before epoch
            accepting := none }
      | _ => none
  | .refresh now capabilities =>
      match leader.accepting with
      | some _ => none
      | none => some { leader with
          membership := leader.membership.update now capabilities }
  | .expire now epoch =>
      match leader.accepting with
      | some _ => none
      | none => some (leader.expire now epoch)
  | .request handle previous leadership =>
      match leader.accepting with
      | some _ => none
      | none =>
          if leader.membership.leader.leaderId =
                some leader.membership.localId ∧
              leader.membership.leader = leadership then
            some { leader with
              registering := leader.registering ++ [(handle, previous)] }
          else
            some leader
  | .register position => do
      let ⟨handle, previous⟩ ← leader.registering[position]?
      let done := { leader with
        registering := leader.registering.eraseIdx position }
      match leader.residency.registerRequest handle previous with
      | .ok table => some { done with residency := table }
      | .error _ => some done
  | .lookup now id leaseToken =>
      match leader.residency.resolve now id leaseToken with
      | .ok handle => some { leader with
          resolving := leader.resolving ++ [handle] }
      | .error _ => some leader
  | .answer position =>
      match leader.accepting with
      | some _ => none
      | none => do
          let _ ← leader.resolving[position]?
          some { leader with
            resolving := leader.resolving.eraseIdx position }

end Leader

end TrainPool
