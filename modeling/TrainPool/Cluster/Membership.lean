import TrainPool.Basic
import TrainPool.Library.Table
import Mathlib.Data.List.Sort

namespace TrainPool

/-- What a node announces of itself, as far as membership reads it. -/
structure NodeCapabilities where
  nodeId : Uuid
  incarnation : Uuid
  leaderGeneration : Uuid
  physicalRamTotal : Nat
  vramTotals : List Nat
  controlAddress : SocketAddr
  chunkBytes : Nat
  deriving DecidableEq, Repr

/-- `u64::saturating_add`. -/
def saturatingAdd (left right : Nat) : Nat :=
  min (left + right) (2 ^ 64 - 1)

def NodeCapabilities.electionScore (node : NodeCapabilities) : Nat :=
  node.vramTotals.foldl saturatingAdd node.physicalRamTotal

structure Leadership where
  leaderId : Option Uuid
  leaderEpoch : Uuid
  electionScore : Nat
  deriving DecidableEq, Repr

def stronger (best : Option NodeCapabilities) (node : NodeCapabilities) :
    Option NodeCapabilities :=
  match best with
  | none => some node
  | some best =>
      if best.electionScore < node.electionScore ∨
          best.electionScore = node.electionScore ∧
            best.nodeId ≤ node.nodeId then
        some node
      else
        some best

def elect (nodes : List NodeCapabilities) : Leadership :=
  match nodes.foldl stronger none with
  | some node => ⟨some node.nodeId, node.leaderGeneration, node.electionScore⟩
  | none => ⟨none, 0, 0⟩

def peerTimeout : Nat := 7 * 1000000000

structure Peer where
  capabilities : NodeCapabilities
  lastSeen : Nat
  deriving DecidableEq, Repr

structure Membership where
  localId : Uuid
  peers : Table Uuid Peer
  deriving DecidableEq

namespace Membership

def update (now : Nat) (capabilities : NodeCapabilities)
    (members : Membership) : Membership :=
  { members with
    peers := members.peers.insert capabilities.nodeId ⟨capabilities, now⟩ }

def new (now : Nat) (capabilities : NodeCapabilities) : Membership :=
  update now capabilities ⟨capabilities.nodeId, ∅⟩

/-- The peers that were not heard of for too long, in the order of their
identifiers. -/
def dead (now : Nat) (members : Membership) : List Uuid :=
  ((members.peers.entries.filter fun entry =>
      entry.1 ≠ members.localId ∧
        peerTimeout < now - entry.2.lastSeen).map Sigma.fst).insertionSort
    (· ≤ ·)

def expire (now : Nat) (members : Membership) : Membership × List Uuid :=
  ({ members with
      peers := (members.dead now).foldl (fun peers id => peers.erase id)
        members.peers },
    members.dead now)

def nodes (members : Membership) : List NodeCapabilities :=
  members.peers.entries.map fun entry => entry.2.capabilities

def leader (members : Membership) : Leadership := elect members.nodes

/-- `rotate_leader`; `epoch` is the fresh identifier of a new leadership of
this node. -/
def rotateLeader (before : Leadership) (epoch : Uuid)
    (members : Membership) : Membership :=
  if members.leader.leaderId ≠ before.leaderId ∧
      members.leader.leaderId = some members.localId then
    { members with
      peers := members.peers.mapValues fun id peer =>
        if id = members.localId then
          { peer with capabilities :=
            { peer.capabilities with leaderGeneration := epoch } }
        else
          peer }
  else
    members

def address (node : Uuid) (members : Membership) : Result SocketAddr :=
  match members.peers.lookup node with
  | some peer => .ok peer.capabilities.controlAddress
  | none => .error (.error s!"TRAINPOOL_NODE_UNAVAILABLE: {node}")

def incarnation (node : Uuid) (members : Membership) : Option Uuid :=
  (members.peers.lookup node).map (·.capabilities.incarnation)

theorem incarnation_update (now : Nat) (capabilities : NodeCapabilities)
    (members : Membership) (node : Uuid) :
    (members.update now capabilities).incarnation node =
      if node = capabilities.nodeId then some capabilities.incarnation
      else members.incarnation node := by
  simp only [incarnation, update, Table.lookup_insert_eq]
  split
  · rfl
  · rfl

@[simp] theorem incarnation_rotateLeader (before : Leadership) (epoch : Uuid)
    (members : Membership) (node : Uuid) :
    (members.rotateLeader before epoch).incarnation node =
      members.incarnation node := by
  unfold rotateLeader
  split
  · simp only [incarnation, Table.lookup_mapValues, Option.map_map]
    congr 1
    funext peer
    simp only [Function.comp_apply]
    split
    · rfl
    · rfl
  · rfl

theorem lookup_foldl_erase (ids : List Uuid) (peers : Table Uuid Peer)
    (node : Uuid) :
    (ids.foldl (fun peers id => peers.erase id) peers).lookup node =
      if node ∈ ids then none else peers.lookup node := by
  induction ids generalizing peers with
  | nil => simp
  | cons id rest ih =>
      rw [List.foldl_cons, ih, Table.lookup_erase_eq]
      by_cases first : node = id
      · simp [first]
      · simp [first]

theorem incarnation_expire (now : Nat) (members : Membership)
    (node : Uuid) :
    (members.expire now).1.incarnation node =
      if node ∈ members.dead now then none
      else members.incarnation node := by
  simp only [incarnation, expire, lookup_foldl_erase]
  split
  · rfl
  · rfl

theorem address_ok {node : Uuid} {members : Membership}
    {address : SocketAddr} (found : members.address node = .ok address) :
    members.incarnation node ≠ none := by
  unfold Membership.address at found
  split at found
  · rename_i present
    simp [incarnation, present]
  · cases found

end Membership

end TrainPool
