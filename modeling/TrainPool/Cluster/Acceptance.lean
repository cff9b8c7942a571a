import Mathlib.Data.List.TakeWhile
import TrainPool.Cluster.Restart

namespace TrainPool

open Execution

namespace Leader

/-! `accept_peer` from its checks to its end, nothing else happening
meanwhile: what it returns, and what it leaves when a handle is refused. -/

/-- The check of a handle of the inventory. -/
def Owned (node : NodeCapabilities) (handle : MemoryBlockHandle) : Prop :=
  handle.ownerNode = node.nodeId ∧ handle.ownerIncarnation = node.incarnation

instance (node : NodeCapabilities) (handle : MemoryBlockHandle) :
    Decidable (Owned node handle) :=
  inferInstanceAs (Decidable (_ ∧ _))

def registerInventory (node : NodeCapabilities) : List MemoryBlockHandle →
    ResidencyTable → Result Unit × ResidencyTable
  | [], table => (.ok (), table)
  | handle :: rest, table =>
      if Owned node handle then
        registerInventory node rest (table.register handle)
      else
        (.error (.error "invalid inventory owner"), table)

def notice (node : NodeCapabilities) (leader : Leader) : Leader :=
  if leader.restarted node then
    leader.lose node.nodeId
      s!"TRAINPOOL_DATA_LOST: node {node.nodeId} restarted"
  else
    leader

/-- `accept_peer`; `now` and `epoch` are the clock and the fresh identifier
that its end takes. -/
def accept (now : Nat) (epoch : Uuid) (node : NodeCapabilities)
    (inventory : List MemoryBlockHandle) (leader : Leader) :
    Result Unit × Leader :=
  match leader.admitPeer node inventory with
  | .error failure => (.error failure, leader)
  | .ok () =>
      let noticed := leader.notice node
      match registerInventory node inventory noticed.residency with
      | (.error failure, table) =>
          (.error failure, { noticed with residency := table })
      | (.ok (), table) =>
          (.ok (), { noticed with
            residency := table
            membership := (noticed.membership.update now node).rotateLeader
              leader.membership.leader epoch })

section

variable {now : Nat} {epoch : Uuid} {node : NodeCapabilities}
  {inventory : List MemoryBlockHandle} {leader : Leader}

@[simp] theorem notice_membership :
    (leader.notice node).membership = leader.membership := by
  unfold notice
  split
  · rfl
  · rfl

theorem registerInventory_table (table : ResidencyTable) :
    (registerInventory node inventory table).2 =
      (inventory.takeWhile (Owned node ·)).foldl
        (fun table handle => table.register handle) table := by
  induction inventory generalizing table with
  | nil => rfl
  | cons handle rest induction =>
      unfold registerInventory
      by_cases owned : Owned node handle
      · simp [owned, induction]
      · simp [owned]

theorem registerInventory_ok (table : ResidencyTable) :
    (registerInventory node inventory table).1 = .ok () ↔
      ∀ handle ∈ inventory, Owned node handle := by
  induction inventory generalizing table with
  | nil => simp [registerInventory]
  | cons handle rest induction =>
      unfold registerInventory
      by_cases owned : Owned node handle
      · simp [owned, induction]
      · simp [owned]

theorem registerInventory_error {table : ResidencyTable} {failure : Fault}
    (refused : (registerInventory node inventory table).1 = .error failure) :
    failure = .error "invalid inventory owner" := by
  induction inventory generalizing table with
  | nil => cases refused
  | cons handle rest induction =>
      unfold registerInventory at refused
      split at refused
      · exact induction refused
      · cases refused
        rfl

theorem takeWhile_owned
    (owned : ∀ handle ∈ inventory, Owned node handle) :
    inventory.takeWhile (Owned node ·) = inventory :=
  List.takeWhile_eq_self_iff.mpr fun handle member =>
    decide_eq_true (owned handle member)

theorem lookup_rotateLeader {members : Membership} {before : Leadership}
    {id : Uuid} (other : id ≠ members.localId) :
    (members.rotateLeader before epoch).peers.lookup id =
      members.peers.lookup id := by
  unfold Membership.rotateLeader
  split
  · rw [Table.lookup_mapValues]
    simp only [other, ↓reduceIte, Option.map_id']
  · rfl

/-- Past its checks, `accept_peer` has noticed a restart and registered the
handles before the first foreign one, whether it fails there or not. -/
theorem accept_admitted
    (admitted : leader.admitPeer node inventory = .ok ()) :
    (leader.accept now epoch node inventory).2 =
      { leader.notice node with
        residency := (inventory.takeWhile (Owned node ·)).foldl
          (fun table handle => table.register handle)
          (leader.notice node).residency
        membership := (leader.accept now epoch node inventory).2.membership }
      := by
  unfold accept
  rw [admitted]
  simp only
  rw [← registerInventory_table]
  split
  · rename_i refused
    rw [refused]
  · rename_i done
    rw [done]

theorem accept_ok (returned :
    (leader.accept now epoch node inventory).1 = .ok ()) :
    leader.admitPeer node inventory = .ok () ∧
      (∀ handle ∈ inventory, Owned node handle) ∧
      (leader.accept now epoch node inventory).2.membership =
        (leader.membership.update now node).rotateLeader
          leader.membership.leader epoch := by
  unfold accept at returned ⊢
  cases admitted : leader.admitPeer node inventory with
  | error failure =>
      rw [admitted] at returned
      cases returned
  | ok =>
      rw [admitted] at returned
      simp only at returned ⊢
      split at returned
      · cases returned
      · rename_i table done
        have owned := (registerInventory_ok (leader.notice node).residency).mp
          (by rw [done])
        exact ⟨trivial, owned, by rw [notice_membership]⟩

theorem accept_error {failure : Fault} (returned :
    (leader.accept now epoch node inventory).1 = .error failure) :
    (leader.accept now epoch node inventory).2.membership =
        leader.membership ∧
      (leader.admitPeer node inventory = .error failure ∧
          (leader.accept now epoch node inventory).2 = leader ∨
        leader.admitPeer node inventory = .ok () ∧
          failure = .error "invalid inventory owner" ∧
          ∃ handle ∈ inventory, ¬Owned node handle) := by
  unfold accept at returned ⊢
  cases admitted : leader.admitPeer node inventory with
  | error reason =>
      rw [admitted] at returned
      cases returned
      exact ⟨rfl, .inl ⟨rfl, rfl⟩⟩
  | ok =>
      rw [admitted] at returned
      simp only at returned ⊢
      split at returned
      · rename_i reason table done
        cases returned
        have refused : (registerInventory node inventory
            (leader.notice node).residency).1 = .error failure := by rw [done]
        refine ⟨notice_membership, .inr ⟨trivial,
          registerInventory_error refused, ?_⟩⟩
        by_contra none_foreign
        have owned : ∀ handle ∈ inventory, Owned node handle := by
          intro handle member
          by_contra foreign
          exact none_foreign ⟨handle, member, foreign⟩
        rw [(registerInventory_ok _).mpr owned] at refused
        cases refused
      · cases returned

theorem inventory_run (before : Leadership) (begun : leader.accepting =
      some ⟨node, inventory, before⟩) :
    ∃ events, (∀ event ∈ events,
        event = .inventory ∨ event = .update now epoch) ∧
      run step leader events = some
        { leader with
          accepting := none
          residency :=
            (registerInventory node inventory leader.residency).2
          membership :=
            match (registerInventory node inventory leader.residency).1 with
            | .ok () => (leader.membership.update now node).rotateLeader
                before epoch
            | .error _ => leader.membership } := by
  induction inventory generalizing leader with
  | nil =>
      refine ⟨[.update now epoch], by simp, ?_⟩
      simp [run, step, begun, registerInventory]
  | cons handle rest induction =>
      by_cases owned : Owned node handle
      · have stepped : leader.step .inventory = some { leader with
            residency := leader.residency.register handle
            accepting := some ⟨node, rest, before⟩ } := by
          have mine : handle.ownerNode = node.nodeId ∧
              handle.ownerIncarnation = node.incarnation := owned
          simp only [step, begun, acceptNext]
          rw [if_pos mine]
        obtain ⟨events, kinds, ran⟩ := @induction { leader with
          residency := leader.residency.register handle
          accepting := some ⟨node, rest, before⟩ } rfl
        refine ⟨.inventory :: events, ?_, run_cons.mpr ⟨_, stepped, ?_⟩⟩
        · intro event member
          rcases List.mem_cons.mp member with rfl | later
          · exact .inl rfl
          · exact kinds event later
        · rw [ran]
          simp [registerInventory, owned]
      · refine ⟨[.inventory], by simp, ?_⟩
        have stepped : leader.step .inventory =
            some { leader with accepting := none } := by
          have foreign : ¬(handle.ownerNode = node.nodeId ∧
              handle.ownerIncarnation = node.incarnation) := owned
          simp only [step, begun, acceptNext]
          rw [if_neg foreign]
        rw [run, stepped]
        simp [registerInventory, owned]

theorem accept_run (now : Nat) (epoch : Uuid)
    (free : leader.accepting = none) :
    ∃ events, (∀ event ∈ events,
        event = .inventory ∨ event = .update now epoch) ∧
      run step leader (.exchange node inventory :: events) =
        some (leader.accept now epoch node inventory).2 := by
  have stepped : leader.step (.exchange node inventory) =
      some (leader.acceptPeer node inventory) := by
    simp only [step, free]
  cases admitted : leader.admitPeer node inventory with
  | error failure =>
      refine ⟨[], by simp, run_cons.mpr ⟨_, stepped, ?_⟩⟩
      simp [acceptPeer, accept, admitted]
  | ok =>
      have begun : leader.acceptPeer node inventory =
          { leader.notice node with
            accepting := some ⟨node, inventory, leader.membership.leader⟩ }
          := by
        simp only [acceptPeer, admitted]
        rfl
      obtain ⟨events, kinds, ran⟩ := @inventory_run now epoch node inventory
        (leader.acceptPeer node inventory) leader.membership.leader
        (by rw [begun])
      refine ⟨events, kinds, run_cons.mpr ⟨_, stepped, ?_⟩⟩
      rw [ran, begun]
      have idle : (leader.notice node).accepting = none := by
        unfold notice
        split
        · exact free
        · exact free
      simp only [accept, admitted]
      cases registered : registerInventory node inventory
        (leader.notice node).residency with
      | mk result table =>
          cases result with
          | error failure => rw [idle]
          | ok =>
              rw [← idle]

/-- `accept_peer` that returns has offered every handle and recorded the node.
One that fails leaves the membership as it was; what its checks refuse leaves
everything, and a foreign handle leaves what was done before it: the loss of a
restarted node and the registrations of the handles in front. -/
theorem acceptance_effects (leader : Leader) (now : Nat) (epoch : Uuid)
    (node : NodeCapabilities) (inventory : List MemoryBlockHandle) :
    ((leader.accept now epoch node inventory).1 = .ok () →
      (leader.accept now epoch node inventory).2.residency =
        inventory.foldl (fun table handle => table.register handle)
          (leader.notice node).residency ∧
      (leader.accept now epoch node inventory).2.membership.peers.lookup
        node.nodeId = some ⟨node, now⟩) ∧
    ∀ failure, (leader.accept now epoch node inventory).1 = .error failure →
      (leader.accept now epoch node inventory).2.membership =
        leader.membership ∧
      (leader.admitPeer node inventory ≠ .ok () →
        (leader.accept now epoch node inventory).2 = leader) ∧
      (leader.admitPeer node inventory = .ok () →
        (leader.accept now epoch node inventory).2 =
          { leader.notice node with
            residency := (inventory.takeWhile (Owned node ·)).foldl
              (fun table handle => table.register handle)
              (leader.notice node).residency }) ∧
      (leader.restarted node = false →
        (∀ handle ∈ inventory.head?, ¬Owned node handle) →
        (leader.accept now epoch node inventory).2 = leader) := by
  constructor
  · intro returned
    obtain ⟨admitted, owned, members⟩ := accept_ok returned
    constructor
    · rw [accept_admitted admitted, takeWhile_owned owned]
    · rw [members]
      have other : node.nodeId ≠
          (leader.membership.update now node).localId := by
        unfold admitPeer at admitted
        simp only [ensure_bind_ok] at admitted
        exact admitted.1
      rw [lookup_rotateLeader other]
      exact AList.lookup_insert _
  · intro failure returned
    obtain ⟨members, cause⟩ := accept_error returned
    have partly (admitted : leader.admitPeer node inventory = .ok ()) :
        (leader.accept now epoch node inventory).2 =
          { leader.notice node with
            residency := (inventory.takeWhile (Owned node ·)).foldl
              (fun table handle => table.register handle)
              (leader.notice node).residency } := by
      have whole := @accept_admitted now epoch node inventory leader admitted
      have kept : (leader.accept now epoch node inventory).2.membership =
          (leader.notice node).membership :=
        members.trans notice_membership.symm
      rw [kept] at whole
      exact whole
    refine ⟨members, fun refused => ?_, partly, fun stayed foreign => ?_⟩
    · rcases cause with ⟨_, same⟩ | ⟨admitted, _⟩
      · exact same
      · exact absurd admitted refused
    · rcases cause with ⟨_, same⟩ | ⟨admitted, _⟩
      · exact same
      · have unnoticed : leader.notice node = leader := by
          unfold notice
          rw [stayed]
          rfl
        have nothing : inventory.takeWhile (Owned node ·) = [] := by
          cases inventory with
          | nil => rfl
          | cons handle rest =>
              have first := foreign handle rfl
              simp [first]
        rw [partly admitted, nothing, unnoticed]
        rfl

end

def sampleLeader : Leader :=
  ((fresh 0 (sampleNode 1 10) sampleJobs).accept 1 0 (sampleNode 2 20)
    [abcReady]).2

/-- A new block of node 2, restarted, and the block it had before. -/
def sampleInventory : List MemoryBlockHandle :=
  [{ abcReady with id := 8, ownerIncarnation := 21 }, abcReady]

/-- The foreign handle is refused once the job of the node has failed, its
block is lost and the handle before it is registered. -/
theorem refused_acceptance_tears :
    (sampleLeader.accept 2 0 (sampleNode 2 21) sampleInventory).1 =
        .error (.error "invalid inventory owner") ∧
      sampleLeader.jobs.lookup 3 = some ⟨[], 6, none⟩ ∧
      (sampleLeader.accept 2 0 (sampleNode 2 21)
        sampleInventory).2.jobs.lookup 3 =
          some ⟨[], 6, some "TRAINPOOL_DATA_LOST: node 2 restarted"⟩ ∧
      sampleLeader.residency.lookup 8 = none ∧
      (sampleLeader.accept 2 0 (sampleNode 2 21)
        sampleInventory).2.residency.lookup 8 =
          some { abcReady with id := 8, ownerIncarnation := 21 } :=
  ⟨rfl, rfl, by decide +kernel, rfl, rfl⟩

end Leader

end TrainPool
