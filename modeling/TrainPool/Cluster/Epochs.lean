import Mathlib.Data.List.Induction
import TrainPool.Cluster.Restart

namespace TrainPool

open Execution

namespace Membership

/-- This daemon is the leader in its own view. -/
def Leads (members : Membership) : Prop :=
  members.leader.leaderId = some members.localId

instance (members : Membership) : Decidable members.Leads :=
  inferInstanceAs (Decidable (_ = _))

def generation (members : Membership) : Option Uuid :=
  (members.peers.lookup members.localId).map
    (·.capabilities.leaderGeneration)

def Keyed (members : Membership) : Prop :=
  ∀ id peer, members.peers.lookup id = some peer →
    peer.capabilities.nodeId = id

/-- The refresh of the GPUs by the monitor: `detected` has the memory of those
that the driver reports, in the order in which they are recorded. -/
def refreshGpus (detected : List (Option Nat)) (members : Membership) :
    Membership :=
  { members with
    peers := members.peers.mapValues fun id peer =>
      if id = members.localId then
        { peer with capabilities :=
          { peer.capabilities with
            vramTotals := peer.capabilities.vramTotals.mapIdx
              fun index old => detected[index]?.join.getD old } }
      else
        peer }

section Election

variable {members : Membership}

theorem foldl_stronger_mem {nodes : List NodeCapabilities}
    {best : Option NodeCapabilities} {node : NodeCapabilities}
    (elected : nodes.foldl stronger best = some node) :
    best = some node ∨ node ∈ nodes := by
  induction nodes generalizing best with
  | nil => exact .inl elected
  | cons first rest ih =>
      rcases ih elected with met | later
      · unfold stronger at met
        split at met
        · exact .inr (List.mem_cons.mpr (.inl (Option.some.inj met).symm))
        · split at met
          · exact .inr (List.mem_cons.mpr (.inl (Option.some.inj met).symm))
          · exact .inl met
      · exact .inr (List.mem_cons_of_mem _ later)

theorem elect_mem {nodes : List NodeCapabilities} {id : Uuid}
    (elected : (elect nodes).leaderId = some id) :
    ∃ node ∈ nodes, node.nodeId = id ∧
      (elect nodes).leaderEpoch = node.leaderGeneration := by
  unfold elect at elected ⊢
  cases found : nodes.foldl stronger none with
  | none =>
      rw [found] at elected
      cases elected
  | some node =>
      rw [found] at elected
      rcases foldl_stronger_mem found with none_ | member
      · cases none_
      · exact ⟨node, member, Option.some.inj elected, rfl⟩

theorem foldl_stronger_map {change : NodeCapabilities → NodeCapabilities}
    (ids : ∀ node, (change node).nodeId = node.nodeId)
    (scores : ∀ node, (change node).electionScore = node.electionScore)
    (nodes : List NodeCapabilities) (best : Option NodeCapabilities) :
    (nodes.map change).foldl stronger (best.map change) =
      (nodes.foldl stronger best).map change := by
  induction nodes generalizing best with
  | nil => rfl
  | cons node rest ih =>
      have first : stronger (best.map change) (change node) =
          (stronger best node).map change := by
        cases best with
        | none => rfl
        | some best =>
            simp only [stronger, Option.map_some, ids, scores]
            split
            · rfl
            · rfl
      rw [List.map_cons, List.foldl_cons, List.foldl_cons, first, ih]

theorem leaderId_elect_map {change : NodeCapabilities → NodeCapabilities}
    (ids : ∀ node, (change node).nodeId = node.nodeId)
    (scores : ∀ node, (change node).electionScore = node.electionScore)
    (nodes : List NodeCapabilities) :
    (elect (nodes.map change)).leaderId = (elect nodes).leaderId := by
  have folded := foldl_stronger_map ids scores nodes none
  rw [Option.map_none] at folded
  unfold elect
  rw [folded]
  cases nodes.foldl stronger none with
  | none => rfl
  | some node => exact congrArg some (ids node)

theorem Leads.epoch (keyed : members.Keyed) (leads : members.Leads) :
    members.generation = some members.leader.leaderEpoch := by
  obtain ⟨node, member, same, epoch⟩ := elect_mem leads
  obtain ⟨entry, among, rfl⟩ := List.mem_map.mp member
  have found := Table.mem_entries.mp among
  have key := keyed entry.1 entry.2 found
  rw [key] at same
  unfold generation
  rw [← same, found]
  exact congrArg some epoch.symm

end Election

section Changes

variable {members : Membership} {now : Nat} {epoch : Uuid}
  {before : Leadership} {capabilities : NodeCapabilities}

theorem Keyed.mapValues (keyed : members.Keyed) {change : Uuid → Peer → Peer}
    (ids : ∀ id peer, (change id peer).capabilities.nodeId =
      peer.capabilities.nodeId) :
    ({ members with peers := members.peers.mapValues change } :
      Membership).Keyed := by
  intro id peer found
  rw [show ({ members with peers := members.peers.mapValues change } :
      Membership).peers = members.peers.mapValues change from rfl,
    Table.lookup_mapValues] at found
  obtain ⟨old, stored, rfl⟩ := Option.map_eq_some_iff.mp found
  rw [ids]
  exact keyed id old stored

theorem Keyed.update (keyed : members.Keyed) (now : Nat)
    (capabilities : NodeCapabilities) :
    (members.update now capabilities).Keyed := by
  intro id peer found
  unfold Membership.update at found
  rw [show ({ members with
      peers := members.peers.insert capabilities.nodeId ⟨capabilities, now⟩ } :
        Membership).peers = members.peers.insert capabilities.nodeId
          ⟨capabilities, now⟩ from rfl, Table.lookup_insert_eq] at found
  split at found
  · rename_i same
    cases found
    exact same.symm
  · exact keyed id peer found

theorem Keyed.expire (keyed : members.Keyed) (now : Nat) :
    (members.expire now).1.Keyed := by
  intro id peer found
  unfold Membership.expire at found
  simp only [lookup_foldl_erase] at found
  split at found
  · cases found
  · exact keyed id peer found

/-- `rotate_leader` gives this daemon a new generation when it became the
leader, and changes nothing else. -/
theorem rotateLeader_eq (before : Leadership) (epoch : Uuid)
    (members : Membership) :
    (members.leader.leaderId ≠ before.leaderId ∧ members.Leads ∧
      members.rotateLeader before epoch = { members with
        peers := members.peers.mapValues fun id peer =>
          if id = members.localId then
            { peer with capabilities :=
              { peer.capabilities with leaderGeneration := epoch } }
          else
            peer }) ∨
    (members.Leads → members.leader.leaderId = before.leaderId) ∧
      members.rotateLeader before epoch = members := by
  unfold rotateLeader
  split
  · rename_i turned
    exact .inl ⟨turned.1, turned.2, rfl⟩
  · rename_i same
    refine .inr ⟨fun leads => ?_, rfl⟩
    by_contra differs
    exact same ⟨differs, leads⟩

theorem leads_rotate (keyed : members.Keyed) (epoch : Uuid) :
    (elect (({ members with
      peers := members.peers.mapValues fun id peer =>
        if id = members.localId then
          { peer with capabilities :=
            { peer.capabilities with leaderGeneration := epoch } }
        else
          peer } : Membership).nodes)).leaderId =
      (elect members.nodes).leaderId := by
  let change (node : NodeCapabilities) : NodeCapabilities :=
    if node.nodeId = members.localId then
      { node with leaderGeneration := epoch }
    else
      node
  have ids : ∀ node, (change node).nodeId = node.nodeId := by
    intro node
    simp only [change]
    split
    · rfl
    · rfl
  have scores : ∀ node, (change node).electionScore = node.electionScore := by
    intro node
    simp only [change]
    split
    · rfl
    · rfl
  rw [← leaderId_elect_map ids scores members.nodes]
  congr 2
  unfold nodes
  simp only [Table.mapValues, List.map_map]
  refine List.map_congr_left fun entry member => ?_
  have key := keyed entry.1 entry.2 (Table.mem_entries.mp member)
  simp only [Function.comp_apply, change]
  by_cases own : entry.1 = members.localId
  · rw [if_pos own, if_pos (key.trans own)]
  · rw [if_neg own, if_neg (fun same => own (key.symm.trans same))]

/-- What `rotate_leader` leaves: a daemon that became the leader has the new
generation. -/
theorem rotateLeader_spec (keyed : members.Keyed) (before : Leadership)
    (epoch : Uuid) :
    (members.rotateLeader before epoch).localId = members.localId ∧
      (members.rotateLeader before epoch).Keyed ∧
      ((members.rotateLeader before epoch).Leads ↔ members.Leads) ∧
      ((members.rotateLeader before epoch).generation = members.generation ∧
          (members.Leads → members.leader.leaderId = before.leaderId) ∨
        (members.rotateLeader before epoch).generation =
          members.generation.map fun _ => epoch) := by
  rcases rotateLeader_eq before epoch members with
    ⟨_, _, rotated⟩ | ⟨same, kept⟩
  · rw [rotated]
    refine ⟨rfl, ?_, ?_, .inr ?_⟩
    · refine keyed.mapValues fun id peer => ?_
      split
      · rfl
      · rfl
    · exact Eq.congr_left (leads_rotate keyed epoch)
    · unfold generation
      rw [Table.lookup_mapValues, Option.map_map, Option.map_map]
      congr 1
      funext peer
      simp
  · rw [kept]
    exact ⟨rfl, keyed, Iff.rfl, .inl ⟨rfl, same⟩⟩

theorem generation_update (foreign : capabilities.nodeId ≠ members.localId) :
    (members.update now capabilities).generation = members.generation := by
  unfold generation update
  rw [show ({ members with
      peers := members.peers.insert capabilities.nodeId ⟨capabilities, now⟩ } :
        Membership).localId = members.localId from rfl]
  rw [AList.lookup_insert_ne (Ne.symm foreign)]

theorem generation_expire :
    (members.expire now).1.generation = members.generation := by
  have alive : members.localId ∉ members.dead now := by
    unfold dead
    rw [List.mem_insertionSort]
    simp
  unfold generation expire
  simp only [lookup_foldl_erase]
  rw [if_neg alive]

theorem generation_refreshGpus (detected : List (Option Nat)) :
    (members.refreshGpus detected).generation = members.generation := by
  unfold generation refreshGpus
  simp only [Table.lookup_mapValues, Option.map_map]
  congr 1

theorem Keyed.refreshGpus (keyed : members.Keyed)
    (detected : List (Option Nat)) : (members.refreshGpus detected).Keyed := by
  refine keyed.mapValues fun id peer => ?_
  split
  · rfl
  · rfl

end Changes

end Membership

/-! The runs of a daemon that can change who leads in its view. -/

inductive ViewEvent where
  | leader (event : LeaderEvent)
  | gpus (detected : List (Option Nat))
  deriving DecidableEq

namespace ViewEvent

def step (leader : Leader) : ViewEvent → Option Leader
  | .leader event => leader.step event
  | .gpus detected =>
      match leader.accepting with
      | some _ => none
      | none => some { leader with
          membership := leader.membership.refreshGpus detected }

def epoch : ViewEvent → Option Uuid
  | .leader (.update _ epoch) => some epoch
  | .leader (.expire _ epoch) => some epoch
  | _ => none

/-- An update of the membership that does not go through `rotate_leader` is
not about this daemon and does not make it the leader. -/
def Harmless (leader : Leader) : ViewEvent → Prop
  | .leader (.refresh now capabilities) =>
      capabilities.nodeId ≠ leader.membership.localId ∧
        ((leader.membership.update now capabilities).Leads →
          leader.membership.Leads)
  | .gpus detected =>
      (leader.membership.refreshGpus detected).Leads →
        leader.membership.Leads
  | _ => True

instance (leader : Leader) (event : ViewEvent) :
    Decidable (event.Harmless leader) := by
  unfold Harmless
  split
  · infer_instance
  · infer_instance
  · infer_instance

end ViewEvent

namespace Leader

open ViewEvent

structure Watched (leader : Leader) : Prop where
  keyed : leader.membership.Keyed
  accepting : ∀ exchange, leader.accepting = some exchange →
    exchange.node.nodeId ≠ leader.membership.localId ∧
      exchange.before = leader.membership.leader

/-- What a harmless step does to the leadership of this daemon: it draws its
own generation anew whenever it becomes the leader. -/
structure Turns (leader next : Leader) (event : ViewEvent) : Prop where
  generation : next.membership.generation = leader.membership.generation ∨
    ∃ epoch, event.epoch = some epoch ∧
      next.membership.generation =
        leader.membership.generation.map fun _ => epoch
  leads : next.membership.Leads → leader.membership.Leads ∨
    ∃ epoch, event.epoch = some epoch ∧
      next.membership.generation =
        leader.membership.generation.map fun _ => epoch

section Turns

variable {leader next : Leader} {event : ViewEvent}

theorem turns_of_same (same : next.membership = leader.membership) :
    Turns leader next event := by
  refine ⟨.inl (by rw [same]), fun leads => .inl ?_⟩
  rw [← same]
  exact leads

/-- A change of other peers that ends in `rotate_leader`. -/
theorem turns_of_rotate {changed : Membership} {epoch : Uuid}
    (keyed : changed.Keyed)
    (own : changed.generation = leader.membership.generation)
    (local_ : changed.localId = leader.membership.localId)
    (draws : event.epoch = some epoch)
    (rotated : next.membership =
      changed.rotateLeader leader.membership.leader epoch) :
    Turns leader next event := by
  obtain ⟨_, _, leads, generation⟩ :=
    Membership.rotateLeader_spec keyed leader.membership.leader epoch
  rw [← rotated, own] at generation
  rw [← rotated] at leads
  rcases generation with ⟨kept, led⟩ | renewed
  · refine ⟨.inl kept, fun now => .inl ?_⟩
    have before := led (leads.mp now)
    have id := leads.mp now
    unfold Membership.Leads at id ⊢
    rw [← before, id, local_]
  · exact ⟨.inr ⟨epoch, draws, renewed⟩, fun _ => .inr ⟨epoch, draws, renewed⟩⟩

theorem same_turns (watched : leader.Watched)
    (same : next.membership = leader.membership)
    (accepting : ∀ exchange, next.accepting = some exchange →
      exchange.node.nodeId ≠ leader.membership.localId ∧
        exchange.before = leader.membership.leader) :
    next.Watched ∧ (event.Harmless leader → Turns leader next event) := by
  refine ⟨⟨?_, ?_⟩, fun _ => turns_of_same same⟩
  · rw [same]
    exact watched.keyed
  · rw [same]
    exact accepting

/-- A step that changes other peers and ends in `rotate_leader`. -/
theorem rotate_turns {changed : Membership} {epoch : Uuid}
    (keyed : changed.Keyed)
    (own : changed.generation = leader.membership.generation)
    (local_ : changed.localId = leader.membership.localId)
    (draws : event.epoch = some epoch)
    (rotated : next.membership =
      changed.rotateLeader leader.membership.leader epoch)
    (free : next.accepting = none) :
    next.Watched ∧ (event.Harmless leader → Turns leader next event) := by
  obtain ⟨_, kept, _⟩ := Membership.rotateLeader_spec keyed
    leader.membership.leader epoch
  refine ⟨⟨?_, ?_⟩,
    fun _ => turns_of_rotate keyed own local_ draws rotated⟩
  · rw [rotated]
    exact kept
  · intro exchange accepted
    cases free.symm.trans accepted

theorem admit_foreign {node : NodeCapabilities}
    {inventory : List MemoryBlockHandle}
    (admitted : leader.admitPeer node inventory = .ok ()) :
    node.nodeId ≠ leader.membership.localId := by
  unfold admitPeer at admitted
  rw [ensure_bind_ok] at admitted
  exact admitted.1

theorem exchange_turns {node : NodeCapabilities}
    {inventory : List MemoryBlockHandle} (watched : leader.Watched)
    (stepped : leader.step (.exchange node inventory) = some next) :
    next.Watched ∧ ((ViewEvent.leader (.exchange node inventory)).Harmless
      leader → Turns leader next (.leader (.exchange node inventory))) := by
  simp only [step] at stepped
  split at stepped <;> cases stepped
  unfold acceptPeer
  split
  · exact same_turns watched rfl watched.accepting
  · rename_i admitted
    apply same_turns watched
    · dsimp only
      split <;> rfl
    · intro exchange accepted
      cases accepted
      exact ⟨admit_foreign admitted, rfl⟩

theorem inventory_turns (watched : leader.Watched)
    (stepped : leader.step .inventory = some next) :
    next.Watched ∧ ((ViewEvent.leader .inventory).Harmless leader →
      Turns leader next (.leader .inventory)) := by
  simp only [step] at stepped
  split at stepped
  · rename_i node handle rest before accepted
    cases stepped
    unfold acceptNext
    split
    · refine same_turns watched rfl ?_
      intro exchange accepted'
      cases accepted'
      exact watched.accepting ⟨node, handle :: rest, before⟩ accepted
    · refine same_turns watched rfl ?_
      intros
      contradiction
  · cases stepped

theorem update_turns {now : Nat} {epoch : Uuid} (watched : leader.Watched)
    (stepped : leader.step (.update now epoch) = some next) :
    next.Watched ∧ ((ViewEvent.leader (.update now epoch)).Harmless leader →
      Turns leader next (.leader (.update now epoch))) := by
  simp only [step] at stepped
  split at stepped
  · rename_i node before accepted
    cases stepped
    obtain ⟨foreign, same⟩ := watched.accepting _ accepted
    change before = leader.membership.leader at same
    subst same
    exact rotate_turns (watched.keyed.update now node)
      (Membership.generation_update foreign) rfl rfl rfl rfl
  · cases stepped

theorem expire_turns {now : Nat} {epoch : Uuid} (watched : leader.Watched)
    (stepped : leader.step (.expire now epoch) = some next) :
    next.Watched ∧ ((ViewEvent.leader (.expire now epoch)).Harmless leader →
      Turns leader next (.leader (.expire now epoch))) := by
  simp only [step] at stepped
  split at stepped
  · cases stepped
  · rename_i free
    cases stepped
    have frame := (foldl_lose_frame (fun id =>
      s!"TRAINPOOL_DATA_LOST: data stored exclusively on node {id}")
        (leader.membership.expire now).2 leader).2.1
    exact rotate_turns (watched.keyed.expire now)
      Membership.generation_expire rfl rfl rfl (frame.trans free)

theorem step_leader_turns {event : LeaderEvent} (watched : leader.Watched)
    (stepped : leader.step event = some next) :
    next.Watched ∧ ((ViewEvent.leader event).Harmless leader →
      Turns leader next (.leader event)) := by
  cases event with
  | exchange node inventory => exact exchange_turns watched stepped
  | inventory => exact inventory_turns watched stepped
  | update now epoch => exact update_turns watched stepped
  | expire now epoch => exact expire_turns watched stepped
  | refresh now capabilities =>
      simp only [step] at stepped
      split at stepped
      · cases stepped
      · rename_i free
        cases stepped
        refine ⟨⟨watched.keyed.update now capabilities, ?_⟩, ?_⟩
        · intro exchange accepted
          cases free.symm.trans accepted
        · intro harmless
          exact ⟨.inl (Membership.generation_update harmless.1),
            fun leads => .inl (harmless.2 leads)⟩
  | request handle previous leadership =>
      simp only [step] at stepped
      split at stepped
      · cases stepped
      · split at stepped <;> cases stepped
        · exact same_turns watched rfl watched.accepting
        · exact same_turns watched rfl watched.accepting
  | register position =>
      simp only [step] at stepped
      obtain ⟨⟨handle, previous⟩, pending, stepped⟩ :=
        Option.bind_eq_some_iff.mp stepped
      split at stepped <;> cases stepped
      · exact same_turns watched rfl watched.accepting
      · exact same_turns watched rfl watched.accepting
  | lookup now id token =>
      simp only [step] at stepped
      split at stepped <;> cases stepped
      · exact same_turns watched rfl watched.accepting
      · exact same_turns watched rfl watched.accepting
  | answer position =>
      simp only [step] at stepped
      split at stepped
      · cases stepped
      · obtain ⟨_, _, stepped⟩ := Option.bind_eq_some_iff.mp stepped
        cases stepped
        exact same_turns watched rfl watched.accepting

/-- The steps of the daemon keep the invariant and, if they are harmless, turn
the leadership as told. -/
theorem step_turns (watched : leader.Watched)
    (stepped : event.step leader = some next) :
    next.Watched ∧ (event.Harmless leader → Turns leader next event) := by
  cases event with
  | leader event => exact step_leader_turns watched stepped
  | gpus detected =>
      simp only [ViewEvent.step] at stepped
      split at stepped
      · cases stepped
      · rename_i free
        cases stepped
        refine ⟨⟨watched.keyed.refreshGpus detected, ?_⟩, ?_⟩
        · intro exchange accepted
          cases free.symm.trans accepted
        · intro harmless
          exact ⟨.inl (Membership.generation_refreshGpus detected),
            fun leads => .inl (harmless leads)⟩

end Turns

section Runs

variable {start final : Leader} {events : List ViewEvent}

theorem run_generation (watched : start.Watched)
    (along : Along (fun leader event => event.step leader)
      (fun leader event => event.Harmless leader) start events)
    (ran : run (fun leader event => event.step leader) start events =
      some final) :
    final.Watched ∧
      (final.membership.generation = start.membership.generation ∨
        ∃ epoch ∈ events.filterMap ViewEvent.epoch,
          final.membership.generation =
            start.membership.generation.map fun _ => epoch) ∧
      (final.membership.Leads → start.membership.Leads ∨
        ∃ epoch ∈ events.filterMap ViewEvent.epoch,
          final.membership.generation =
            start.membership.generation.map fun _ => epoch) := by
  induction events using List.reverseRecOn generalizing final with
  | nil =>
      cases ran
      exact ⟨watched, .inl rfl, .inl⟩
  | append_singleton front event ih =>
      obtain ⟨middle, ranFront, stepped⟩ := run_snoc.mp ran
      obtain ⟨alongFront, alongLast⟩ := along.append ranFront
      obtain ⟨watched', generation, leads⟩ := ih alongFront ranFront
      obtain ⟨kept, turns⟩ := step_turns watched' stepped
      have turns := turns alongLast.1
      have among : ∀ epoch ∈ front.filterMap ViewEvent.epoch,
          epoch ∈ (front ++ [event]).filterMap ViewEvent.epoch := by
        intro epoch member
        rw [List.filterMap_append]
        exact List.mem_append_left _ member
      have drawn : (∃ epoch, event.epoch = some epoch ∧
            final.membership.generation =
              middle.membership.generation.map fun _ => epoch) →
          ∃ epoch ∈ (front ++ [event]).filterMap ViewEvent.epoch,
            final.membership.generation =
              start.membership.generation.map fun _ => epoch := by
        intro draws
        obtain ⟨epoch, draws, renewed⟩ := draws
        refine ⟨epoch, ?_, ?_⟩
        · rw [List.filterMap_append]
          exact List.mem_append_right _ (by simp [draws])
        · rcases generation with same | ⟨_, _, earlier⟩
          · rw [renewed, same]
          · rw [renewed, earlier, Option.map_map]
            rfl
      refine ⟨kept, ?_, ?_⟩
      · rcases turns.generation with same | draws
        · rw [same]
          rcases generation with unchanged | ⟨epoch, member, earlier⟩
          · exact .inl unchanged
          · exact .inr ⟨epoch, among epoch member, earlier⟩
        · exact .inr (drawn draws)
      · intro now
        rcases turns.leads now with led | draws
        · rcases leads led with began | ⟨epoch, member, earlier⟩
          · exact .inl began
          · rcases turns.generation with same | draws
            · rw [same]
              exact .inr ⟨epoch, among epoch member, earlier⟩
            · exact .inr (drawn draws)
        · exact .inr (drawn draws)

theorem fresh_watched (now : Nat) (node : NodeCapabilities) (jobs : Jobs) :
    (Leader.fresh now node jobs).Watched := by
  refine ⟨?_, nofun⟩
  have empty : (⟨node.nodeId, ∅⟩ : Membership).Keyed := by
    intro id peer found
    cases (AList.lookup_empty id).symm.trans found
  exact empty.update now node

theorem fresh_generation (now : Nat) (node : NodeCapabilities)
    (jobs : Jobs) :
    (Leader.fresh now node jobs).membership.generation =
      some node.leaderGeneration := by
  have stored : (Leader.fresh now node jobs).membership.peers.lookup
      node.nodeId = some ⟨node, now⟩ := AList.lookup_insert _
  unfold Membership.generation
  rw [show (Leader.fresh now node jobs).membership.localId = node.nodeId
    from rfl, stored]
  rfl

/-- A daemon whose view changes only through `rotate_leader`, or harmlessly,
never leads again under an epoch under which it led before. -/
theorem epochs_not_reused (now : Nat) (node : NodeCapabilities) (jobs : Jobs)
    (before between after : List ViewEvent)
    (distinct : (node.leaderGeneration ::
      (before ++ between ++ after).filterMap ViewEvent.epoch).Nodup)
    (along : Along (fun leader event => event.step leader)
      (fun leader event => event.Harmless leader)
      (Leader.fresh now node jobs) (before ++ between ++ after))
    {first middle last : Leader}
    (led : run (fun leader event => event.step leader)
      (Leader.fresh now node jobs) before = some first)
    (lost : run (fun leader event => event.step leader) first between =
      some middle)
    (again : run (fun leader event => event.step leader) middle after =
      some last)
    (leads : first.membership.Leads) (follows : ¬middle.membership.Leads)
    (leads' : last.membership.Leads) :
    first.membership.leader.leaderEpoch ≠
      last.membership.leader.leaderEpoch := by
  obtain ⟨along, alongAfter⟩ :=
    along.append (run_append.mpr ⟨first, led, lost⟩)
  obtain ⟨alongBefore, alongBetween⟩ := along.append led
  obtain ⟨watched, earlier, _⟩ :=
    run_generation (fresh_watched now node jobs) alongBefore led
  obtain ⟨watched', _, _⟩ := run_generation watched alongBetween lost
  obtain ⟨watched'', _, rises⟩ := run_generation watched' alongAfter again
  have epoch := leads.epoch watched.keyed
  have epoch' := leads'.epoch watched''.keyed
  rw [fresh_generation] at earlier
  obtain ⟨renewed, member, drawn⟩ := (rises leads').resolve_left follows
  rw [drawn] at epoch'
  obtain ⟨_, _, rfl⟩ := Option.map_eq_some_iff.mp epoch'
  rw [List.filterMap_append, List.filterMap_append] at distinct
  obtain ⟨absent, distinct⟩ := List.nodup_cons.mp distinct
  have apart := (List.nodup_append'.mp distinct).2.2
  intro same
  rcases earlier with initial | ⟨renewed', member', drawn'⟩
  · rw [initial] at epoch
    rw [Option.some.inj epoch, same] at absent
    exact absent (List.mem_append_right _ member)
  · rw [drawn', Option.map_some] at epoch
    have drew := Option.some.inj epoch
    rw [same] at drew
    subst drew
    exact apart (List.mem_append_left _ member') member

end Runs

def sampleReturn : List ViewEvent × List ViewEvent :=
  ([.leader (.exchange (sampleNode 1 10) []), .leader (.update 0 40)],
    [.leader (.expire 8000000000 41)])

/-- Node 2 leads again because an `Allocate` hears of less memory on node 1. -/
def sampleShrink : List ViewEvent :=
  [.leader (.refresh 0 { sampleNode 1 10 with physicalRamTotal := 0 })]

def sampleView : Leader := .fresh 0 (sampleNode 2 20) ∅

theorem epochs_not_reused_sample :
    ∃ middle last,
      run (fun leader event => ViewEvent.step leader event) sampleView
          sampleReturn.1 = some middle ∧
        run (fun leader event => ViewEvent.step leader event) middle
          sampleReturn.2 = some last ∧
        sampleView.membership.leader.leaderEpoch ≠
          last.membership.leader.leaderEpoch := by
  refine ⟨_, _, rfl, rfl, ?_⟩
  exact epochs_not_reused 0 (sampleNode 2 20) ∅ [] sampleReturn.1
    sampleReturn.2 (by decide) ⟨trivial, fun _ _ => ⟨trivial, fun _ _ =>
      ⟨trivial, fun _ _ => trivial⟩⟩⟩ rfl rfl rfl (by decide) (by decide)
    (by decide)

/-- The epoch of node 2 is the same before and after node 1 led. -/
theorem epoch_reused :
    ∃ middle last,
      run (fun leader event => ViewEvent.step leader event) sampleView
          sampleReturn.1 = some middle ∧
        run (fun leader event => ViewEvent.step leader event) middle
          sampleShrink = some last ∧
        sampleView.membership.Leads ∧ ¬middle.membership.Leads ∧
        last.membership.Leads ∧
        sampleView.membership.leader.leaderEpoch =
          last.membership.leader.leaderEpoch := by
  refine ⟨_, _, rfl, rfl, ?_⟩
  decide

end Leader

end TrainPool
