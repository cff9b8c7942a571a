import Mathlib.Data.Prod.Lex
import TrainPool.Cluster.Gossip

namespace TrainPool

open Execution

/-! What the views of all daemons have in common, and the way of a request to
the leader. -/

def NodeCapabilities.rank (node : NodeCapabilities) : Nat ×ₗ Nat :=
  toLex (node.electionScore, node.nodeId)

theorem stronger_some (best node : NodeCapabilities) :
    stronger (some best) node =
      if best.rank ≤ node.rank then some node else some best := by
  unfold stronger NodeCapabilities.rank
  simp only [Prod.Lex.toLex_le_toLex]

theorem foldl_stronger_max {nodes : List NodeCapabilities}
    {best : Option NodeCapabilities} {node : NodeCapabilities}
    (elected : nodes.foldl stronger best = some node) :
    (∀ other, best = some other → other.rank ≤ node.rank) ∧
      ∀ other ∈ nodes, other.rank ≤ node.rank := by
  induction nodes generalizing best with
  | nil =>
      refine ⟨?_, nofun⟩
      intro other same
      rw [List.foldl_nil, same] at elected
      cases elected
      exact le_refl _
  | cons first rest ih =>
      obtain ⟨chosen, others⟩ := ih elected
      have least : ∀ other, best = some other → other.rank ≤ node.rank := by
        intro other same
        subst same
        rw [stronger_some] at chosen
        by_cases weaker : other.rank ≤ first.rank
        · rw [if_pos weaker] at chosen
          exact weaker.trans (chosen first rfl)
        · rw [if_neg weaker] at chosen
          exact chosen other rfl
      refine ⟨least, ?_⟩
      intro other member
      rcases List.mem_cons.mp member with rfl | later
      · cases best with
        | none => exact chosen other rfl
        | some champion =>
            rw [stronger_some] at chosen
            by_cases weaker : champion.rank ≤ other.rank
            · rw [if_pos weaker] at chosen
              exact chosen other rfl
            · exact (le_of_not_ge weaker).trans (least champion rfl)
      · exact others other later

theorem foldl_stronger_some (nodes : List NodeCapabilities)
    (best : NodeCapabilities) :
    ∃ node, nodes.foldl stronger (some best) = some node := by
  induction nodes generalizing best with
  | nil => exact ⟨best, rfl⟩
  | cons first rest ih =>
      rw [List.foldl_cons, stronger_some]
      split
      · exact ih first
      · exact ih best

namespace Membership

variable {members : Membership}

theorem leader_spec (keyed : members.Keyed) {id : Uuid} {peer : Peer}
    (present : members.peers.lookup id = some peer) :
    ∃ leader chosen, members.peers.lookup leader = some chosen ∧
      members.leader = ⟨some leader, chosen.capabilities.leaderGeneration,
        chosen.capabilities.electionScore⟩ ∧
      ∀ other peer, members.peers.lookup other = some peer →
        peer.capabilities.rank ≤ chosen.capabilities.rank := by
  have member : ∀ {other : Uuid} {peer : Peer},
      members.peers.lookup other = some peer →
      peer.capabilities ∈ members.nodes := fun found =>
    List.mem_map.mpr ⟨_, Table.mem_entries.mpr found, rfl⟩
  have nonempty : ∃ node, members.nodes.foldl stronger none = some node := by
    cases listed : members.nodes with
    | nil =>
        have inside := member present
        rw [listed] at inside
        cases inside
    | cons first rest => exact foldl_stronger_some rest first
  obtain ⟨node, elected⟩ := nonempty
  rcases foldl_stronger_mem elected with none_ | inside
  · cases none_
  obtain ⟨entry, among, rfl⟩ := List.mem_map.mp inside
  have found := Table.mem_entries.mp among
  refine ⟨entry.1, entry.2, found, ?_, ?_⟩
  · unfold leader elect
    rw [elected, ← keyed entry.1 entry.2 found]
  · intro other peer stored
    exact (foldl_stronger_max elected).2 _ (member stored)

/-- The view of a daemon of itself and of others, each with the score that it
has. -/
structure Viewed (score : Uuid → Nat) (id : Uuid) (members : Membership) :
    Prop where
  localId : members.localId = id
  keyed : members.Keyed
  own : ∃ peer, members.peers.lookup id = some peer
  scores : ∀ other peer, members.peers.lookup other = some peer →
    peer.capabilities.electionScore = score other

section

variable {score : Uuid → Nat} {id : Uuid} {now : Nat} {epoch : Uuid}

theorem lookup_update (now : Nat) (node : NodeCapabilities) (other : Uuid) :
    (members.update now node).peers.lookup other =
      if other = node.nodeId then some ⟨node, now⟩
      else members.peers.lookup other :=
  Table.lookup_insert_eq _ _ _ _

theorem lookup_expire (now : Nat) (other : Uuid) :
    (members.expire now).1.peers.lookup other =
      if other ∈ members.dead now then none
      else members.peers.lookup other :=
  lookup_foldl_erase _ _ _

theorem local_not_dead (now : Nat) : members.localId ∉ members.dead now := by
  unfold dead
  rw [List.mem_insertionSort]
  simp

theorem lookup_rotate (before : Leadership) (epoch other : Uuid) :
    (members.rotateLeader before epoch).peers.lookup other =
        members.peers.lookup other ∨
      other = members.localId ∧
      (members.rotateLeader before epoch).peers.lookup other =
        (members.peers.lookup other).map fun peer =>
          { peer with capabilities :=
            { peer.capabilities with leaderGeneration := epoch } } := by
  rcases rotateLeader_eq before epoch members with
    ⟨_, _, rotated⟩ | ⟨_, kept⟩
  · rw [rotated]
    by_cases own : other = members.localId
    · refine .inr ⟨own, ?_⟩
      rw [Table.lookup_mapValues]
      simp only [if_pos own]
    · refine .inl ?_
      rw [Table.lookup_mapValues]
      simp only [if_neg own, Option.map_id']
  · rw [kept]
    exact .inl rfl

theorem Viewed.rotate (viewed : members.Viewed score id)
    (before : Leadership) (epoch : Uuid) :
    (members.rotateLeader before epoch).Viewed score id := by
  obtain ⟨local_, keyed, _, _⟩ := rotateLeader_spec viewed.keyed before epoch
  refine ⟨local_.trans viewed.localId, keyed, ?_, ?_⟩
  · obtain ⟨peer, found⟩ := viewed.own
    rcases lookup_rotate before epoch id with same | ⟨_, changed⟩
    · exact ⟨peer, same.trans found⟩
    · rw [changed, found]
      exact ⟨_, rfl⟩
  · intro other peer found
    rcases lookup_rotate before epoch other with same | ⟨_, changed⟩
    · exact viewed.scores other peer (same.symm.trans found)
    · rw [changed] at found
      obtain ⟨old, stored, rfl⟩ := Option.map_eq_some_iff.mp found
      exact viewed.scores other old stored

theorem Viewed.update (viewed : members.Viewed score id) (now : Nat)
    {node : NodeCapabilities}
    (announced : node.electionScore = score node.nodeId) :
    (members.update now node).Viewed score id := by
  refine ⟨viewed.localId, viewed.keyed.update now node, ?_, ?_⟩
  · rw [lookup_update]
    split
    · exact ⟨_, rfl⟩
    · exact viewed.own
  · intro other peer found
    rw [lookup_update] at found
    split at found
    · rename_i same
      cases found
      rw [same]
      exact announced
    · exact viewed.scores other peer found

theorem Viewed.expire (viewed : members.Viewed score id) (now : Nat) :
    (members.expire now).1.Viewed score id := by
  refine ⟨viewed.localId, viewed.keyed.expire now, ?_, ?_⟩
  · rw [lookup_expire, if_neg (viewed.localId ▸ local_not_dead now)]
    exact viewed.own
  · intro other peer found
    rw [lookup_expire] at found
    split at found
    · cases found
    · exact viewed.scores other peer found

theorem lookup_refreshGpus (detected : List (Option Nat)) {other : Uuid}
    (foreign : other ≠ members.localId) :
    (members.refreshGpus detected).peers.lookup other =
      members.peers.lookup other := by
  unfold refreshGpus
  rw [Table.lookup_mapValues]
  simp only [if_neg foreign, Option.map_id']

theorem Viewed.refreshGpus (viewed : members.Viewed score id)
    (detected : List (Option Nat))
    (steady : ∀ node, (members.refreshGpus detected).localNode = some node →
      node.electionScore = score id) :
    (members.refreshGpus detected).Viewed score id := by
  refine ⟨viewed.localId, viewed.keyed.refreshGpus detected, ?_, ?_⟩
  · obtain ⟨peer, found⟩ := viewed.own
    unfold Membership.refreshGpus
    rw [Table.lookup_mapValues, found]
    exact ⟨_, rfl⟩
  · intro other peer found
    by_cases own : other = members.localId
    · subst own
      rw [viewed.localId]
      apply steady
      unfold localNode
      rw [show (members.refreshGpus detected).localId = members.localId from
        rfl, found]
      rfl
    · rw [lookup_refreshGpus detected own] at found
      exact viewed.scores other peer found

theorem new_viewed (now : Nat) {node : NodeCapabilities}
    (announced : node.electionScore = score node.nodeId) :
    (Membership.new now node).Viewed score node.nodeId := by
  have found : ∀ other peer,
      (Membership.new now node).peers.lookup other = some peer →
      other = node.nodeId ∧ peer = ⟨node, now⟩ := by
    intro other peer found
    unfold Membership.new at found
    rw [lookup_update] at found
    split at found
    · rename_i same
      cases found
      exact ⟨same, rfl⟩
    · cases found
  refine ⟨rfl, ?_, ?_, ?_⟩
  · intro other peer stored
    obtain ⟨rfl, rfl⟩ := found other peer stored
    rfl
  · unfold Membership.new
    rw [lookup_update, if_pos rfl]
    exact ⟨_, rfl⟩
  · intro other peer stored
    obtain ⟨rfl, rfl⟩ := found other peer stored
    exact announced

end

end Membership

namespace Gossip

variable {score : Uuid → Nat} {gossip next : Gossip} {event : GossipEvent}

/-- Whatever starts under an identifier has its score, and keeps it when the
GPUs are looked at again. -/
def Steady (score : Uuid → Nat) (gossip : Gossip) : GossipEvent → Prop
  | .start _ node => node.electionScore = score node.nodeId
  | .gpus id detected => ∀ daemon, gossip.daemons id = some daemon →
      ∀ node, (daemon.membership.refreshGpus detected).localNode = some node →
        node.electionScore = score id
  | _ => True

structure Sound (score : Uuid → Nat) (gossip : Gossip) : Prop where
  views : ∀ id daemon, gossip.daemons id = some daemon →
    daemon.membership.Viewed score id
  news : ∀ message ∈ gossip.flight, ∀ node, message.news = some node →
    node.nodeId = message.source ∧ node.electionScore = score node.nodeId
  asks : ∀ message ∈ gossip.flight,
    (message.content = .ask ∨ ∃ node, message.content = .told node) →
      message.source ≠ message.destination
  read : ∀ message ∈ gossip.flight, message.read < gossip.clock
  heard : ∀ id other, gossip.heard id other < gossip.clock

theorem empty_sound : empty.Sound score where
  views := nofun
  news := nofun
  asks := nofun
  read := nofun
  heard := fun _ _ => Nat.one_pos

theorem Sound.revised (sound : gossip.Sound score)
    (steady : gossip.Steady score event) {id : Uuid} {before : Leader}
    (runs : gossip.daemons id = some before) {members : Membership}
    (revised : Revised gossip next event id before.membership members) :
    members.Viewed score id := by
  have viewed := sound.views id before runs
  cases revised with
  | kept => exact viewed
  | accepted now epoch message node member _ news =>
      exact (viewed.update now (sound.news message member node news).2).rotate
        _ epoch
  | told now message node member _ told =>
      have news : message.news = some node := by rw [Message.news, told]
      exact viewed.update now (sound.news message member node news).2
  | expired now epoch => exact (viewed.expire now).rotate _ epoch
  | gpus detected same =>
      subst same
      exact viewed.refreshGpus detected (steady before runs)

theorem Sound.sent (sound : gossip.Sound score) {message : Message}
    (sent : gossip.Sent message) :
    (∀ node, message.news = some node → node.nodeId = message.source ∧
        node.electionScore = score node.nodeId) ∧
      ((message.content = .ask ∨ ∃ node, message.content = .told node) →
        message.source ≠ message.destination) := by
  refine ⟨?_, ?_⟩
  · intro node news
    obtain ⟨daemon, runs, reads⟩ := sent.news node news
    have viewed := sound.views message.source daemon runs
    obtain ⟨peer, found, rfl⟩ := Option.map_eq_some_iff.mp reads
    rw [viewed.localId] at found
    have named := viewed.keyed message.source peer found
    refine ⟨named, ?_⟩
    rw [named]
    exact viewed.scores message.source peer found
  · intro asked
    rcases asked with asked | ⟨node, told⟩
    · exact sent.asks asked
    · obtain ⟨earlier, member, asked, source, destination⟩ :=
        sent.told node told
      rw [← source, ← destination]
      exact (sound.asks earlier member (.inl asked)).symm

theorem step_sound (sound : gossip.Sound score)
    (steady : gossip.Steady score event)
    (stepped : gossip.step event = some next) : next.Sound score := by
  have moves := step_stepped stepped
  refine ⟨?_, ?_, ?_, ?_, ?_⟩
  · intro id daemon runs
    rcases moves.daemons id daemon runs with
      ⟨now, node, rfl, rfl, _, fresh⟩ | ⟨before, ran, revised⟩
    · rw [fresh]
      exact Membership.new_viewed now steady
    · exact sound.revised steady ran revised
  · intro message member
    rcases moves.flight message member with old | sent
    · exact sound.news message old
    · exact (sound.sent sent).1
  · intro message member
    rcases moves.flight message member with old | sent
    · exact sound.asks message old
    · exact (sound.sent sent).2
  · intro message member
    rw [moves.clock]
    rcases moves.flight message member with old | sent
    · exact Nat.lt_succ_of_lt (sound.read message old)
    · rw [sent.read]
      exact Nat.lt_succ_self _
  · intro id other
    rw [moves.clock]
    have before := sound.heard id other
    rcases moves.heard id with same | ⟨message, member, about, changed⟩
    · rw [same]
      exact Nat.lt_succ_of_lt before
    · rw [changed]
      by_cases own : other = about
      · rw [own, Function.update_self]
        exact Nat.lt_succ_of_lt (sound.read message member)
      · rw [Function.update_of_ne own]
        exact Nat.lt_succ_of_lt before

/-! The way of a request to the leader. -/

def order (score : Uuid → Nat) (id : Uuid) : Nat ×ₗ Nat :=
  toLex (score id, id)

theorem order_injective {left right : Uuid}
    (same : order score left = order score right) : left = right :=
  congrArg (fun key => (ofLex key).2) same

theorem Sound.ascends (sound : gossip.Sound score) {id leader : Uuid}
    {daemon : Leader} (runs : gossip.daemons id = some daemon)
    (leads : daemon.membership.leader.leaderId = some leader) :
    order score id ≤ order score leader := by
  have viewed := sound.views id daemon runs
  obtain ⟨own, present⟩ := viewed.own
  obtain ⟨strongest, chosen, found, elected, most⟩ :=
    Membership.leader_spec viewed.keyed present
  rw [elected] at leads
  cases leads
  have ranked := most id own present
  unfold NodeCapabilities.rank at ranked
  rw [viewed.keyed id own present, viewed.keyed leader chosen found,
    viewed.scores id own present, viewed.scores leader chosen found] at ranked
  exact ranked

def Ascending (score : Uuid → Nat) (call : LeaderCall) : Prop :=
  (call.path.map (order score)).Pairwise (· ≤ ·)

theorem Sound.called (sound : gossip.Sound score)
    (ascending : ∀ call ∈ gossip.calls, Ascending score call)
    {call : LeaderCall} (called : gossip.Called call) :
    Ascending score call := by
  cases called with
  | begun id => exact List.pairwise_singleton _ _
  | checked before member => exact ascending before member
  | forwarded before id leader daemon member last runs leads =>
      have sorted := ascending before member
      have next := sound.ascends runs leads
      obtain ⟨front, path⟩ := List.getLast?_eq_some_iff.mp last
      unfold Ascending at sorted ⊢
      rw [List.map_append, List.pairwise_append]
      refine ⟨sorted, List.pairwise_singleton _ _, ?_⟩
      intro key member other single
      cases List.mem_singleton.mp single
      rw [path, List.map_append, List.pairwise_append] at sorted
      rw [path, List.map_append] at member
      rcases List.mem_append.mp member with early | final
      · exact (sorted.2.2 key early _ (List.mem_singleton.mpr rfl)).trans next
      · cases List.mem_singleton.mp final
        exact next

end Gossip

end TrainPool
