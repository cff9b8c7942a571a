import TrainPool.Cluster.Views

namespace TrainPool

open Execution Leader

namespace Gossip

variable {score : Uuid → Nat}

/-- A request for the leader that one daemon has forwarded to another does not
come back to it, whoever starts, stops, expires or is not heard of meanwhile. -/
theorem forwarding_ascends {events : List GossipEvent} {final : Gossip}
    (steady : Along step (Steady score) empty events)
    (ran : run step empty events = some final) :
    ∀ call ∈ final.calls,
      (call.path.map (order score)).Pairwise (· ≤ ·) ∧
      ∀ front middle back id, call.path = front ++ id :: middle ++ id :: back →
        ∀ other ∈ middle, other = id := by
  have invariant := run_invariant_along
    (fun gossip => gossip.Sound score ∧
      ∀ call ∈ gossip.calls, Ascending score call)
    (by
      intro gossip event next given steady stepped
      obtain ⟨sound, ascending⟩ := given
      refine ⟨step_sound sound steady stepped, ?_⟩
      intro call member
      rcases (step_stepped stepped).calls call member with old | called
      · exact ascending call old
      · exact sound.called ascending called)
    ⟨empty_sound, fun _ member => absurd member List.not_mem_nil⟩ steady ran
  intro call member
  have ascending := invariant.2 call member
  refine ⟨ascending, ?_⟩
  intro front middle back id path other inside
  unfold Ascending at ascending
  rw [path, List.append_assoc, List.map_append, List.pairwise_append]
    at ascending
  have sorted := ascending.2.1
  rw [List.cons_append, List.map_cons, List.pairwise_cons, List.map_append,
    List.pairwise_append] at sorted
  have above := sorted.1 (order score other)
    (List.mem_append.mpr (.inl (List.mem_map_of_mem inside)))
  have below := sorted.2.2.2 (order score other)
    (List.mem_map_of_mem inside) (order score id) (by simp)
  exact order_injective (le_antisymm below above)

/-! Node 1 is the strongest of three, and node 3 hears of it through nobody. -/

def chainEvents : List GossipEvent :=
  [.start 0 (sampleNode 3 30), .start 0 (sampleNode 2 20),
    .start 0 (sampleNode 1 10), .exchange 3 2 [], .deliver 0 1 40 [],
    .deliver 0 1 40 [], .deliver 0 1 40 [], .exchange 2 1 [],
    .deliver 0 2 41 [], .deliver 0 2 41 [], .deliver 0 2 41 [], .call 3,
    .check 0, .forward 0, .check 0, .forward 0]

def chained : Gossip := (run step empty chainEvents).getD empty

theorem chain_runs : run step empty chainEvents = some chained := rfl

theorem chain_steady :
    Along step (Steady fun id => 100 - id) empty chainEvents := by
  apply Along.of_forall
  intro event member gossip
  simp only [chainEvents, List.mem_cons, List.not_mem_nil, or_false] at member
  rcases member with rfl | rfl | rfl | rfl | rfl | rfl | rfl | rfl | rfl |
    rfl | rfl | rfl | rfl | rfl | rfl | rfl
  any_goals exact trivial
  any_goals rfl

theorem forwarding_ascends_three :
    chained.calls = [⟨[3, 2, 1], false⟩] ∧
      ∀ call ∈ chained.calls,
        (call.path.map (order fun id => 100 - id)).Pairwise (· ≤ ·) ∧
        ∀ front middle back id,
          call.path = front ++ id :: middle ++ id :: back →
            ∀ other ∈ middle, other = id :=
  ⟨rfl, forwarding_ascends chain_steady chain_runs⟩

/-! One daemon leads. -/

def LeadsItself (leader : Uuid) (gossip : Gossip) : Prop :=
  ∃ daemon, gossip.daemons leader = some daemon ∧ daemon.membership.Leads

/-- What has been read of the leader since it leads speaks of its present
generation. -/
structure Leading (score : Uuid → Nat) (leader : Uuid) (since : Nat)
    (epoch : Uuid) (gossip : Gossip) : Prop where
  sound : gossip.Sound score
  own : ∃ daemon, gossip.daemons leader = some daemon ∧
    daemon.membership.generation = some epoch
  news : ∀ message ∈ gossip.flight, ∀ node, message.news = some node →
    node.nodeId = leader → since ≤ message.read →
      node.leaderGeneration = epoch
  views : ∀ id daemon, gossip.daemons id = some daemon → id ≠ leader →
    since ≤ gossip.heard id leader →
      ∀ peer, daemon.membership.peers.lookup leader = some peer →
        peer.capabilities.leaderGeneration = epoch

section

variable {gossip next : Gossip} {event : GossipEvent} {leader : Uuid}
  {since epoch : Nat}

theorem generation_of_local {members : Membership} {node : NodeCapabilities}
    (reads : members.localNode = some node) :
    members.generation = some node.leaderGeneration := by
  obtain ⟨peer, found, rfl⟩ := Option.map_eq_some_iff.mp reads
  unfold Membership.generation
  rw [found]
  rfl

theorem Sound.generation (sound : gossip.Sound score) {before : Leader}
    (runs : gossip.daemons leader = some before)
    (leads : before.membership.Leads) {members : Membership}
    (revised : Revised gossip next event leader before.membership members) :
    members.generation = before.membership.generation := by
  have viewed := sound.views leader before runs
  have turned : ∀ {changed : Membership} {drawn : Uuid},
      changed.localId = before.membership.localId →
      changed.generation = before.membership.generation →
      (changed.rotateLeader before.membership.leader drawn).generation =
        before.membership.generation := by
    intro changed drawn local_ same
    rcases Membership.rotateLeader_eq before.membership.leader drawn changed
      with ⟨differs, again, _⟩ | ⟨_, kept⟩
    · refine absurd ?_ differs
      exact again.trans ((congrArg some local_).trans leads.symm)
    · rw [kept]
      exact same
  cases revised with
  | kept => rfl
  | accepted now drawn message node member destination news foreign =>
      exact turned rfl (Membership.generation_update foreign)
  | told now message node member destination told =>
      have news : message.news = some node := by rw [Message.news, told]
      apply Membership.generation_update
      rw [(sound.news message member node news).1, viewed.localId,
        ← destination]
      exact sound.asks message member (.inr ⟨node, told⟩)
  | expired now drawn => exact turned rfl Membership.generation_expire
  | gpus detected => exact Membership.generation_refreshGpus detected

theorem Leading.revised (leading : Leading score leader since epoch gossip)
    {id : Uuid} {before : Leader} (runs : gossip.daemons id = some before)
    (different : id ≠ leader) {members : Membership}
    (revised : Revised gossip next event id before.membership members)
    (heard : since ≤ next.heard id leader) {peer : Peer}
    (found : members.peers.lookup leader = some peer) :
    peer.capabilities.leaderGeneration = epoch := by
  have viewed := leading.sound.views id before runs
  have other : leader ≠ before.membership.localId :=
    fun same => different (viewed.localId.symm.trans same.symm)
  have kept : next.heard id leader = gossip.heard id leader →
      before.membership.peers.lookup leader = some peer →
      peer.capabilities.leaderGeneration = epoch := by
    intro same stored
    exact leading.views id before runs different (same ▸ heard) peer stored
  have updated : ∀ {now : Nat} {message : Message} {node : NodeCapabilities},
      message ∈ gossip.flight → message.news = some node →
      next.heard id = Function.update (gossip.heard id) node.nodeId
        message.read →
      (before.membership.update now node).peers.lookup leader = some peer →
      peer.capabilities.leaderGeneration = epoch := by
    intro now message node member news hears stored
    rw [Membership.lookup_update] at stored
    by_cases about : leader = node.nodeId
    · rw [if_pos about] at stored
      cases stored
      rw [hears, about, Function.update_self] at heard
      exact leading.news message member node news about.symm heard
    · rw [if_neg about] at stored
      apply kept _ stored
      rw [hears, Function.update_of_ne about]
  have unturned : ∀ (changed : Membership) (drawn : Uuid),
      changed.localId = before.membership.localId →
      (changed.rotateLeader before.membership.leader drawn).peers.lookup
        leader = changed.peers.lookup leader := by
    intro changed drawn local_
    rcases Membership.lookup_rotate before.membership.leader drawn leader with
      same | ⟨own, _⟩
    · exact same
    · exact absurd (own.trans local_) other
  cases revised with
  | kept same => exact kept (congrFun same leader) found
  | accepted now drawn message node member destination news foreign hears =>
      rw [unturned (before.membership.update now node) drawn rfl] at found
      exact updated member news hears found
  | told now message node member destination told hears =>
      have news : message.news = some node := by rw [Message.news, told]
      exact updated member news hears found
  | expired now drawn same =>
      rw [unturned (before.membership.expire now).1 drawn rfl,
        Membership.lookup_expire] at found
      split at found
      · cases found
      · exact kept (congrFun same leader) found
  | gpus detected _ same =>
      rw [Membership.lookup_refreshGpus detected other] at found
      exact kept (congrFun same leader) found

theorem Sound.leading (sound : gossip.Sound score) {ruler : Leader}
    (rules : gossip.daemons leader = some ruler)
    (generation : ruler.membership.generation = some epoch) :
    Leading score leader gossip.clock epoch gossip where
  sound := sound
  own := ⟨ruler, rules, generation⟩
  news := by
    intro message member node news named since
    exact absurd (sound.read message member) (Nat.not_lt.mpr since)
  views := by
    intro id daemon runs different since
    exact absurd (sound.heard id leader) (Nat.not_lt.mpr since)

theorem step_leading (leading : Leading score leader since epoch gossip)
    (steady : gossip.Steady score event) (leads : LeadsItself leader gossip)
    (still : ∃ daemon, next.daemons leader = some daemon)
    (stepped : gossip.step event = some next) :
    Leading score leader since epoch next := by
  have sound := leading.sound
  have moves := step_stepped stepped
  obtain ⟨ruler, rules, leads⟩ := leads
  obtain ⟨daemon, runs, generation⟩ := leading.own
  cases rules.symm.trans runs
  refine ⟨step_sound sound steady stepped, ?_, ?_, ?_⟩
  · obtain ⟨after, found⟩ := still
    refine ⟨after, found, ?_⟩
    rcases moves.daemons leader after found with
      ⟨_, _, _, _, absent, _⟩ | ⟨before, ran, revised⟩
    · rw [rules] at absent
      cases absent
    · cases rules.symm.trans ran
      rw [sound.generation rules leads revised]
      exact generation
  · intro message member node news named since
    rcases moves.flight message member with old | sent
    · exact leading.news message old node news named since
    · obtain ⟨source, ran, reads⟩ := sent.news node news
      rw [← ((sound.sent sent).1 node news).1, named] at ran
      cases rules.symm.trans ran
      rw [generation_of_local reads] at generation
      exact Option.some.inj generation
  · intro id after found different heard peer stored
    rcases moves.daemons id after found with
      ⟨now, node, _, rfl, _, fresh⟩ | ⟨before, ran, revised⟩
    · rw [fresh] at stored
      unfold Membership.new at stored
      rw [Membership.lookup_update, if_neg (Ne.symm different)] at stored
      cases stored
    · exact leading.revised ran different revised heard stored

theorem run_leading {later : List GossipEvent} {final : Gossip}
    (leading : Leading score leader since epoch gossip)
    (along : Along step (fun gossip event =>
      gossip.Steady score event ∧ LeadsItself leader gossip) gossip later)
    (goes : run step gossip later = some final)
    (rules : ∃ daemon, final.daemons leader = some daemon) :
    Leading score leader since epoch final := by
  induction later generalizing gossip with
  | nil =>
      cases goes
      exact leading
  | cons event rest ih =>
      obtain ⟨next, stepped, goes⟩ := run_cons.mp goes
      obtain ⟨⟨steady, leads⟩, along⟩ := along
      have along := along next stepped
      have still : ∃ daemon, next.daemons leader = some daemon := by
        cases rest with
        | nil =>
            cases goes
            exact rules
        | cons other others =>
            obtain ⟨daemon, runs, _⟩ := along.1.2
            exact ⟨daemon, runs⟩
      exact ih (step_leading leading steady leads still stepped) along goes

end

/-- The views of the daemons are of those that run. -/
def Complete (gossip : Gossip) : Prop :=
  ∀ id daemon, gossip.daemons id = some daemon → ∀ other,
    (daemon.membership.peers.lookup other).isSome =
      (gossip.daemons other).isSome

/-- Where the views are complete, the daemon that leads in its own leads in
all. -/
theorem Sound.elects {gossip : Gossip} (sound : gossip.Sound score)
    (complete : gossip.Complete) {leader : Uuid} {ruler : Leader}
    (rules : gossip.daemons leader = some ruler)
    (leads : ruler.membership.Leads) {id : Uuid} {daemon : Leader}
    (runs : gossip.daemons id = some daemon) :
    ∃ peer, daemon.membership.peers.lookup leader = some peer ∧
      daemon.membership.leader =
        ⟨some leader, peer.capabilities.leaderGeneration, score leader⟩ := by
  have viewed := sound.views id daemon runs
  obtain ⟨_, present⟩ := viewed.own
  obtain ⟨elected, chosen, found, elects, most⟩ :=
    Membership.leader_spec viewed.keyed present
  have ruling := sound.views leader ruler rules
  have listed : (daemon.membership.peers.lookup leader).isSome = true := by
    rw [complete id daemon runs leader, rules]
    rfl
  obtain ⟨peer, known⟩ := Option.isSome_iff_exists.mp listed
  have running : (gossip.daemons elected).isSome = true := by
    rw [← complete id daemon runs elected, found]
    rfl
  have among : (ruler.membership.peers.lookup elected).isSome = true := by
    rw [complete leader ruler rules elected, running]
  obtain ⟨other, stored⟩ := Option.isSome_iff_exists.mp among
  obtain ⟨_, owned⟩ := ruling.own
  obtain ⟨strongest, own, held, leading, least⟩ :=
    Membership.leader_spec ruling.keyed owned
  have self : strongest = leader := by
    unfold Membership.Leads at leads
    rw [leading, ruling.localId] at leads
    exact Option.some.inj leads
  subst self
  -- Each of the two is in the view of the other.
  have below := least elected other stored
  have above := most strongest peer known
  unfold NodeCapabilities.rank at below above
  rw [ruling.keyed elected other stored, ruling.scores elected other stored,
    ruling.keyed strongest own held, ruling.scores strongest own held] at below
  rw [viewed.keyed strongest peer known, viewed.scores strongest peer known,
    viewed.keyed elected chosen found, viewed.scores elected chosen found]
    at above
  have same : elected = strongest :=
    order_injective (le_antisymm below above)
  subst same
  refine ⟨chosen, found, ?_⟩
  rw [elects, viewed.scores elected chosen found]

/-- Once a daemon leads in its own view, all daemons that have heard of it since
and whose views are complete have its leadership, generation and all. -/
theorem leaders_agree {events later : List GossipEvent}
    {start final : Gossip} {leader : Uuid} {ruler : Leader}
    (steady : Along step (Steady score) empty events)
    (ran : run step empty events = some start)
    (leading : Along step (fun gossip event =>
      gossip.Steady score event ∧ LeadsItself leader gossip) start later)
    (goes : run step start later = some final)
    (rules : final.daemons leader = some ruler)
    (leads : ruler.membership.Leads) (complete : final.Complete)
    (heard : ∀ id daemon, final.daemons id = some daemon → id ≠ leader →
      start.clock ≤ final.heard id leader) :
    ∀ id daemon, final.daemons id = some daemon →
      daemon.membership.leader = ruler.membership.leader := by
  have sound := run_invariant_along _
    (fun _ _ _ sound => step_sound sound) empty_sound steady ran
  have led : Leading score leader start.clock
      ruler.membership.leader.leaderEpoch final := by
    have begun : ∃ first, start.daemons leader = some first := by
      cases later with
      | nil =>
          cases goes
          exact ⟨ruler, rules⟩
      | cons event rest =>
          obtain ⟨daemon, runs, _⟩ := leading.1.2
          exact ⟨daemon, runs⟩
    obtain ⟨first, runs⟩ := begun
    obtain ⟨peer, own⟩ := (sound.views leader first runs).own
    have generation : first.membership.generation =
        some peer.capabilities.leaderGeneration := by
      unfold Membership.generation
      rw [(sound.views leader first runs).localId, own]
      rfl
    have led := run_leading (sound.leading runs generation) leading goes
      ⟨ruler, rules⟩
    obtain ⟨same, ruled, kept⟩ := led.own
    cases rules.symm.trans ruled
    rw [leads.epoch (led.sound.views leader ruler rules).keyed] at kept
    rw [Option.some.inj kept]
    exact led
  intro id daemon runs
  obtain ⟨peer, found, elects⟩ := led.sound.elects complete rules leads runs
  obtain ⟨own, held, elected⟩ := led.sound.elects complete rules leads rules
  have generation : ∀ {id : Uuid} {daemon : Leader} {peer : Peer},
      final.daemons id = some daemon →
      daemon.membership.peers.lookup leader = some peer →
      peer.capabilities.leaderGeneration =
        ruler.membership.leader.leaderEpoch := by
    intro id daemon peer runs found
    by_cases same : id = leader
    · subst same
      cases rules.symm.trans runs
      cases held.symm.trans found
      rw [elected]
    · exact led.views id daemon runs same (heard id daemon runs same) peer found
  rw [elects, elected, generation runs found, generation rules held]

/-! Node 2 hears of node 1, which has led since it started. -/

def pairEvents : List GossipEvent :=
  [.start 0 (sampleNode 2 20), .start 0 (sampleNode 1 10)]

def meetEvents : List GossipEvent :=
  [.exchange 2 1 [], .deliver 0 1 40 [], .deliver 0 1 40 [],
    .deliver 0 1 40 []]

def paired : Gossip := (run step empty pairEvents).getD empty

def met : Gossip := (run step paired meetEvents).getD empty

theorem pair_runs : run step empty pairEvents = some paired := rfl

theorem meet_runs : run step paired meetEvents = some met := rfl

theorem met_others {id : Uuid} (first : id ≠ 1) (second : id ≠ 2) :
    met.daemons id = none := by
  change @Function.update _ (fun _ => Option Leader) _ _ 2 _ id = none
  rw [Function.update_of_ne second]
  change @Function.update _ (fun _ => Option Leader) _ _ 1 _ id = none
  rw [Function.update_of_ne first]
  change @Function.update _ (fun _ => Option Leader) _ _ 1 _ id = none
  rw [Function.update_of_ne first]
  change @Function.update _ (fun _ => Option Leader) _ _ 2 _ id = none
  rw [Function.update_of_ne second]
  rfl

theorem meet_leading : Along step (fun gossip event =>
    gossip.Steady (fun id => 100 - id) event ∧ LeadsItself 1 gossip) paired
      meetEvents := by
  refine ⟨⟨trivial, _, rfl, rfl⟩, fun first stepped => ?_⟩
  cases stepped
  refine ⟨⟨trivial, _, rfl, rfl⟩, fun second stepped => ?_⟩
  cases stepped
  refine ⟨⟨trivial, _, rfl, rfl⟩, fun third stepped => ?_⟩
  cases stepped
  exact ⟨⟨trivial, _, rfl, rfl⟩, fun _ _ => trivial⟩

theorem met_view {id : Uuid} {daemon : Leader}
    (runs : met.daemons id = some daemon) :
    (id = 1 ∨ id = 2) ∧
      ∀ other, other ∈ daemon.membership.peers.keys ↔ other = 1 ∨ other = 2 := by
  by_cases first : id = 1
  · subst first
    cases runs
    refine ⟨.inl rfl, fun other => ?_⟩
    change other ∈ [2, 1] ↔ _
    simp [or_comm]
  by_cases second : id = 2
  · subst second
    cases runs
    refine ⟨.inr rfl, fun other => ?_⟩
    change other ∈ [1, 2] ↔ _
    simp
  rw [met_others first second] at runs
  cases runs

theorem met_complete : met.Complete := by
  intro id daemon runs other
  rw [Bool.eq_iff_iff, AList.lookup_isSome, AList.mem_keys, (met_view runs).2]
  by_cases first : other = 1
  · subst first
    exact iff_of_true (.inl rfl) rfl
  by_cases second : other = 2
  · subst second
    exact iff_of_true (.inr rfl) rfl
  · rw [met_others first second]
    simp [first, second]

theorem leaders_agree_two : ∃ ruler, met.daemons 1 = some ruler ∧
    ∀ id daemon, met.daemons id = some daemon →
      daemon.membership.leader = ruler.membership.leader := by
  refine ⟨_, rfl, leaders_agree ?_ pair_runs meet_leading meet_runs rfl rfl
    met_complete ?_⟩
  · exact ⟨rfl, fun _ stepped => by cases stepped; exact ⟨rfl, fun _ _ =>
      trivial⟩⟩
  · intro id daemon runs different
    rcases (met_view runs).1 with rfl | rfl
    · exact absurd rfl different
    · decide

end Gossip

end TrainPool
