import TrainPool.Cluster.Acceptance
import TrainPool.Cluster.Epochs

namespace TrainPool

/-! Several daemons, each with its own view of the membership: how they hear of
each other, and how a request of a client finds the leader. -/

/-- What a message asks or brings.  `owed` is the turn of a daemon that has
accepted an exchange and has yet to read its own capabilities. -/
inductive Content where
  | request (node : NodeCapabilities) (inventory : List MemoryBlockHandle)
  | owed
  | answer (node : NodeCapabilities) (inventory : List MemoryBlockHandle)
  | ask
  | told (node : NodeCapabilities)
  deriving DecidableEq, Repr

/-- A message under way.  `read` is the step at which it was made. -/
structure Message where
  source : Uuid
  destination : Uuid
  content : Content
  read : Nat
  deriving DecidableEq, Repr

def Message.news (message : Message) : Option NodeCapabilities :=
  match message.content with
  | .request node _ | .answer node _ | .told node => some node
  | .owed | .ask => none

/-- A request for the leader: the daemons that have had it, the last of which
has it now, and has `checked` that it does not lead. -/
structure LeaderCall where
  path : List Uuid
  checked : Bool
  deriving DecidableEq, Repr

/-- The daemons that run, and what is under way between them.  `clock` counts
the steps; `heard` is the step at which what a daemon has last heard of another
was read. -/
structure Gossip where
  daemons : Uuid → Option Leader
  flight : List Message
  calls : List LeaderCall
  clock : Nat
  heard : Uuid → Uuid → Nat

/-- What happens next.  A `deliver` brings the clock, the fresh identifier and
the inventory that the daemon takes. -/
inductive GossipEvent where
  | start (now : Nat) (node : NodeCapabilities)
  | stop (id : Uuid)
  | exchange (source destination : Uuid) (inventory : List MemoryBlockHandle)
  | ask (source destination : Uuid)
  | deliver (position now : Nat) (epoch : Uuid)
      (inventory : List MemoryBlockHandle)
  | lose (position : Nat)
  | expire (id : Uuid) (now : Nat) (epoch : Uuid)
  | gpus (id : Uuid) (detected : List (Option Nat))
  | call (id : Uuid)
  | check (position : Nat)
  | forward (position : Nat)
  | finish (position : Nat)
  deriving DecidableEq, Repr

/-- `Runtime::local` -/
def Membership.localNode (members : Membership) : Option NodeCapabilities :=
  (members.peers.lookup members.localId).map Peer.capabilities

namespace Gossip

def empty : Gossip where
  daemons _ := none
  flight := []
  calls := []
  clock := 1
  heard _ _ := 0

def setDaemon (id : Uuid) (daemon : Option Leader) (gossip : Gossip) :
    Gossip :=
  { gossip with daemons := Function.update gossip.daemons id daemon }

def send (source destination : Uuid) (content : Content) (gossip : Gossip) :
    Gossip :=
  { gossip with flight := gossip.flight ++
    [⟨source, destination, content, gossip.clock⟩] }

def hear (message : Message) (node : NodeCapabilities) (daemon : Leader)
    (gossip : Gossip) : Gossip :=
  { gossip.setDaemon message.destination (some daemon) with
    heard := Function.update gossip.heard message.destination
      (Function.update (gossip.heard message.destination) node.nodeId
        message.read) }

/-- The destination of a message gets it; it has been taken out of the
flight. -/
def receive (now : Nat) (epoch : Uuid) (inventory : List MemoryBlockHandle)
    (message : Message) (gossip : Gossip) : Option Gossip := do
  let daemon ← gossip.daemons message.destination
  match message.content with
  | .request node handles =>
      match daemon.accept now epoch node handles with
      | (.ok (), accepted) => some ((gossip.hear message node accepted).send
          message.source message.destination .owed)
      -- The error answer ends the exchange.
      | (.error _, refused) =>
          some (gossip.setDaemon message.destination (some refused))
  | .owed => do
      let node ← daemon.membership.localNode
      some (gossip.send message.destination message.source
        (.answer node inventory))
  | .answer node handles =>
      match daemon.accept now epoch node handles with
      | (.ok (), accepted) => some (gossip.hear message node accepted)
      | (.error _, refused) =>
          some (gossip.setDaemon message.destination (some refused))
  | .ask => do
      let node ← daemon.membership.localNode
      some (gossip.send message.destination message.source (.told node))
  | .told node => some (gossip.hear message node { daemon with
      membership := daemon.membership.update now node })

/-- The first half of `control`: a daemon that does not lead in its view will
forward the request. -/
def check (call : LeaderCall) (gossip : Gossip) : Option LeaderCall := do
  let id ← call.path.getLast?
  let daemon ← gossip.daemons id
  if call.checked || daemon.membership.leader.leaderId = some id then
    none
  else
    some { call with checked := true }

/-- `forward_leader`, which reads the leadership again. -/
def forward (call : LeaderCall) (gossip : Gossip) : Option LeaderCall := do
  let id ← call.path.getLast?
  let daemon ← gossip.daemons id
  let leader ← daemon.membership.leader.leaderId
  let _ ← gossip.daemons leader
  if call.checked then some ⟨call.path ++ [leader], false⟩ else none

def advance (gossip : Gossip) : GossipEvent → Option Gossip
  | .start now node =>
      match gossip.daemons node.nodeId with
      | some _ => none
      | none => some (gossip.setDaemon node.nodeId
          (some (Leader.fresh now node ∅)))
  -- What it was to receive or to forward is lost with it.
  | .stop id => some { gossip.setDaemon id none with
      flight := gossip.flight.filter (·.destination ≠ id)
      calls := gossip.calls.filter (·.path.getLast? ≠ some id) }
  | .exchange source destination inventory => do
      let daemon ← gossip.daemons source
      let _ ← gossip.daemons destination
      let node ← daemon.membership.localNode
      some (gossip.send source destination (.request node inventory))
  | .ask source destination => do
      let _ ← gossip.daemons source
      let _ ← gossip.daemons destination
      if source = destination then none
      else some (gossip.send source destination .ask)
  | .deliver position now epoch inventory => do
      let message ← gossip.flight[position]?
      receive now epoch inventory message
        { gossip with flight := gossip.flight.eraseIdx position }
  | .lose position =>
      some { gossip with flight := gossip.flight.eraseIdx position }
  | .expire id now epoch => do
      let daemon ← gossip.daemons id
      some (gossip.setDaemon id (some (daemon.expire now epoch)))
  | .gpus id detected => do
      let daemon ← gossip.daemons id
      some (gossip.setDaemon id (some { daemon with
        membership := daemon.membership.refreshGpus detected }))
  | .call id => do
      let _ ← gossip.daemons id
      some { gossip with calls := gossip.calls ++ [⟨[id], false⟩] }
  | .check position => do
      let call ← gossip.calls[position]?
      let checked ← gossip.check call
      some { gossip with calls := gossip.calls.set position checked }
  | .forward position => do
      let call ← gossip.calls[position]?
      let forwarded ← gossip.forward call
      some { gossip with calls := gossip.calls.set position forwarded }
  | .finish position =>
      some { gossip with calls := gossip.calls.eraseIdx position }

def step (gossip : Gossip) (event : GossipEvent) : Option Gossip :=
  (gossip.advance event).map fun next =>
    { next with clock := gossip.clock + 1 }

/-! What one step can do. -/

/-- The view of a daemon after a step.  What it accepts or is told of another
was brought by a message to it. -/
inductive Revised (gossip next : Gossip) (event : GossipEvent) (id : Uuid)
    (members : Membership) : Membership → Prop
  | kept (heard : next.heard id = gossip.heard id) :
      Revised gossip next event id members members
  | accepted (now : Nat) (epoch : Uuid) (message : Message)
      (node : NodeCapabilities) (member : message ∈ gossip.flight)
      (destination : message.destination = id)
      (news : message.news = some node)
      (foreign : node.nodeId ≠ members.localId)
      (heard : next.heard id =
        Function.update (gossip.heard id) node.nodeId message.read) :
      Revised gossip next event id members
        ((members.update now node).rotateLeader members.leader epoch)
  | told (now : Nat) (message : Message) (node : NodeCapabilities)
      (member : message ∈ gossip.flight)
      (destination : message.destination = id)
      (told : message.content = .told node)
      (heard : next.heard id =
        Function.update (gossip.heard id) node.nodeId message.read) :
      Revised gossip next event id members (members.update now node)
  | expired (now : Nat) (epoch : Uuid)
      (heard : next.heard id = gossip.heard id) :
      Revised gossip next event id members
        ((members.expire now).1.rotateLeader members.leader epoch)
  | gpus (detected : List (Option Nat)) (same : event = .gpus id detected)
      (heard : next.heard id = gossip.heard id) :
      Revised gossip next event id members (members.refreshGpus detected)

structure Sent (gossip : Gossip) (message : Message) : Prop where
  read : message.read = gossip.clock
  news : ∀ node, message.news = some node →
    ∃ daemon, gossip.daemons message.source = some daemon ∧
      daemon.membership.localNode = some node
  asks : message.content = .ask → message.source ≠ message.destination
  told : ∀ node, message.content = .told node →
    ∃ asked ∈ gossip.flight, asked.content = .ask ∧
      asked.source = message.destination ∧
        asked.destination = message.source

inductive Called (gossip : Gossip) : LeaderCall → Prop
  | begun (id : Uuid) : Called gossip ⟨[id], false⟩
  | checked (before : LeaderCall) (member : before ∈ gossip.calls) :
      Called gossip ⟨before.path, true⟩
  | forwarded (before : LeaderCall) (id leader : Uuid) (daemon : Leader)
      (member : before ∈ gossip.calls)
      (last : before.path.getLast? = some id)
      (runs : gossip.daemons id = some daemon)
      (leads : daemon.membership.leader.leaderId = some leader) :
      Called gossip ⟨before.path ++ [leader], false⟩

structure Stepped (gossip next : Gossip) (event : GossipEvent) : Prop where
  clock : next.clock = gossip.clock + 1
  daemons : ∀ id daemon, next.daemons id = some daemon →
    (∃ now node, event = .start now node ∧ node.nodeId = id ∧
        gossip.daemons id = none ∧ daemon.membership = .new now node) ∨
      ∃ before, gossip.daemons id = some before ∧
        Revised gossip next event id before.membership daemon.membership
  heard : ∀ id, next.heard id = gossip.heard id ∨
    ∃ message ∈ gossip.flight, ∃ other, next.heard id =
      Function.update (gossip.heard id) other message.read
  flight : ∀ message ∈ next.flight,
    message ∈ gossip.flight ∨ Sent gossip message
  calls : ∀ call ∈ next.calls, call ∈ gossip.calls ∨ Called gossip call


section

variable {gossip next : Gossip} {event : GossipEvent}

theorem stepped_same (clock : next.clock = gossip.clock + 1)
    (daemons : next.daemons = gossip.daemons)
    (heard : next.heard = gossip.heard)
    (flight : ∀ message ∈ next.flight,
      message ∈ gossip.flight ∨ Sent gossip message)
    (calls : ∀ call ∈ next.calls, call ∈ gossip.calls ∨ Called gossip call) :
    Stepped gossip next event := by
  refine ⟨clock, ?_, fun id => .inl (by rw [heard]), flight, calls⟩
  intro id daemon found
  rw [daemons] at found
  exact .inr ⟨daemon, found, .kept (by rw [heard])⟩

theorem stepped_set {changed : Uuid} {before after : Leader}
    (clock : next.clock = gossip.clock + 1)
    (runs : gossip.daemons changed = some before)
    (daemons : next.daemons =
      Function.update gossip.daemons changed (some after))
    (others : ∀ other, other ≠ changed → next.heard other = gossip.heard other)
    (own : next.heard changed = gossip.heard changed ∨
      ∃ message ∈ gossip.flight, ∃ other, next.heard changed =
        Function.update (gossip.heard changed) other message.read)
    (revised : Revised gossip next event changed before.membership
      after.membership)
    (flight : ∀ message ∈ next.flight,
      message ∈ gossip.flight ∨ Sent gossip message)
    (calls : next.calls = gossip.calls) : Stepped gossip next event := by
  refine ⟨clock, ?_, ?_, flight, fun call member => .inl (calls ▸ member)⟩
  · intro id daemon found
    rw [daemons] at found
    by_cases same : id = changed
    · subst same
      rw [Function.update_self] at found
      cases found
      exact .inr ⟨before, runs, revised⟩
    · rw [Function.update_of_ne same] at found
      exact .inr ⟨daemon, found, .kept (others id same)⟩
  · intro id
    by_cases same : id = changed
    · subst same
      exact own
    · exact .inl (others id same)

theorem stepped_hear {message : Message} {node : NodeCapabilities}
    {daemon after : Leader} (member : message ∈ gossip.flight)
    (runs : gossip.daemons message.destination = some daemon)
    (clock : next.clock = gossip.clock + 1)
    (daemons : next.daemons =
      Function.update gossip.daemons message.destination (some after))
    (heard : next.heard = Function.update gossip.heard message.destination
      (Function.update (gossip.heard message.destination) node.nodeId
        message.read))
    (revised : next.heard message.destination =
        Function.update (gossip.heard message.destination) node.nodeId
          message.read →
      Revised gossip next event message.destination daemon.membership
        after.membership)
    (flight : ∀ message ∈ next.flight,
      message ∈ gossip.flight ∨ Sent gossip message)
    (calls : next.calls = gossip.calls) : Stepped gossip next event := by
  have own : next.heard message.destination =
      Function.update (gossip.heard message.destination) node.nodeId
        message.read := by
    rw [heard, Function.update_self]
  refine stepped_set clock runs daemons ?_ ?_ (revised own) flight calls
  · intro other different
    rw [heard, Function.update_of_ne different]
  · exact .inr ⟨message, member, node.nodeId, own⟩

theorem mem_flight_send {front : List Message} {sent : Message}
    (kept : ∀ message ∈ front, message ∈ gossip.flight)
    (sends : Sent gossip sent) :
    ∀ message ∈ front ++ [sent],
      message ∈ gossip.flight ∨ Sent gossip message := by
  intro message member
  rcases List.mem_append.mp member with old | new
  · exact .inl (kept message old)
  · obtain rfl := List.mem_singleton.mp new
    exact .inr sends

/-- A message that is read by its destination, which accepts it or is told of
its source. -/
theorem accept_revised {message : Message} {now : Nat} {epoch : Uuid}
    {node : NodeCapabilities} {inventory : List MemoryBlockHandle}
    {before after : Leader}
    (accepted : before.accept now epoch node inventory = (.ok (), after))
    (member : message ∈ gossip.flight) (news : message.news = some node)
    (heard : next.heard message.destination =
      Function.update (gossip.heard message.destination) node.nodeId
        message.read) :
    Revised gossip next event message.destination before.membership
      after.membership := by
  have returned : (before.accept now epoch node inventory).1 = .ok () := by
    rw [accepted]
  obtain ⟨admitted, _, same⟩ := Leader.accept_ok returned
  rw [accepted] at same
  rw [same]
  exact .accepted now epoch message node member rfl news
    (Leader.admit_foreign admitted) heard

theorem refuse_revised {id : Uuid} {now : Nat} {epoch : Uuid}
    {node : NodeCapabilities} {inventory : List MemoryBlockHandle}
    {before after : Leader} {failure : Fault}
    (refused : before.accept now epoch node inventory = (.error failure, after))
    (heard : next.heard id = gossip.heard id) :
    Revised gossip next event id before.membership after.membership := by
  have returned :
      (before.accept now epoch node inventory).1 = .error failure := by
    rw [refused]
  have same := (Leader.accept_error returned).1
  rw [refused] at same
  rw [same]
  exact .kept heard

/-- An exchange that comes to a daemon, which accepts it or refuses it; the
answer that it owes is on its way then. -/
theorem accept_stepped {message : Message} {now : Nat} {epoch : Uuid}
    {node : NodeCapabilities} {handles : List MemoryBlockHandle}
    {daemon after : Leader} {result : Result Unit}
    (member : message ∈ gossip.flight)
    (runs : gossip.daemons message.destination = some daemon)
    (news : message.news = some node)
    (acceptance : daemon.accept now epoch node handles = (result, after))
    (clock : next.clock = gossip.clock + 1)
    (daemons : next.daemons =
      Function.update gossip.daemons message.destination (some after))
    (heard : next.heard = match result with
      | .ok () => Function.update gossip.heard message.destination
          (Function.update (gossip.heard message.destination) node.nodeId
            message.read)
      | .error _ => gossip.heard)
    (flight : ∀ message ∈ next.flight,
      message ∈ gossip.flight ∨ Sent gossip message)
    (calls : next.calls = gossip.calls) : Stepped gossip next event := by
  cases result with
  | ok _ =>
      exact stepped_hear member runs clock daemons heard
        (accept_revised acceptance member news) flight calls
  | error failure =>
      have same : next.heard = gossip.heard := heard
      exact stepped_set clock runs daemons (fun other _ => by rw [same])
        (.inl (by rw [same])) (refuse_revised acceptance (by rw [same]))
        flight calls

theorem receive_stepped {position now : Nat} {epoch : Uuid}
    {inventory : List MemoryBlockHandle} {message : Message}
    (found : gossip.flight[position]? = some message)
    (received : receive now epoch inventory message
      { gossip with flight := gossip.flight.eraseIdx position } = some next)
    (clock : Nat) (ticks : clock = gossip.clock + 1) :
    Stepped gossip { next with clock := clock } event := by
  have member := List.mem_of_getElem? found
  have fewer : ∀ other ∈ gossip.flight.eraseIdx position,
      other ∈ gossip.flight := fun other => List.mem_of_mem_eraseIdx
  unfold receive at received
  obtain ⟨daemon, runs, received⟩ := Option.bind_eq_some_iff.mp received
  change gossip.daemons message.destination = some daemon at runs
  cases content : message.content with
  | request node handles =>
      have news : message.news = some node := by rw [Message.news, content]
      rw [content] at received
      dsimp only at received
      split at received
      · rename_i acceptance
        cases received
        exact accept_stepped member runs news acceptance ticks rfl rfl
          (mem_flight_send fewer ⟨rfl, nofun, nofun, nofun⟩) rfl
      · rename_i refusal
        cases received
        exact accept_stepped member runs news refusal ticks rfl rfl
          (fun other old => .inl (fewer other old)) rfl
  | owed =>
      rw [content] at received
      obtain ⟨node, reads, received⟩ := Option.bind_eq_some_iff.mp received
      cases received
      refine stepped_same ticks rfl rfl (mem_flight_send fewer ⟨rfl, ?_,
        nofun, nofun⟩) fun call => .inl
      intro brought news
      cases news
      exact ⟨daemon, runs, reads⟩
  | answer node handles =>
      have news : message.news = some node := by rw [Message.news, content]
      rw [content] at received
      dsimp only at received
      split at received
      · rename_i acceptance
        cases received
        exact accept_stepped member runs news acceptance ticks rfl rfl
          (fun other old => .inl (fewer other old)) rfl
      · rename_i refusal
        cases received
        exact accept_stepped member runs news refusal ticks rfl rfl
          (fun other old => .inl (fewer other old)) rfl
  | ask =>
      rw [content] at received
      obtain ⟨node, reads, received⟩ := Option.bind_eq_some_iff.mp received
      cases received
      refine stepped_same ticks rfl rfl (mem_flight_send fewer ⟨rfl, ?_,
        nofun, fun _ _ => ⟨message, member, content, rfl, rfl⟩⟩)
        fun call => .inl
      intro brought news
      cases news
      exact ⟨daemon, runs, reads⟩
  | told node =>
      rw [content] at received
      cases received
      exact stepped_hear member runs ticks rfl rfl
        (.told now message node member rfl content)
        (fun other old => .inl (fewer other old)) rfl

theorem check_called {call checked : LeaderCall}
    (member : call ∈ gossip.calls) (checks : gossip.check call = some checked) :
    Called gossip checked := by
  unfold check at checks
  obtain ⟨id, _, checks⟩ := Option.bind_eq_some_iff.mp checks
  obtain ⟨daemon, _, checks⟩ := Option.bind_eq_some_iff.mp checks
  split at checks
  · cases checks
  · cases checks
    exact .checked call member

theorem forward_called {call forwarded : LeaderCall}
    (member : call ∈ gossip.calls)
    (forwards : gossip.forward call = some forwarded) :
    Called gossip forwarded := by
  unfold forward at forwards
  obtain ⟨id, last, forwards⟩ := Option.bind_eq_some_iff.mp forwards
  obtain ⟨daemon, runs, forwards⟩ := Option.bind_eq_some_iff.mp forwards
  obtain ⟨leader, leads, forwards⟩ := Option.bind_eq_some_iff.mp forwards
  obtain ⟨_, _, forwards⟩ := Option.bind_eq_some_iff.mp forwards
  split at forwards
  · cases forwards
    exact .forwarded call id leader daemon member last runs leads
  · cases forwards

theorem start_stepped {now : Nat} {node : NodeCapabilities}
    (advanced : gossip.advance (.start now node) = some next) :
    Stepped gossip { next with clock := gossip.clock + 1 }
      (.start now node) := by
  unfold advance at advanced
  dsimp only at advanced
  split at advanced
  · cases advanced
  · rename_i absent
    cases advanced
    refine ⟨rfl, ?_, fun _ => .inl rfl, fun message => .inl,
      fun call => .inl⟩
    intro id daemon found
    change Function.update gossip.daemons node.nodeId
      (some (Leader.fresh now node ∅)) id = some daemon at found
    by_cases same : id = node.nodeId
    · subst same
      rw [Function.update_self] at found
      cases found
      exact .inl ⟨now, node, rfl, rfl, absent, rfl⟩
    · rw [Function.update_of_ne same] at found
      exact .inr ⟨daemon, found, .kept rfl⟩

theorem stop_stepped {stopped : Uuid}
    (advanced : gossip.advance (.stop stopped) = some next) :
    Stepped gossip { next with clock := gossip.clock + 1 }
      (.stop stopped) := by
  cases advanced
  refine ⟨rfl, ?_, fun _ => .inl rfl,
    fun message member => .inl (List.mem_filter.mp member).1,
    fun call member => .inl (List.mem_filter.mp member).1⟩
  intro id daemon found
  change Function.update gossip.daemons stopped none id = some daemon at found
  by_cases same : id = stopped
  · subst same
    rw [Function.update_self] at found
    cases found
  · rw [Function.update_of_ne same] at found
    exact .inr ⟨daemon, found, .kept rfl⟩

theorem step_stepped (stepped : gossip.step event = some next) :
    Stepped gossip next event := by
  obtain ⟨after, advanced, rfl⟩ := Option.map_eq_some_iff.mp stepped
  cases event with
  | start now node => exact start_stepped advanced
  | stop stopped => exact stop_stepped advanced
  | exchange source destination inventory =>
      obtain ⟨daemon, runs, advanced⟩ := Option.bind_eq_some_iff.mp advanced
      obtain ⟨_, _, advanced⟩ := Option.bind_eq_some_iff.mp advanced
      obtain ⟨node, reads, advanced⟩ := Option.bind_eq_some_iff.mp advanced
      cases advanced
      refine stepped_same rfl rfl rfl (mem_flight_send (fun _ => id) ⟨rfl, ?_,
        nofun, nofun⟩) fun call => .inl
      intro brought news
      cases news
      exact ⟨daemon, runs, reads⟩
  | ask source destination =>
      obtain ⟨_, _, advanced⟩ := Option.bind_eq_some_iff.mp advanced
      obtain ⟨_, _, advanced⟩ := Option.bind_eq_some_iff.mp advanced
      split at advanced
      · cases advanced
      · rename_i different
        cases advanced
        exact stepped_same rfl rfl rfl (mem_flight_send (fun _ => id) ⟨rfl,
          nofun, fun _ => different, nofun⟩) fun call => .inl
  | deliver position now epoch inventory =>
      obtain ⟨message, found, received⟩ := Option.bind_eq_some_iff.mp advanced
      exact receive_stepped found received _ rfl
  | lose position =>
      cases advanced
      exact stepped_same rfl rfl rfl
        (fun message member => .inl (List.mem_of_mem_eraseIdx member))
        fun call => .inl
  | expire expired now epoch =>
      obtain ⟨daemon, runs, advanced⟩ := Option.bind_eq_some_iff.mp advanced
      cases advanced
      exact stepped_set rfl runs rfl (fun _ _ => rfl) (.inl rfl)
        (.expired now epoch rfl) (fun message => .inl) rfl
  | gpus refreshed detected =>
      obtain ⟨daemon, runs, advanced⟩ := Option.bind_eq_some_iff.mp advanced
      cases advanced
      exact stepped_set rfl runs rfl (fun _ _ => rfl) (.inl rfl)
        (.gpus detected rfl rfl) (fun message => .inl) rfl
  | call id =>
      obtain ⟨_, _, advanced⟩ := Option.bind_eq_some_iff.mp advanced
      cases advanced
      refine stepped_same rfl rfl rfl (fun message => .inl) ?_
      intro call member
      rcases List.mem_append.mp member with old | new
      · exact .inl old
      · cases List.mem_singleton.mp new
        exact .inr (.begun id)
  | check position =>
      obtain ⟨call, found, advanced⟩ := Option.bind_eq_some_iff.mp advanced
      obtain ⟨checked, checks, advanced⟩ := Option.bind_eq_some_iff.mp advanced
      cases advanced
      refine stepped_same rfl rfl rfl (fun message => .inl) ?_
      intro other member
      rcases List.mem_or_eq_of_mem_set member with old | rfl
      · exact .inl old
      · exact .inr (check_called (List.mem_of_getElem? found) checks)
  | forward position =>
      obtain ⟨call, found, advanced⟩ := Option.bind_eq_some_iff.mp advanced
      obtain ⟨forwarded, forwards, advanced⟩ :=
        Option.bind_eq_some_iff.mp advanced
      cases advanced
      refine stepped_same rfl rfl rfl (fun message => .inl) ?_
      intro other member
      rcases List.mem_or_eq_of_mem_set member with old | rfl
      · exact .inl old
      · exact .inr (forward_called (List.mem_of_getElem? found) forwards)
  | finish position =>
      cases advanced
      exact stepped_same rfl rfl rfl (fun message => .inl)
        fun call member => .inl (List.mem_of_mem_eraseIdx member)

end

end Gossip

end TrainPool
