import TrainPool.Library.Execution
import TrainPool.Runtime.Udp

namespace TrainPool

/-- A task of `serve`: the datagrams of one batch, handled one after another.
The first handler is the one that is running. -/
structure Task where
  source : SocketAddr
  handlers : List Handler
  deriving DecidableEq

/-- A daemon.  `sent` records the datagrams its socket has sent; `now` is the
wall clock of the leases and `instant` the monotonic clock of the sessions. -/
structure Daemon where
  shared : Shared
  tasks : List Task := []
  responses : List ReadResponse := []
  sent : List (SocketAddr × Packet) := []
  now : Nat := 0
  instant : Nat := 0
  deriving DecidableEq

inductive DaemonEvent where
  | receive (source : SocketAddr) (datagrams : List Datagram)
  | handle (task : Nat) (choice : Choice)
  | request (event : RamEvent)
  | responded (response : Nat)
  | clock (now instant : Nat)
  deriving DecidableEq

/-- The error answer of `udp_datagram` and `udp_datagrams`. -/
def errorReply (request : Packet) (message : String) : List Packet :=
  let reply := request.response .error message.toUTF8.toList
  if reply.Encodes then [reply] else []

namespace Outcome

def remaining (handler : Handler) (rest : List Handler) :
    Outcome → List Handler
  | .next stage => { handler with stage := stage } :: rest
  | .panic => []
  | _ => rest

/-- The datagrams that a handler sends to the source of its packet. -/
def replies (packet : Packet) : Outcome → List Packet
  | .answer reply => reply.toList
  | .fail message => errorReply packet message
  | _ => []

def responses : Outcome → List ReadResponse
  | .respond response => [response]
  | _ => []

end Outcome

namespace Daemon

def empty : Daemon := { shared := ⟨LocalRam.empty, {}⟩ }

/-- The handler of a task that is running, and where its packet is from. -/
def running (daemon : Daemon) (index : Nat) :
    Option (SocketAddr × Handler) := do
  let task ← daemon.tasks[index]?
  let handler ← task.handlers.head?
  some (task.source, handler)

section Steps

variable (config : Config) (blake3 : List UInt8 → Digest) (self : Identity)

def handle (index : Nat) (choice : Choice) (daemon : Daemon) :
    Option Daemon := do
  let task ← daemon.tasks[index]?
  match task.handlers with
  | [] => none
  | handler :: rest =>
      let (shared, outcome) ← handler.run config blake3 task.source
        daemon.now daemon.instant choice daemon.shared
      some { daemon with
        shared := shared
        tasks := daemon.tasks.set index
          ⟨task.source, outcome.remaining handler rest⟩
        responses := daemon.responses ++ outcome.responses
        sent := daemon.sent ++
          (outcome.replies handler.packet).map (task.source, ·) }

/-- One step of a daemon: a batch arrives, a handler goes on, a request on the
blocks takes its step, the task of a read response ends, or time passes. -/
def step (daemon : Daemon) : DaemonEvent → Option Daemon
  | .receive source datagrams =>
      some { daemon with
        tasks := daemon.tasks ++ [⟨source, udpDatagrams datagrams⟩] }
  | .handle task choice => daemon.handle config blake3 task choice
  | .request event => do
      let ram ← daemon.shared.ram.step blake3 self config.leaseSeconds
        daemon.now event
      some { daemon with shared := { daemon.shared with ram := ram } }
  | .responded response =>
      if response < daemon.responses.length then
        some { daemon with
          responses := daemon.responses.eraseIdx response
          shared := { daemon.shared with udp := { daemon.shared.udp with
            activeReads := daemon.shared.udp.activeReads - 1 } } }
      else
        none
  | .clock now instant =>
      if daemon.instant ≤ instant then
        some { daemon with now := now, instant := instant }
      else
        none

end Steps

variable {config : Config} {blake3 : List UInt8 → Digest}

theorem handle_eq_some {daemon next : Daemon} {index : Nat}
    {choice : Choice} :
    daemon.handle config blake3 index choice = some next ↔
      ∃ source handler rest shared outcome,
        daemon.tasks[index]? = some ⟨source, handler :: rest⟩ ∧
          handler.run config blake3 source daemon.now daemon.instant choice
            daemon.shared = some (shared, outcome) ∧
          next = { daemon with
            shared := shared
            tasks := daemon.tasks.set index
              ⟨source, outcome.remaining handler rest⟩
            responses := daemon.responses ++ outcome.responses
            sent := daemon.sent ++
              (outcome.replies handler.packet).map (source, ·) } := by
  unfold handle
  constructor
  · intro handled
    obtain ⟨⟨source, handlers⟩, found, handled⟩ :=
      Option.bind_eq_some_iff.mp handled
    cases handlers with
    | nil => cases handled
    | cons handler rest =>
        obtain ⟨⟨shared, outcome⟩, ran, handled⟩ :=
          Option.bind_eq_some_iff.mp handled
        cases handled
        exact ⟨source, handler, rest, shared, outcome, found, ran, rfl⟩
  · intro given
    obtain ⟨source, handler, rest, shared, outcome, found, ran, rfl⟩ := given
    simp [found, ran]

end Daemon

end TrainPool
