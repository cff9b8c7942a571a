import TrainPool.Runtime.Daemon
import TrainPool.Runtime.Reassembly
import TrainPool.Transport.Bitmap

namespace TrainPool

open Slice

/-! A sender and the daemon it sends to, on a network that keeps the order of
the datagrams.  The daemon handles what arrives together to its end before it
takes what arrives next. -/

/-- When the daemon handles a batch, and what it meets there. -/
structure Moment where
  now : Nat
  instant : Nat
  choice : Choice := {}
  deriving DecidableEq

section Serve

variable (config : Config) (blake3 : List UInt8 → Digest)
  (source : SocketAddr) (moment : Moment)

/-- A handler that nothing interrupts; `fuel` bounds its lock acquisitions. -/
def Handler.complete : Nat → Handler → Shared → Option (Shared × Outcome)
  | 0, _, _ => none
  | fuel + 1, handler, shared => do
      let (shared, outcome) ← handler.run config blake3 source moment.now
        moment.instant moment.choice shared
      match outcome with
      | .next stage => complete fuel { handler with stage := stage } shared
      | outcome => some (shared, outcome)

def serve : List Handler → Shared →
    Option (Shared × List Packet × List ReadResponse)
  | [], shared => some (shared, [], [])
  | handler :: rest, shared => do
      -- FIN takes the most locks, eight.
      let (shared, outcome) ←
        handler.complete config blake3 source moment 8 shared
      match outcome with
      | .panic => some (shared, [], [])
      | outcome => do
          let (shared, replies, responses) ← serve rest shared
          some (shared, outcome.replies handler.packet ++ replies,
            outcome.responses ++ responses)

end Serve

structure Link where
  request : SendPayload
  config : Config
  address : SocketAddr
  destination : SocketAddr
  blake3 : List UInt8 → Digest

/-- Both ends and what is in flight between them, oldest first.  `emitted` is
everything that was sent, `lost` counts the losses, and `instant` is when the
daemon last took something. -/
structure LinkState where
  phase : Phase
  shared : Shared
  outbound : List Packet := []
  inbound : List Packet := []
  emitted : List Packet := []
  lost : Nat := 0
  instant : Nat := 0
  deriving DecidableEq

/-- The sender goes on or its timer fires, the oldest datagrams arrive together
at one end, or the oldest one is lost. -/
inductive LinkEvent where
  | proceed
  | timeout
  | deliver (count : Nat) (moment : Moment)
  | answer (count : Nat)
  | loseOutbound
  | loseInbound
  deriving DecidableEq

namespace Link

variable (link : Link)

def key : SessionKey :=
  ⟨link.address, link.request.transferId, link.request.handle.id⟩

def packetCount : Nat := link.request.packetCount link.config

def send (state : LinkState) (event : SendEvent) : Option LinkState := do
  let (phase, packets) ← link.request.step link.config link.blake3
    link.destination state.phase event
  some { state with
    phase := phase
    outbound := state.outbound ++ packets
    emitted := state.emitted ++ packets }

def step (state : LinkState) : LinkEvent → Option LinkState
  | .proceed => link.send state .proceed
  | .timeout =>
      if state.outbound = [] ∧ state.inbound = [] then
        link.send state .timeout
      else
        none
  | .deliver count moment =>
      if 0 < count ∧ count ≤ state.outbound.length ∧
          state.instant ≤ moment.instant then do
        let (shared, replies, _) ← serve link.config link.blake3 link.address
          moment (udpDatagrams ((state.outbound.take count).map .ok))
          state.shared
        some { state with
          shared := shared
          outbound := state.outbound.drop count
          inbound := state.inbound ++ replies
          instant := moment.instant }
      else
        none
  | .answer count =>
      if 0 < count ∧ count ≤ state.inbound.length then
        link.send { state with inbound := state.inbound.drop count }
          (.receive link.destination ((state.inbound.take count).map .ok))
      else
        none
  | .loseOutbound =>
      match state.outbound with
      | [] => none
      | _ :: rest =>
          some { state with outbound := rest, lost := state.lost + 1 }
  | .loseInbound =>
      match state.inbound with
      | [] => none
      | _ :: rest =>
          some { state with inbound := rest, lost := state.lost + 1 }

structure Accepts (block : RamBlock) : Prop where
  job : block.handle.jobId = link.request.handle.jobId
  generation : block.handle.generation = link.request.handle.generation
  size : block.handle.size = link.request.handle.size
  token : block.handle.leaseToken = link.request.handle.leaseToken
  writing : block.handle.state = .writing
  written : block.written = link.request.offset
  sized : block.bytes.length = block.handle.size
  live : 0 < block.handle.leaseExpiresMs

def Holds (ram : LocalRam) : Prop :=
  ∃ arc block, ram.blocks.lookup link.request.handle.id = some arc ∧
    ram.heap[arc]? = some ⟨block, none⟩ ∧ link.Accepts block

/-- The daemon can take the transfer: it has the block, room for a session and
no memory of the transfer, and what it completed it completed earlier. -/
structure Ready (shared : Shared) (instant : Nat) : Prop where
  holds : link.Holds shared.ram
  room : shared.udp.incoming.size < link.config.udpMaxSessions
  fresh : shared.udp.incoming.lookup link.key = none
  uncompleted : shared.udp.completed.lookup
    (link.key, link.request.offset) = none
  earlier : ∀ entry ∈ shared.udp.completed.entries, entry.2 < instant

/-- Neither the lease of the block nor the patience of the daemon with the
transfer has run out. -/
structure Timely (shared : Shared) (moment : Moment) : Prop where
  lease : ∀ arc, shared.ram.blocks.lookup link.request.handle.id = some arc →
    ∀ cell : Cell, shared.ram.heap[arc]? = some cell →
      moment.now < cell.block.handle.leaseExpiresMs
  incoming : ∀ session,
    shared.udp.incoming.lookup link.key = some session →
      moment.instant - session.lastActivity < incomingExpiryMs link.config
  completed : ∀ time,
    shared.udp.completed.lookup (link.key, link.request.offset) = some time →
      moment.instant - time < completedExpiryMs

end Link

def LinkState.start (shared : Shared) (instant : Nat) : LinkState :=
  { phase := .ready, shared := shared, instant := instant }

end TrainPool
