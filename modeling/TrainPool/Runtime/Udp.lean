import Mathlib.Data.Finset.Basic
import Mathlib.Data.List.ReduceOption
import TrainPool.Config
import TrainPool.Memory.LocalRam
import TrainPool.Transport.Packet

namespace TrainPool

open Slice

structure SessionKey where
  source : SocketAddr
  transfer : Uuid
  block : Uuid
  deriving DecidableEq, Repr

structure IncomingSession where
  object : Uuid
  lease : Uuid
  generation : Nat
  baseOffset : Nat
  blockSize : Nat
  payloadSize : Nat
  packetCount : Nat
  checksum : List UInt8
  buffer : List UInt8
  received : List Bool
  receivedCount : Nat
  lastSequence : Option Nat
  lastActivity : Nat
  deriving DecidableEq, Repr

structure UdpServerState where
  incoming : Table SessionKey IncomingSession := ∅
  finishing : Finset SessionKey := ∅
  completed : Table (SessionKey × Nat) Nat := ∅
  activeReads : Nat := 0
  deriving DecidableEq

/-- What the task that answers a read request sends. -/
structure ReadResponse where
  destination : SocketAddr
  handle : MemoryBlockHandle
  transferId : Uuid
  offset : Nat
  payload : List UInt8
  deriving DecidableEq

def Packet.key (source : SocketAddr) (packet : Packet) : SessionKey :=
  ⟨source, packet.transferId, packet.blockId⟩

namespace IncomingSession

/-! Receiving data.  A failed packet leaves what its predecessors changed. -/

def checkMetadata (session : IncomingSession) (packet : Packet) :
    Result Unit :=
  ensure (packet.objectId = session.object ∧
      packet.leaseToken = session.lease ∧
      packet.generation = session.generation ∧
      packet.totalSize = session.blockSize) "UDP session metadata changed"

def checkRange (session : IncomingSession) (packet : Packet) :
    Result Unit := do
  ensure (packet.sequenceId < session.packetCount)
    "UDP sequence outside session"
  let start := packet.sequenceId * session.payloadSize
  ensure (packet.offset = session.baseOffset + start)
    "UDP packet offset mismatch"
  ensure (start + packet.payload.length ≤ session.buffer.length)
    "UDP payload range mismatch"

def isReceived (session : IncomingSession) (sequence : Nat) : Bool :=
  session.received.getD sequence false

def outOfOrder (session : IncomingSession) (packet : Packet) : Bool :=
  session.lastSequence.any (packet.sequenceId < ·)

def store (session : IncomingSession) (packet : Packet) : IncomingSession :=
  { session with
    buffer := overwrite session.buffer
      (packet.sequenceId * session.payloadSize) packet.payload
    received := session.received.set packet.sequenceId true
    receivedCount := session.receivedCount + 1
    lastSequence := some packet.sequenceId }

/-- The acknowledgement of the block of sequences around one of them. -/
def ackPayload (session : IncomingSession) (sequence window : Nat) :
    List UInt8 :=
  let base := sequence / ackBits * ackBits
  bitmapPayload base
    ((List.range ackBits).map fun index => session.isReceived (base + index))
    window

/-- One DATA packet of a session: the acknowledgement is sent for duplicates,
for packets out of order, after every eighth packet and after the last. -/
def receiveData (instant window : Nat) (session : IncomingSession)
    (packet : Packet) : IncomingSession × Result (Option (List UInt8)) :=
  match session.checkMetadata packet with
  | .error fault => (session, .error fault)
  | .ok _ =>
      let session := { session with lastActivity := instant }
      match session.checkRange packet with
      | .error fault => (session, .error fault)
      | .ok _ =>
          let duplicate := session.isReceived packet.sequenceId
          let outOfOrder := !duplicate && session.outOfOrder packet
          let session := if duplicate then session else session.store packet
          (session, .ok
            (if duplicate || outOfOrder || session.receivedCount % 8 = 0 ||
                session.receivedCount = session.packetCount then
              some (session.ackPayload packet.sequenceId window)
            else
              none))

def receiveAll (session : IncomingSession) :
    List Packet → IncomingSession × Result Unit
  | [] => (session, .ok ())
  | packet :: rest =>
      match (do session.checkMetadata packet; session.checkRange packet) with
      | .error fault => (session, .error fault)
      | .ok _ =>
          if session.isReceived packet.sequenceId then
            session.receiveAll rest
          else
            (session.store packet).receiveAll rest

/-- The sequences around the first missing one, as a NACK reports them. -/
def nackPayload (session : IncomingSession) (window : Nat) : List UInt8 :=
  let firstMissing := session.received.findIdx (!·)
  let firstMissing :=
    if firstMissing < session.received.length then firstMissing else 0
  let base := firstMissing / ackBits * ackBits
  bitmapPayload base
    ((List.range ackBits).map fun index =>
      !session.received.getD (base + index) true)
    window

end IncomingSession

/-- Where a handler stands between two lock acquisitions.  The names follow the
lock that is taken next: `completed`, `incoming`, `finishing`, the map of
blocks or the mutex of one block. -/
inductive Stage where
  | enter
  | readBlock
  | readLock (arc : Arc)
  | startBlock
  | startLock (arc : Arc)
  | startSession
  | dataCompleted
  | dataSession
  | dataFinishing
  | batchCompleted
  | batchSession
  | batchFinishing
  | finCompleted
  | finSession
  | finFinishing
  | finBlock (session : IncomingSession)
  | finWrite (session : IncomingSession) (arc : Arc)
  | finInsert
  | finEvict
  | finRelease
  | finFail (message : String)
  | abortSession
  deriving DecidableEq

/-- How a handler goes on after one lock acquisition. -/
inductive Outcome where
  | next (stage : Stage)
  | answer (reply : Option Packet)
  | respond (response : ReadResponse)
  | fail (message : String)
  | panic
  deriving DecidableEq

/-- The handler of a datagram, or of a batch of DATA packets that starts with
`packet`. -/
structure Handler where
  packet : Packet
  rest : List Packet := []
  stage : Stage := .enter
  deriving DecidableEq

structure Shared where
  ram : LocalRam
  udp : UdpServerState
  deriving DecidableEq

/-- What a step takes from outside: the clocks, the outcome of a reservation,
and which of the oldest completions is dropped. -/
structure Choice where
  reserved : Bool := true
  oldest : Option (SessionKey × Nat) := none
  deriving DecidableEq

namespace Outcome

def ofResult {α : Type} (stage : α → Stage) : Result α → Outcome
  | .ok value => .next (stage value)
  | .error (.error message) => .fail message
  | .error .panic => .panic

end Outcome

def incomingExpiryMs (config : Config) : Nat :=
  max (config.udpInitialRtoMs * (config.udpMaxRetries + 2)) 30000

def completedExpiryMs : Nat := 120000

def completedBase (config : Config) (packet : Packet) : Option Nat :=
  let ahead := packet.sequenceId * config.udpPayloadBytes
  if ahead ≤ packet.offset then some (packet.offset - ahead) else none

namespace UdpServerState

variable (config : Config) (instant : Nat) (udp : UdpServerState)

def ageCompleted : UdpServerState :=
  { udp with completed := udp.completed.retain fun _ completed =>
      instant - completed < completedExpiryMs }

/-- Whether the transfer of a DATA packet is known to be completed. -/
def isCompleted (source : SocketAddr) (packet : Packet) : Bool :=
  match completedBase config packet with
  | some base => (udp.completed.lookup (packet.key source, base)).isSome
  | none => false

def expireIncoming : UdpServerState :=
  { udp with incoming := udp.incoming.retain fun _ session =>
      instant - session.lastActivity < incomingExpiryMs config }

def startSession (reserved : Bool) (source : SocketAddr) (packet : Packet) :
    UdpServerState × Result Unit :=
  let udp := udp.expireIncoming config instant
  if packet.key source ∈ udp.incoming then
    (udp, .ok ())
  else if ¬udp.incoming.size < config.udpMaxSessions then
    (udp, .error (.error
      "TRAINPOOL_UDP_BACKPRESSURE: receiver session limit"))
  else if ¬reserved then
    (udp, .error (.error
      (outOfCapacity (Bytes.fromBigEndian (packet.payload.take 8)))))
  else
    ({ udp with incoming := udp.incoming.insert (packet.key source) {
        object := packet.objectId
        lease := packet.leaseToken
        generation := packet.generation
        baseOffset := packet.offset
        blockSize := packet.totalSize
        payloadSize := config.udpPayloadBytes
        packetCount := packet.sequenceId
        checksum := packet.payload.drop 8
        buffer := List.replicate
          (Bytes.fromBigEndian (packet.payload.take 8)) 0
        received := List.replicate packet.sequenceId false
        receivedCount := 0
        lastSequence := none
        lastActivity := instant } }, .ok ())

def setSession (key : SessionKey) (session : IncomingSession) :
    UdpServerState :=
  { udp with incoming := udp.incoming.insert key session }

/-- FIN moves its session from `incoming` to `finishing`. -/
def takeSession (key : SessionKey) : UdpServerState :=
  { udp with
    incoming := udp.incoming.erase key
    finishing := insert key udp.finishing }

def release (key : SessionKey) : UdpServerState :=
  { udp with finishing := udp.finishing.erase key }

def IsOldest (key : SessionKey × Nat) : Prop :=
  ∃ time ∈ udp.completed.lookup key,
    ∀ entry ∈ udp.completed.entries, time ≤ entry.2

instance (key : SessionKey × Nat) : Decidable (udp.IsOldest key) :=
  match found : udp.completed.lookup key with
  | none => isFalse (by simp [IsOldest, found])
  | some time => decidable_of_iff
      (∀ entry ∈ udp.completed.entries, time ≤ entry.2)
      (by simp [IsOldest, found])

end UdpServerState

def checkRead (config : Config) (packet : Packet) : Result Unit :=
  ensure (0 < packet.sequenceId ∧ packet.sequenceId ≤ config.chunkBytes)
    "invalid UDP read length"

def RamBlock.readUdp (now : Nat) (packet : Packet) (block : RamBlock) :
    Result (List UInt8) := do
  block.authorize now packet.leaseToken
  ensure (block.handle.jobId = packet.objectId ∧
      block.handle.generation = packet.generation ∧
      block.handle.state = .ready) "stale UDP read handle"
  let finish := packet.offset + packet.sequenceId
  ensure (finish < 2 ^ 64) "UDP range overflow"
  ensure (finish ≤ block.bytes.length) "UDP read exceeds block"
  pure (slice block.bytes packet.offset finish)

def checkStart (config : Config) (packet : Packet) : Result Unit := do
  ensure (packet.payload.length = 40) "invalid UDP START metadata"
  let length := Bytes.fromBigEndian (packet.payload.take 8)
  ensure (0 < length ∧ length ≤ config.chunkBytes)
    "invalid UDP session length"
  ensure (packet.sequenceId = divCeil length config.udpPayloadBytes)
    "invalid UDP packet count"
  ensure (packet.offset + length ≤ packet.totalSize)
    "UDP session exceeds block"

def RamBlock.admitUdp (now : Nat) (packet : Packet) (block : RamBlock) :
    Result Unit := do
  block.authorize now packet.leaseToken
  ensure (block.handle.jobId = packet.objectId ∧
      block.handle.generation = packet.generation ∧
      block.handle.size = packet.totalSize ∧
      block.handle.state = .writing ∧ block.written = packet.offset)
    "stale or non-sequential UDP write session"

namespace Handler

variable (config : Config) (blake3 : List UInt8 → Digest)
  (source : SocketAddr) (now instant : Nat) (choice : Choice)

def dispatch (packet : Packet) : Outcome :=
  match packet.kind with
  | .readRequest =>
      .ofResult (fun _ => .readBlock) (checkRead config packet)
  | .start =>
      if packet.flags = 0 then
        .ofResult (fun _ => .startBlock) (checkStart config packet)
      else
        .answer none
  | .data => .next .dataCompleted
  | .fin => .next .finCompleted
  | .abort => .next .abortSession
  | _ => .answer none

def runReadLock (packet : Packet) (arc : Arc) (shared : Shared) :
    Option (Shared × Outcome) := do
  let block ← shared.ram.lock? arc
  match block.readUdp now packet with
  | .error (.error message) => some (shared, .fail message)
  | .error .panic => some (shared, .panic)
  | .ok payload =>
      if shared.udp.activeReads < config.udpMaxSessions then
        some ({ shared with udp :=
            { shared.udp with activeReads := shared.udp.activeReads + 1 } },
          .respond ⟨source, block.handle, packet.transferId, packet.offset,
            payload⟩)
      else
        some (shared,
          .fail "TRAINPOOL_UDP_BACKPRESSURE: receiver read-session limit")

def runStartSession (packet : Packet) (shared : Shared) : Shared × Outcome :=
  let (udp, result) :=
    shared.udp.startSession config instant choice.reserved source packet
  ({ shared with udp := udp }, match result with
    | .ok _ => .answer (packet.response .startAck
        (Bytes.toBigEndian 2 (min config.udpWindowPackets ackBits)))
    | .error (.error message) => .fail message
    | .error .panic => .panic)

def runDataSession (packet : Packet) (shared : Shared) : Shared × Outcome :=
  match shared.udp.incoming.lookup (packet.key source) with
  | none => (shared, .next .dataFinishing)
  | some session =>
      let (session, result) :=
        session.receiveData instant config.udpWindowPackets packet
      ({ shared with udp := shared.udp.setSession (packet.key source) session },
        match result with
        | .ok payload => .answer (payload.map (packet.response .ack))
        | .error (.error message) => .fail message
        | .error .panic => .panic)

def runBatchSession (first : Packet) (rest : List Packet) (shared : Shared) :
    Shared × Outcome :=
  match shared.udp.incoming.lookup (first.key source) with
  | none => (shared, .next .batchFinishing)
  | some session =>
      let last := rest.getLastD first
      let (session, result) := session.receiveAll (first :: rest)
      let session := match result with
        | .ok _ => { session with lastActivity := instant }
        | .error _ => session
      ({ shared with udp := shared.udp.setSession (first.key source) session },
        match result with
        | .ok _ => .answer (last.response .ack
            (session.ackPayload last.sequenceId config.udpWindowPackets))
        | .error (.error message) => .fail message
        | .error .panic => .panic)

/-- FIN takes the lock of `finishing` while it holds that of `incoming`, whose
session nobody can change meanwhile; the two make one step. -/
def runFinSession (packet : Packet) (shared : Shared) : Shared × Outcome :=
  match shared.udp.incoming.lookup (packet.key source) with
  | none => (shared, .next .finFinishing)
  | some session =>
      if session.receivedCount ≠ session.packetCount then
        (shared, .answer (packet.response .nack
          (session.nackPayload config.udpWindowPackets)))
      else if packet.payload ≠ session.checksum then
        (shared, .fail "UDP FIN checksum changed")
      else if (blake3 session.buffer).toList ≠ session.checksum then
        (shared, .fail "TRAINPOOL_CHECKSUM_MISMATCH: UDP transfer")
      else
        ({ shared with udp := shared.udp.takeSession (packet.key source) },
          .next (.finBlock session))

def runFinWrite (packet : Packet) (session : IncomingSession) (arc : Arc)
    (shared : Shared) : Option (Shared × Outcome) := do
  let block ← shared.ram.lock? arc
  match block.finishUdp now packet.leaseToken session.generation
      session.baseOffset session.buffer packet.transferId with
  | .ok next => some ({ shared with ram := shared.ram.put arc ⟨next, none⟩ },
      .next .finInsert)
  | .error (.error message) => some (shared, .next (.finFail message))
  | .error .panic => some (shared, .panic)

def runFinEvict (shared : Shared) : Option (Shared × Outcome) :=
  if config.udpMaxSessions * 16 < shared.udp.completed.size then do
    let oldest ← choice.oldest
    if shared.udp.IsOldest oldest then
      some ({ shared with udp := { shared.udp with
          completed := shared.udp.completed.erase oldest } },
        .next .finRelease)
    else
      none
  else
    some (shared, .next .finRelease)

/-- One lock acquisition of a handler; `none` when a mutex it needs is held. -/
def run (shared : Shared) (handler : Handler) : Option (Shared × Outcome) :=
  let packet := handler.packet
  match handler.stage with
  | .enter =>
      some ({ shared with udp := shared.udp.ageCompleted instant },
        dispatch config packet)
  | .readBlock =>
      some (shared, .ofResult .readLock (shared.ram.get packet.blockId))
  | .readLock arc => runReadLock config source now packet arc shared
  | .startBlock =>
      some (shared, .ofResult .startLock (shared.ram.get packet.blockId))
  | .startLock arc => do
      let block ← shared.ram.lock? arc
      some (shared, .ofResult (fun _ => .startSession)
        (block.admitUdp now packet))
  | .startSession =>
      some (runStartSession config source instant choice packet shared)
  | .dataCompleted =>
      some (shared,
        if shared.udp.isCompleted config source packet then
          .answer (completedDataAck packet config.udpWindowPackets)
        else
          .next .dataSession)
  | .dataSession =>
      some (runDataSession config source instant packet shared)
  | .dataFinishing =>
      some (shared,
        if packet.key source ∈ shared.udp.finishing then
          .answer (completedDataAck packet config.udpWindowPackets)
        else
          .fail "stale UDP transfer ID")
  | .batchCompleted =>
      some (shared,
        if shared.udp.isCompleted config source packet then
          .answer (completedDataAck (handler.rest.getLastD packet)
            config.udpWindowPackets)
        else
          .next .batchSession)
  | .batchSession =>
      some (runBatchSession config source instant packet handler.rest shared)
  | .batchFinishing =>
      some (shared,
        if packet.key source ∈ shared.udp.finishing then
          .answer (completedDataAck (handler.rest.getLastD packet)
            config.udpWindowPackets)
        else
          .fail "stale UDP transfer ID")
  | .finCompleted =>
      some (shared,
        if (shared.udp.completed.lookup
            (packet.key source, packet.offset)).isSome then
          .answer (packet.response .complete [])
        else
          .next .finSession)
  | .finSession =>
      some (runFinSession config blake3 source packet shared)
  | .finFinishing =>
      some (shared,
        if packet.key source ∈ shared.udp.finishing then .answer none
        else .fail "stale UDP transfer ID")
  | .finBlock session =>
      some (shared, match shared.ram.get packet.blockId with
        | .ok arc => .next (.finWrite session arc)
        | .error (.error message) => .next (.finFail message)
        | .error .panic => .panic)
  | .finWrite session arc => runFinWrite now packet session arc shared
  | .finInsert =>
      some ({ shared with udp := { shared.udp with
          completed := shared.udp.completed.insert
            (packet.key source, packet.offset) instant } },
        .next .finEvict)
  | .finEvict => runFinEvict config choice shared
  | .finRelease =>
      some ({ shared with udp := shared.udp.release (packet.key source) },
        .answer (packet.response .complete []))
  | .finFail message =>
      some ({ shared with udp := shared.udp.release (packet.key source) },
        .fail message)
  | .abortSession =>
      some ({ shared with udp := { shared.udp with
          incoming := shared.udp.incoming.erase (packet.key source) } },
        .answer none)

end Handler

def SameData (first packet : Packet) : Prop :=
  packet.kind = .data ∧ packet.transferId = first.transferId ∧
    packet.objectId = first.objectId ∧ packet.blockId = first.blockId

instance (first packet : Packet) : Decidable (SameData first packet) :=
  inferInstanceAs (Decidable (_ ∧ _))

/-- The handlers of the datagrams that arrive together.  Several DATA packets
of one transfer are handled as a batch when all datagrams decode. -/
def udpDatagrams (datagrams : List Datagram) : List Handler :=
  match validPackets datagrams with
  | [] => []
  | first :: rest =>
      if 1 < datagrams.length ∧ datagrams.all (·.isOk) ∧
          ∀ packet ∈ first :: rest, SameData first packet then
        [{ packet := first, rest := rest, stage := .batchCompleted }]
      else
        (first :: rest).map ({ packet := · })

end TrainPool
