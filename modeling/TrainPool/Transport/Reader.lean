import TrainPool.Transport.Sender

namespace TrainPool

open Slice

/-- The arguments of `ReliableUdpDataTransport::read`. -/
structure ReadPayload where
  handle : MemoryBlockHandle
  transferId : Uuid
  offset : Nat
  length : Nat
  deriving DecidableEq

/-- The variables of `receive_payload`. -/
structure ReadSession where
  source : SocketAddr
  start : Packet
  buffer : List UInt8
  received : List Bool
  receivedCount : Nat
  retries : Nat
  deriving DecidableEq

/-- Where `read` stands: about to send its request, waiting for a START, or
waiting for data. -/
inductive ReadPhase where
  | ready
  | request (retries : Nat)
  | awaitStart (retries : Nat)
  | awaitData (session : ReadSession)
  | returned (result : Except SendError (List UInt8))
  deriving DecidableEq

/-- What one batch of datagrams has led to so far: answers, and the sequence
whose block is acknowledged at its end. -/
structure ReadBatch where
  session : ReadSession
  sent : List Packet
  ackSequence : Option Nat
  deriving DecidableEq

namespace ReadSession

def packetCount (session : ReadSession) : Nat := session.start.sequenceId

def isReceived (session : ReadSession) (sequence : Nat) : Bool :=
  session.received.getD sequence false

def checksum (session : ReadSession) : List UInt8 :=
  session.start.payload.drop 8

def store (config : Config) (session : ReadSession) (packet : Packet) :
    ReadSession :=
  { session with
    buffer := overwrite session.buffer
      (packet.sequenceId * config.udpPayloadBytes) packet.payload
    received := session.received.set packet.sequenceId true
    receivedCount := session.receivedCount + 1 }

def ackPayload (session : ReadSession) (sequence window : Nat) :
    List UInt8 :=
  let base := sequence / ackBits * ackBits
  bitmapPayload base
    ((List.range ackBits).map fun index => session.isReceived (base + index))
    window

def nackPayload (session : ReadSession) (window : Nat) : List UInt8 :=
  bitmapPayload 0 (session.received.map (!·)) window

end ReadSession

namespace ReadPayload

variable (config : Config) (blake3 : List UInt8 → Digest)
  (request : ReadPayload)

def requestPacket : Packet :=
  { Packet.forHandle .readRequest request.handle request.transferId with
    offset := request.offset
    sequenceId := request.length }

def answer (kind : Kind) (payload : List UInt8) : Packet :=
  { Packet.forHandle kind request.handle request.transferId with
    payload := payload }

def startAck : Packet :=
  { request.answer .startAck
      (Bytes.toBigEndian 2 (min config.udpWindowPackets ackBits)) with
    flags := 1 }

def readStart : List Datagram → Except SendError (Option Packet)
  | [] => .ok none
  | .error text :: _ => .error (.undecoded text)
  | .ok packet :: rest =>
      if packet.transferId = request.transferId ∧ packet.kind = .start then
        .ok (some packet)
      else if packet.transferId = request.transferId ∧
          packet.kind = .error then
        .error (.remote packet.payload)
      else
        readStart rest

/-- The beginning of `receive_payload`. -/
def openSession (source : SocketAddr) (start : Packet) :
    Except SendError ReadSession :=
  let length := Bytes.fromBigEndian (start.payload.take 8)
  if start.payload.length ≠ 40 then
    .error (.message "invalid UDP START metadata")
  else if 0 < start.sequenceId ∧ length ≤ config.chunkBytes then
    .ok {
      source := source
      start := start
      buffer := List.replicate length 0
      received := List.replicate start.sequenceId false
      receivedCount := 0
      retries := 0 }
  else
    .error (.message "invalid UDP read session")

def readData (coalesced : Bool) (packet : Packet) (batch : ReadBatch) :
    Except SendError ReadBatch :=
  let session := batch.session
  if ¬packet.sequenceId < session.packetCount then
    .error (.message "UDP sequence outside transfer")
  else if ¬packet.sequenceId * config.udpPayloadBytes +
      packet.payload.length ≤ session.buffer.length then
    .error (.message "UDP data range invalid")
  else if session.isReceived packet.sequenceId then
    .ok { batch with ackSequence := some packet.sequenceId }
  else
    let session := session.store config packet
    .ok { batch with
      session := session
      ackSequence :=
        if coalesced || session.receivedCount % 8 = 0 ||
            session.receivedCount = session.packetCount then
          some packet.sequenceId
        else
          batch.ackSequence }

/-- The datagrams of one batch: the state after them, or the result of the
read with the answers that were sent until then. -/
def readBatch (coalesced : Bool) :
    List Datagram → ReadBatch →
      List Packet × Except (Except SendError (List UInt8)) ReadBatch
  | [], batch => (batch.sent, .ok batch)
  | .error text :: _, batch => (batch.sent, .error (.error (.undecoded text)))
  | .ok packet :: rest, batch =>
      if packet.transferId ≠ batch.session.start.transferId then
        readBatch coalesced rest batch
      else
        match packet.kind with
        | .data =>
            match readData config coalesced packet batch with
            | .ok next => readBatch coalesced rest next
            | .error error => (batch.sent, .error (.error error))
        | .fin =>
            if batch.session.receivedCount = batch.session.packetCount then
              if packet.payload ≠ batch.session.checksum then
                (batch.sent,
                  .error (.error (.message "UDP FIN checksum changed")))
              else if (blake3 batch.session.buffer).toList ≠
                  batch.session.checksum then
                (batch.sent, .error (.error (.message
                  "TRAINPOOL_CHECKSUM_MISMATCH: UDP transfer")))
              else
                (batch.sent ++ [request.answer .complete []],
                  .error (.ok batch.session.buffer))
            else
              readBatch coalesced rest { batch with
                sent := batch.sent ++ [request.answer .nack
                  (batch.session.nackPayload config.udpWindowPackets)] }
        | .abort | .error =>
            (batch.sent,
              .error (.error (.message "TRAINPOOL_TRANSFER_ABORTED")))
        | _ => readBatch coalesced rest batch

def endBatch (batch : ReadBatch) : List Packet :=
  match batch.ackSequence with
  | none => []
  | some sequence => [request.answer .ack
      (batch.session.ackPayload sequence config.udpWindowPackets)]

/-- One step of the reader, with the datagrams it sends.  Those of a session go
to its source, the request to `destination`. -/
def step : ReadPhase → SendEvent → Option (ReadPhase × List Packet)
  | .ready, .proceed =>
      if request.length ≤ config.chunkBytes then
        some (.request 0, [])
      else
        some (.returned (.error (.message
          "UDP read exceeds configured chunk size")), [])
  | .request retries, .proceed =>
      some (.awaitStart retries, [request.requestPacket])
  | .request _, .refused => some (.returned (.error .socket), [])
  | .awaitStart retries, .timeout =>
      if retries + 1 ≤ config.udpMaxRetries then
        some (.request (retries + 1), [])
      else
        some (.returned (.error (.message "TRAINPOOL_TRANSFER_TIMEOUT")), [])
  | .awaitStart retries, .receive source datagrams =>
      match request.readStart datagrams with
      | .error error => some (.returned (.error error), [])
      | .ok none => some (.request retries, [])
      | .ok (some start) =>
          match openSession config source start with
          | .error error => some (.returned (.error error), [])
          | .ok session =>
              some (.awaitData session, [request.startAck config])
  | .awaitData session, .timeout =>
      if session.retries + 1 ≤ config.udpMaxRetries then
        some (.awaitData { session with retries := session.retries + 1 }, [])
      else
        some (.returned (.error (.message
          "TRAINPOOL_TRANSFER_TIMEOUT: UDP read")), [])
  | .awaitData session, .receive source datagrams =>
      if source = session.source then
        match request.readBatch config blake3 (1 < datagrams.length)
            datagrams ⟨session, [], none⟩ with
        | (sent, .ok batch) => some (.awaitData batch.session,
            sent ++ request.endBatch config batch)
        | (sent, .error result) => some (.returned result, sent)
      else
        some (.awaitData session, [])
  | .awaitData _, .refused => some (.returned (.error .socket), [])
  | _, _ => none

end ReadPayload

end TrainPool
