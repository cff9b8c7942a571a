import Mathlib.Logic.Function.Basic
import TrainPool.Library.Execution
import TrainPool.Memory.LocalRam
import TrainPool.Transport.Wire

namespace TrainPool

/-! Chunks between daemons over pooled TCP connections. -/

namespace TcpData

open Execution Wire

structure Settings where
  clusterName : String
  clusterSecret : Option String
  chunkBytes : Nat
  leaseSeconds : Nat
  identity : Identity

/-- A call of `tcp_write_chunk` or of `tcp_read_chunk`. -/
inductive Call where
  | write (handle : MemoryBlockHandle) (transferId : Uuid) (offset : Nat)
      (payload : List UInt8)
  | read (handle : MemoryBlockHandle) (transferId : Uuid)
      (offset length : Nat)
  deriving DecidableEq, Repr

/-- A chunk that has gone from one daemon to another. -/
inductive Exchange where
  | wrote (block transferId : Uuid) (offset : Nat) (bytes : List UInt8)
  | read (block : Uuid) (offset : Nat) (bytes : List UInt8)
  deriving DecidableEq, Repr

/-- What the task that has the stream waits for.  `held` and `finished` are a
stream that has been acquired, and one that a call has returned from. -/
inductive ClientStage (ν : Type) where
  | greeted
  | answered (server client : Uuid)
  | held
  | announced (call : Call)
  | sent (handle : MemoryBlockHandle) (transferId : Uuid) (offset : Nat)
      (payload : List UInt8)
  | receiving (handle : MemoryBlockHandle) (transferId : Uuid)
      (offset length : Nat) (metadata : ν)
  | finished
  | pooled
  deriving DecidableEq

/-- Where the server task of a connection is.  `got` has been read of a chunk
that is being written. -/
inductive ServerStage where
  | challenging (nonce : Uuid)
  | ready
  | handling (request : DataRequest)
  | waiting (request : DataRequest) (arc : Arc)
  | receiving (handle : MemoryBlockHandle) (chunk : Chunk) (arc : Arc)
      (got : List UInt8)
  | stored
  | failed
  deriving DecidableEq

/-- A connection with the bytes under way.  `asked` are the calls that have
returned `Ok`, with what they have sent or returned; `served` is what the
handlers have put into a block or taken out of it. -/
structure Connection (ν : Type) where
  daemon : SocketAddr
  address : SocketAddr
  client : ClientStage ν
  server : ServerStage
  clientOpen : Bool
  serverOpen : Bool
  toServer : List UInt8
  toClient : List UInt8
  asked : List Exchange
  served : List Exchange
  deriving DecidableEq

structure World (ν : Type) where
  connections : List (Connection ν)
  pool : SocketAddr → SocketAddr → List Nat
  ram : SocketAddr → LocalRam

inductive ClientEvent where
  | meet (nonce : Uuid)
  | accept
  | ask (call : Call)
  | hear
  | fetch
  deriving DecidableEq, Repr

inductive ServerEvent where
  | auth
  | parse
  | check
  | lock (now : Nat)
  | arrive (count : Nat)
  | store
  | answer
  deriving DecidableEq, Repr

/-- What happens next.  An end that goes away with `drop` or `close` may lose
all but the first `kept` bytes that it had written. -/
inductive TcpEvent where
  | connect (daemon address : SocketAddr) (nonce : Uuid)
  | acquire (daemon address : SocketAddr)
  | client (index : Nat) (event : ClientEvent)
  | release (index : Nat)
  | drop (index kept : Nat)
  | server (index : Nat) (event : ServerEvent)
  | close (index kept : Nat)
  | ram (address : SocketAddr) (now : Nat) (event : RamEvent)
  deriving DecidableEq

section

variable {ν : Type} (crates : Crates ν)

def hexHash (bytes : List UInt8) : String :=
  Bytes.toHex (crates.blake3 bytes).toList

def Call.request : Call → DataRequest
  | .write handle transferId offset payload => .writeChunk handle
      ⟨transferId, offset, payload.length, handle.size,
        hexHash crates payload⟩
  | .read handle transferId offset length =>
      .readChunk handle transferId offset length

end

namespace Connection

variable {α ν : Type} (crates : Crates ν)

def fail (connection : Connection ν) : Connection ν :=
  { connection with clientOpen := false }

/-- `write_frame` by the client. -/
def tell (form : Form α ν) (message : α) (stage : ClientStage ν)
    (connection : Connection ν) : Connection ν :=
  match crates.writeFrame form message with
  | .ok bytes => { connection with
      client := stage, toServer := connection.toServer ++ bytes }
  | .error _ => connection.fail

/-- `read_frame` by the client. -/
def listen (form : Form α ν)
    (continue_ : Connection ν → α → Result (Connection ν))
    (connection : Connection ν) : Option (Connection ν) := do
  let (message, rest) ← crates.readFrame form connection.toClient
  let connection := { connection with toClient := rest }
  match message >>= continue_ connection with
  | .ok next => some next
  | .error _ => some connection.fail

variable (settings : Settings)

/-- `connect`, `write_chunk_to` and `read_chunk_from`, between two awaits. -/
def clientStep (connection : Connection ν) (event : ClientEvent) :
    Option (Connection ν) :=
  match connection.client, event with
  | .greeted, .meet nonce =>
      connection.listen crates crates.challenge fun connection challenge =>
        pure (connection.tell crates crates.authentication
          ⟨settings.clusterName, nonce,
            crates.signature settings.clusterSecret
              (transcriptOf "client" challenge.nonce nonce
                settings.clusterName)⟩
          (.answered challenge.nonce nonce))
  | .answered server client, .accept =>
      connection.listen crates crates.authenticated
          fun connection accepted => do
        crates.verify settings.clusterSecret
          (transcriptOf "server" server client settings.clusterName)
          accepted.mac
        pure { connection with client := .held }
  | .held, .ask call => some (connection.tell crates crates.request
      (call.request crates) (.announced call))
  | .announced (.write handle transferId offset payload), .hear =>
      connection.listen crates crates.response fun connection response => do
        response.check
        pure { connection with
          client := .sent handle transferId offset payload
          toServer := connection.toServer ++ payload }
  | .announced (.read handle transferId offset length), .hear =>
      connection.listen crates crates.response fun connection response => do
        let metadata ← response.intoData
        pure { connection with
          client := .receiving handle transferId offset length metadata }
  | .sent handle transferId offset payload, .hear =>
      connection.listen crates crates.response fun connection response => do
        response.check
        pure { connection with
          client := .finished
          asked := connection.asked ++
            [.wrote handle.id transferId offset payload] }
  | .receiving handle _ offset length metadata, .fetch =>
      if length ≤ connection.toClient.length then
        let bytes := connection.toClient.take length
        let connection := { connection with
          toClient := connection.toClient.drop length }
        if crates.checksum metadata = some (hexHash crates bytes) then
          some { connection with
            client := .finished
            asked := connection.asked ++ [.read handle.id offset bytes] }
        else
          some connection.fail
      else
        none
  | _, _ => none

example (connection : Connection ν) (event : ClientEvent)
    (stage : connection.client = .pooled) :
    connection.clientStep crates settings event = none := by
  simp only [clientStep, stage]

/-- An error of `connection`: it writes the error, if it can, and returns.
A panic just drops the stream. -/
def refuse (fault : Fault) (connection : Connection ν) : Connection ν :=
  let said := match fault with
    | .error message =>
        match crates.writeFrame crates.response (crates.refusal message) with
        | .ok bytes => bytes
        | .error _ => []
    | .panic => []
  { connection with
    server := .failed
    serverOpen := false
    toClient := connection.toClient ++ said }

/-- `write_frame` by the server, which goes on with some bytes more. -/
def reply (form : Form α ν) (message : α) (more : List UInt8)
    (stage : ServerStage) (connection : Connection ν) :
    Result (Connection ν) := do
  let bytes ← crates.writeFrame form message
  pure { connection with
    server := stage, toClient := connection.toClient ++ bytes ++ more }

/-- The checks of `data` before it looks the block up. -/
def checkRange (request : DataRequest) : Result Unit :=
  match request with
  | .writeChunk handle chunk => do
      ensure (0 < chunk.length ∧ chunk.length ≤ settings.chunkBytes)
        "chunk size exceeds negotiated limit"
      ensure ((chunk.offset + chunk.length < 2 ^ 64 ∧
          chunk.offset + chunk.length ≤ chunk.totalSize) ∧
        chunk.totalSize = handle.size) "invalid chunk range"
  | .readChunk handle _ offset length => do
      ensure (0 < length ∧ length ≤ settings.chunkBytes)
        "chunk size exceeds negotiated limit"
      ensure (offset + length < 2 ^ 64 ∧ offset + length ≤ handle.size)
        "invalid read range"

def blockId : DataRequest → Uuid
  | .writeChunk handle _ => handle.id
  | .readChunk handle _ _ _ => handle.id

def serveChunk (now : Nat) (request : DataRequest) (arc : Arc)
    (block : RamBlock) (ram : LocalRam) (connection : Connection ν) :
    Result (Connection ν × LocalRam) :=
  match request with
  | .writeChunk handle chunk => do
      block.admitDirect now handle chunk
      let next ← connection.reply crates crates.response
        (.answer crates.null) [] (.receiving handle chunk arc [])
      pure (next, ram.put arc ⟨block, some (.writing chunk 0)⟩)
  | .readChunk handle transferId offset length => do
      let bytes ← block.read now handle offset length
      let next ← connection.reply crates crates.response
        (.answer (crates.metadata ⟨transferId, handle.id, offset, length,
          block.handle.size, hexHash crates bytes⟩)) bytes .ready
      pure ({ next with
        served := next.served ++ [.read block.handle.id offset bytes] }, ram)

/-- The server after a fallible step, which leaves the blocks alone when it
fails. -/
def orRefuse (connection : Connection ν) (ram : LocalRam)
    (result : Result (Connection ν × LocalRam)) : Connection ν × LocalRam :=
  match result with
  | .ok next => next
  | .error fault => (connection.refuse crates fault, ram)

/-- `connection`, `server_auth` and `data`, between two awaits. -/
def serverStep (connection : Connection ν) (ram : LocalRam) :
    ServerEvent → Option (Connection ν × LocalRam)
  | .auth =>
      match connection.server with
      | .challenging server => do
          let (message, rest) ←
            crates.readFrame crates.authentication connection.toServer
          let connection := { connection with toServer := rest }
          some (connection.orRefuse crates ram (do
            let auth ← message
            ensure (auth.clusterName = settings.clusterName)
              "TRAINPOOL_CLUSTER_MISMATCH"
            crates.verify settings.clusterSecret
              (transcriptOf "client" server auth.nonce settings.clusterName)
              auth.mac
            let next ← connection.reply crates crates.authenticated
              ⟨crates.signature settings.clusterSecret
                (transcriptOf "server" server auth.nonce settings.clusterName)⟩
              [] .ready
            pure (next, ram)))
      | _ => none
  | .parse =>
      match connection.server with
      | .ready => do
          let (message, rest) ←
            crates.readFrame crates.request connection.toServer
          let connection := { connection with toServer := rest }
          some (connection.orRefuse crates ram (do
            let request ← message
            pure ({ connection with server := .handling request }, ram)))
      | _ => none
  | .check =>
      match connection.server with
      | .handling request => some (connection.orRefuse crates ram (do
          checkRange settings request
          let arc ← ram.get (blockId request)
          pure ({ connection with server := .waiting request arc }, ram)))
      | _ => none
  | .lock now =>
      match connection.server with
      | .waiting request arc => do
          let block ← ram.lock? arc
          some (connection.orRefuse crates ram
            (connection.serveChunk crates now request arc block ram))
      | _ => none
  -- The chunk is read into the block as its bytes arrive.
  | .arrive count =>
      match connection.server with
      | .receiving handle chunk arc got =>
          if 0 < count ∧ count ≤ connection.toServer.length ∧
              got.length + count ≤ chunk.length then do
            let cell ← ram.heap[arc]?
            let piece := connection.toServer.take count
            some ({ connection with
                server := .receiving handle chunk arc (got ++ piece)
                toServer := connection.toServer.drop count },
              ram.put arc ⟨cell.block.stream chunk got.length piece,
                some (.writing chunk (got ++ piece).length)⟩)
          else
            none
      | _ => none
  | .store =>
      match connection.server with
      | .receiving _ chunk arc got =>
          if got.length = chunk.length then do
            let cell ← ram.heap[arc]?
            match cell.block.finishDirect crates.blake3 chunk with
            | .ok next => some ({ connection with
                server := .stored
                served := connection.served ++ [.wrote cell.block.handle.id
                  chunk.transferId chunk.offset (Slice.slice cell.block.bytes
                    chunk.offset (chunk.offset + chunk.length))] },
                ram.put arc ⟨next, none⟩)
            | .error fault => some (connection.refuse crates fault,
                ram.put arc ⟨cell.block, none⟩)
          else
            none
      | _ => none
  | .answer =>
      match connection.server with
      | .stored => some (connection.orRefuse crates ram (do
          let next ← connection.reply crates crates.response
            (.answer crates.null) [] .ready
          pure (next, ram)))
      | _ => none

/-- The blocks after a handler is dropped, with the mutex that it held. -/
def unlocked (connection : Connection ν) (ram : LocalRam) : LocalRam :=
  match connection.server with
  | .receiving _ _ arc _ =>
      match ram.heap[arc]? with
      | some cell => ram.put arc ⟨cell.block, none⟩
      | none => ram
  | _ => ram

end Connection

/-- The steps of other handlers, which do not touch the mutex of a direct
write. -/
def foreign (ram : LocalRam) : RamEvent → Bool
  | .beginDirect .. | .stream .. | .finishDirect .. => false
  | .release arc =>
      match ram.heap[arc]? with
      | some ⟨_, some (.writing _ _)⟩ => false
      | _ => true
  | _ => true

namespace World

variable {ν : Type}

def empty : World ν where
  connections := []
  pool _ _ := []
  ram _ := .empty

def setConnection (index : Nat) (connection : Connection ν)
    (world : World ν) : World ν :=
  { world with connections := world.connections.set index connection }

def setPool (daemon address : SocketAddr) (indices : List Nat)
    (world : World ν) : World ν :=
  { world with
    pool := Function.update world.pool daemon
      (Function.update (world.pool daemon) address indices) }

def setRam (address : SocketAddr) (ram : LocalRam) (world : World ν) :
    World ν :=
  { world with ram := Function.update world.ram address ram }

variable (crates : Crates ν) (settings : SocketAddr → Settings)

def step (world : World ν) : TcpEvent → Option (World ν)
  -- `acquire_tcp_data` of an address without a stream in the pool.
  | .connect daemon address nonce =>
      match world.pool daemon address,
          crates.writeFrame crates.challenge ⟨nonce⟩ with
      | [], .ok bytes => some { world with
          connections := world.connections ++ [{
            daemon := daemon, address := address
            client := .greeted, server := .challenging nonce
            clientOpen := true, serverOpen := true
            toServer := [], toClient := bytes
            asked := [], served := [] }] }
      | _, _ => none
  | .acquire daemon address => do
      let index ← (world.pool daemon address).getLast?
      let connection ← world.connections[index]?
      some ((world.setPool daemon address
        (world.pool daemon address).dropLast).setConnection index
          { connection with client := .held })
  | .client index event => do
      let connection ← world.connections[index]?
      if connection.clientOpen then
        let next ← connection.clientStep crates (settings connection.daemon)
          event
        some (world.setConnection index next)
      else
        none
  -- `release_tcp_data`
  | .release index => do
      let connection ← world.connections[index]?
      let pooled := world.pool connection.daemon connection.address
      match connection.clientOpen, connection.client with
      | true, .finished =>
          if pooled.length < 8 then
            some ((world.setPool connection.daemon connection.address
              (pooled ++ [index])).setConnection index
                { connection with client := .pooled })
          else
            some (world.setConnection index connection.fail)
      | _, _ => none
  | .drop index kept => do
      let connection ← world.connections[index]?
      match connection.clientOpen, connection.client with
      | true, .pooled => none
      | true, _ => some (world.setConnection index { connection with
          clientOpen := false
          toServer := connection.toServer.take kept })
      | false, _ => none
  | .server index event => do
      let connection ← world.connections[index]?
      if connection.serverOpen then
        let (next, ram) ← connection.serverStep crates
          (settings connection.address) (world.ram connection.address) event
        some ((world.setRam connection.address ram).setConnection index next)
      else
        none
  | .close index kept => do
      let connection ← world.connections[index]?
      if connection.serverOpen then
        some ((world.setRam connection.address
          (connection.unlocked (world.ram connection.address))).setConnection
            index { connection with
              serverOpen := false
              toClient := connection.toClient.take kept })
      else
        none
  | .ram address now event =>
      if foreign (world.ram address) event then do
        let ram ← (world.ram address).step crates.blake3
          (settings address).identity (settings address).leaseSeconds now event
        some (world.setRam address ram)
      else
        none

end World

end TcpData

end TrainPool
