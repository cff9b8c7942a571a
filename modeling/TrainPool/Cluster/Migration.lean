import TrainPool.Memory.LocalRam
import TrainPool.Cluster.Leader
import Mathlib.Logic.Function.Basic

namespace TrainPool

/-! Several daemons and the table of one leader.  Membership and leadership do
not change, so that the checks of the leadership pass and are left out.  Every
critical section is a step; the mutex of the source of a migration is held
from its pin to its release. -/

/-- What the other daemons know of a daemon, and its settings. -/
structure Node where
  incarnation : Uuid
  leaseSeconds : Nat
  chunkBytes : Nat
  udp : Bool
  deriving DecidableEq, Repr

/-- The fate of a remote call: executed and answered, executed without an
answer, or not executed. -/
inductive Rpc where
  | answered
  | unanswered
  | lost
  deriving DecidableEq, Repr

/-- The progress of `migrate`.  `arc` is the block it pinned, `copy` the block
that a request found at the destination. -/
inductive MigrateStage where
  | lookup
  | lock (arc : Arc)
  | target (arc : Arc)
  | allocate (arc : Arc) (target : MemoryBlockHandle)
  | write (arc : Arc) (target : MemoryBlockHandle) (transferId : Uuid)
      (offset : Nat)
  | writeAt (arc : Arc) (target : MemoryBlockHandle) (transferId : Uuid)
      (offset : Nat) (copy : Arc)
  | commit (arc : Arc) (target : MemoryBlockHandle)
  | commitAt (arc : Arc) (target : MemoryBlockHandle) (copy : Arc)
  | commitRegister (arc : Arc) (target committed : MemoryBlockHandle)
  | discard (arc : Arc) (target : MemoryBlockHandle)
  | discardCheck (arc : Arc) (target : MemoryBlockHandle) (copy : Arc)
  | discardRemove (arc : Arc) (target : MemoryBlockHandle) (copy : Arc)
  | swap (arc : Arc) (committed : MemoryBlockHandle)
  | publish (arc : Arc) (committed : MemoryBlockHandle)
  | publishAt (arc : Arc) (committed : MemoryBlockHandle) (copy : Arc)
  | release
  | releaseCheck (found : Arc)
  | releaseRemove (found : Arc)
  deriving DecidableEq, Repr

structure Migration where
  source : Uuid
  destination : Uuid
  handle : MemoryBlockHandle
  stage : MigrateStage
  deriving DecidableEq, Repr

/-- A request under way, from the moment it was resolved. -/
inductive Call where
  | renew (handle : MemoryBlockHandle)
  | renewAt (handle : MemoryBlockHandle) (arc : Arc)
  | commit (handle : MemoryBlockHandle) (checksum : String)
  | commitAt (handle : MemoryBlockHandle) (checksum : String) (arc : Arc)
  | free (handle : MemoryBlockHandle)
  | freeCheck (handle : MemoryBlockHandle) (arc : Arc)
  | freeRemove (handle : MemoryBlockHandle) (arc : Arc)
  | register (handle : MemoryBlockHandle)
  | migrate (migration : Migration)
  | returned (ok : Bool)
  deriving DecidableEq, Repr

structure Cluster where
  now : Nat
  rams : Uuid → LocalRam
  table : ResidencyTable
  calls : Table Nat Call

/-- What the environment decides about a step of a call. -/
structure Fate where
  rpc : Rpc
  headroom : Bool
  reserved : Bool
  transferId : Uuid
  arrived : Nat
  deriving DecidableEq, Repr

inductive ClusterEvent where
  | tick (elapsed : Nat)
  | expire (node : Uuid)
  | inventory (key : Nat) (node id : Uuid)
  | renew (key : Nat) (id leaseToken : Uuid)
  | commit (key : Nat) (id leaseToken : Uuid) (checksum : String)
  | free (key : Nat) (id leaseToken : Uuid)
  | migrate (key : Nat) (source : Uuid) (handle : MemoryBlockHandle)
      (destination : Uuid)
  | advance (key : Nat) (fate : Fate)
  | cancel (key : Nat)
  deriving DecidableEq

namespace RamBlock

/-- A direct `WriteChunk` whose bytes all arrive. -/
def receiveDirect (blake3 : List UInt8 → Digest) (now chunkBytes : Nat)
    (handle : MemoryBlockHandle) (transferId : Uuid) (offset : Nat)
    (payload : List UInt8) (block : RamBlock) : Result RamBlock := do
  let chunk : Chunk := ⟨transferId, offset, payload.length, handle.size,
    Bytes.toHex (blake3 payload).toList⟩
  ensure (0 < payload.length ∧ payload.length ≤ chunkBytes)
    "chunk size exceeds negotiated limit"
  ensure (offset + payload.length ≤ handle.size) "invalid chunk range"
  block.admitDirect now handle chunk
  (block.stream chunk 0 payload).finishDirect blake3 chunk

/-- A direct `WriteChunk` that breaks off after some of its bytes. -/
def receivePart (blake3 : List UInt8 → Digest) (now : Nat)
    (handle : MemoryBlockHandle) (transferId : Uuid) (offset : Nat)
    (payload : List UInt8) (arrived : Nat) (block : RamBlock) :
    Result RamBlock := do
  let chunk : Chunk := ⟨transferId, offset, payload.length, handle.size,
    Bytes.toHex (blake3 payload).toList⟩
  block.admitDirect now handle chunk
  pure (block.stream chunk 0 (payload.take arrived))

end RamBlock

def LocalRam.unlock (arc : Arc) (ram : LocalRam) : LocalRam :=
  match ram.heap[arc]? with
  | some cell => ram.put arc ⟨cell.block, none⟩
  | none => ram

namespace Cluster

def setRam (node : Uuid) (ram : LocalRam) (cluster : Cluster) : Cluster :=
  { cluster with rams := Function.update cluster.rams node ram }

def setCall (key : Nat) (call : Call) (cluster : Cluster) : Cluster :=
  { cluster with calls := cluster.calls.insert key call }

def setTable (table : ResidencyTable) (cluster : Cluster) : Cluster :=
  { cluster with table := table }

def spawn (key : Nat) (call : Call) (cluster : Cluster) : Option Cluster :=
  if cluster.calls.lookup key = none then some (cluster.setCall key call)
  else none

section Steps

variable (blake3 : List UInt8 → Digest) (nodes : Uuid → Option Node)

/-- `Resolve`, with the address of the owner. -/
def resolve (id leaseToken : Uuid) (cluster : Cluster) :
    Result MemoryBlockHandle := do
  let handle ← cluster.table.resolve cluster.now id leaseToken
  ensure ((nodes handle.ownerNode).isSome)
    s!"TRAINPOOL_NODE_UNAVAILABLE: {handle.ownerNode}"
  pure handle

def proceed (key : Nat) (migration : Migration) (stage : MigrateStage)
    (cluster : Cluster) : Cluster :=
  cluster.setCall key (.migrate { migration with stage := stage })

def giveUp (key : Nat) (migration : Migration) (arc : Arc)
    (cluster : Cluster) : Cluster :=
  (cluster.setRam migration.source
    ((cluster.rams migration.source).unlock arc)).setCall key
      (.returned false)

def targetHandle (destination : Uuid) (node : Node) (lease : Nat)
    (handle : MemoryBlockHandle) : MemoryBlockHandle :=
  { handle with
    ownerNode := destination
    ownerIncarnation := node.incarnation
    locationType := .ram destination
    generation := (handle.generation + 1) % 2 ^ 64
    state := .writing
    checksum := none
    leaseExpiresMs := lease }

def nextChunk (own peer : Node) (offset : Nat) (block : RamBlock) :
    List UInt8 :=
  Slice.slice block.bytes offset
    (offset + min own.chunkBytes peer.chunkBytes)

def receive (own peer : Node) (now : Nat) (target : MemoryBlockHandle)
    (transferId : Uuid) (offset : Nat) (payload : List UInt8)
    (block : RamBlock) : Result RamBlock :=
  if own.udp && peer.udp then
    block.finishUdp now target.leaseToken target.generation offset payload
      transferId
  else
    block.receiveDirect blake3 now peer.chunkBytes target transferId offset
      payload

/-- A chunk that fails.  Bytes sent over TCP may have reached the block. -/
def receiveLost (own peer : Node) (now : Nat) (target : MemoryBlockHandle)
    (transferId : Uuid) (offset : Nat) (payload : List UInt8)
    (arrived : Nat) (block : RamBlock) : Result RamBlock :=
  if own.udp && peer.udp then
    .ok block
  else
    block.receivePart blake3 now target transferId offset payload arrived

def advanceMigration (key : Nat) (fate : Fate) (migration : Migration)
    (cluster : Cluster) : Option Cluster :=
  let source := cluster.rams migration.source
  let remote := cluster.rams migration.destination
  match migration.stage with
  | .lookup =>
      if migration.destination = migration.source then
        some (cluster.setCall key (.returned false))
      else
        match source.get migration.handle.id with
        | .ok arc => some (cluster.proceed key migration (.lock arc))
        | .error _ => some (cluster.setCall key (.returned false))
  | .lock arc => do
      let block ← source.lock? arc
      match block.admitMigration cluster.now migration.handle with
      | .ok _ => some ((cluster.setRam migration.source
          (source.put arc ⟨block, some .reading⟩)).proceed key migration
            (.target arc))
      | .error _ => some (cluster.setCall key (.returned false))
  | .target arc => do
      let cell ← source.heap[arc]?
      let own ← nodes migration.source
      match nodes migration.destination with
      | none => some (cluster.giveUp key migration arc)
      | some peer => some (cluster.proceed key migration (.allocate arc
          (targetHandle migration.destination peer
            (cluster.now + own.leaseSeconds * 1000) cell.block.handle)))
  | .allocate arc target => do
      let peer ← nodes migration.destination
      if fate.rpc = .lost then
        some (cluster.giveUp key migration arc)
      else
        match allocateLocal ⟨migration.destination, peer.incarnation⟩ target
            fate.headroom fate.reserved remote with
        | .error _ => some (cluster.giveUp key migration arc)
        | .ok next =>
            let allocated := cluster.setRam migration.destination next
            if fate.rpc = .answered then
              some (allocated.proceed key migration
                (.write arc target fate.transferId 0))
            else
              some (allocated.giveUp key migration arc)
  | .write arc target transferId offset => do
      let cell ← source.heap[arc]?
      if cell.block.bytes.length ≤ offset then
        some (cluster.proceed key migration (.commit arc target))
      else if fate.rpc = .lost then
        some (cluster.proceed key migration (.discard arc target))
      else
        match remote.get target.id with
        | .error _ =>
            some (cluster.proceed key migration (.discard arc target))
        | .ok copy => some (cluster.proceed key migration
            (.writeAt arc target transferId offset copy))
  | .writeAt arc target transferId offset copy => do
      let cell ← source.heap[arc]?
      let own ← nodes migration.source
      let peer ← nodes migration.destination
      let payload := nextChunk own peer offset cell.block
      if fate.rpc = .lost then
        match remote.lock? copy with
        | none => some (cluster.proceed key migration (.discard arc target))
        | some block =>
            let lost := receiveLost blake3 own peer cluster.now target
              transferId offset payload fate.arrived block
            some ((cluster.setRam migration.destination
              (remote.conclude copy lost)).proceed key migration
                (.discard arc target))
      else
        let block ← remote.lock? copy
        match receive blake3 own peer cluster.now target transferId offset
            payload block with
        | .error _ =>
            some (cluster.proceed key migration (.discard arc target))
        | .ok next =>
            let written := cluster.setRam migration.destination
              (remote.put copy ⟨next, none⟩)
            if fate.rpc = .answered then
              some (written.proceed key migration
                (.write arc target transferId
                  (offset + min own.chunkBytes peer.chunkBytes)))
            else
              some (written.proceed key migration (.discard arc target))
  | .commit arc target =>
      if fate.rpc = .lost then
        some (cluster.proceed key migration (.discard arc target))
      else
        match remote.get target.id with
        | .error _ =>
            some (cluster.proceed key migration (.discard arc target))
        | .ok copy =>
            some (cluster.proceed key migration (.commitAt arc target copy))
  | .commitAt arc target copy => do
      let cell ← source.heap[arc]?
      match cell.block.handle.checksum with
      | none => some (cluster.giveUp key migration arc)
      | some checksum =>
          if fate.rpc = .lost then
            some (cluster.proceed key migration (.discard arc target))
          else
            let block ← remote.lock? copy
            match block.commit blake3 cluster.now target checksum with
            | .error _ =>
                some (cluster.proceed key migration (.discard arc target))
            | .ok next =>
                let committed := cluster.setRam migration.destination
                  (remote.put copy ⟨next, none⟩)
                if next.handle.generation = 0 then
                  some (committed.proceed key migration
                    (.commitRegister arc target next.handle))
                else if fate.rpc = .answered then
                  some (committed.proceed key migration
                    (.swap arc next.handle))
                else
                  some (committed.proceed key migration
                    (.discard arc target))
  | .commitRegister arc target committed =>
      if fate.rpc = .lost then
        some (cluster.proceed key migration (.discard arc target))
      else
        let registered := cluster.setTable (cluster.table.register committed)
        if fate.rpc = .answered then
          some (registered.proceed key migration (.swap arc committed))
        else
          some (registered.proceed key migration (.discard arc target))
  | .discard arc target =>
      if fate.rpc = .lost then
        some (cluster.giveUp key migration arc)
      else
        match remote.get target.id with
        | .error _ => some (cluster.giveUp key migration arc)
        | .ok copy => some (cluster.proceed key migration
            (.discardCheck arc target copy))
  | .discardCheck arc target copy =>
      if fate.rpc = .lost then
        some (cluster.giveUp key migration arc)
      else do
        let block ← remote.lock? copy
        if block.handle.leaseToken = target.leaseToken then
          some (cluster.proceed key migration
            (.discardRemove arc target copy))
        else
          some (cluster.giveUp key migration arc)
  | .discardRemove arc target copy =>
      if fate.rpc = .lost then
        some (cluster.giveUp key migration arc)
      else
        some ((cluster.setRam migration.destination
          (remote.remove target.id copy)).giveUp key migration arc)
  | .swap arc committed =>
      if fate.rpc = .lost then
        some (cluster.giveUp key migration arc)
      else
        match cluster.table.registerRequest committed
            (some migration.handle.generation) with
        | .error _ => some (cluster.giveUp key migration arc)
        | .ok table =>
            if fate.rpc = .answered then
              some ((cluster.setTable table).proceed key migration
                (.publish arc committed))
            else
              some ((cluster.setTable table).giveUp key migration arc)
  | .publish arc committed =>
      if fate.rpc = .lost then
        some (cluster.giveUp key migration arc)
      else
        match remote.get committed.id with
        | .error _ => some (cluster.giveUp key migration arc)
        | .ok copy => some (cluster.proceed key migration
            (.publishAt arc committed copy))
  | .publishAt arc committed copy =>
      if fate.rpc = .lost then
        some (cluster.giveUp key migration arc)
      else do
        let block ← remote.lock? copy
        match block.publish cluster.now committed with
        | .error _ => some (cluster.giveUp key migration arc)
        | .ok next =>
            let published := cluster.setRam migration.destination
              (remote.put copy ⟨next, none⟩)
            if fate.rpc = .answered then
              some ((published.setRam migration.source
                ((published.rams migration.source).unlock arc)).proceed key
                  migration .release)
            else
              some (published.giveUp key migration arc)
  | .release =>
      match source.get migration.handle.id with
      | .ok found =>
          some (cluster.proceed key migration (.releaseCheck found))
      | .error _ => some (cluster.setCall key (.returned true))
  | .releaseCheck found => do
      let block ← source.lock? found
      if block.handle.leaseToken = migration.handle.leaseToken then
        some (cluster.proceed key migration (.releaseRemove found))
      else
        some (cluster.setCall key (.returned false))
  | .releaseRemove found =>
      some ((cluster.setRam migration.source
        (source.remove migration.handle.id found)).setCall key
          (.returned true))

def advanceCall (key : Nat) (fate : Fate) (cluster : Cluster) :
    Call → Option Cluster
  | .migrate migration =>
      cluster.advanceMigration blake3 nodes key fate migration
  | .returned _ => none
  | call =>
      if fate.rpc = .lost then
        some (cluster.setCall key (.returned false))
      else
        match call with
        | .renew handle =>
            match (cluster.rams handle.ownerNode).get handle.id with
            | .ok arc => some (cluster.setCall key (.renewAt handle arc))
            | .error _ => some (cluster.setCall key (.returned false))
        | .renewAt handle arc => do
            let own ← nodes handle.ownerNode
            let ram := cluster.rams handle.ownerNode
            let block ← ram.lock? arc
            match block.renew cluster.now own.leaseSeconds handle with
            | .ok next => some ((cluster.setRam handle.ownerNode
                (ram.put arc ⟨next, none⟩)).setCall key
                  (.register next.handle))
            | .error _ => some (cluster.setCall key (.returned false))
        | .commit handle checksum =>
            match (cluster.rams handle.ownerNode).get handle.id with
            | .ok arc =>
                some (cluster.setCall key (.commitAt handle checksum arc))
            | .error _ => some (cluster.setCall key (.returned false))
        | .commitAt handle checksum arc => do
            let ram := cluster.rams handle.ownerNode
            let block ← ram.lock? arc
            match block.commit blake3 cluster.now handle checksum with
            | .ok next =>
                let committed := cluster.setRam handle.ownerNode
                  (ram.put arc ⟨next, none⟩)
                if next.handle.generation = 0 then
                  some (committed.setCall key (.register next.handle))
                else
                  some (committed.setCall key (.returned true))
            | .error _ => some (cluster.setCall key (.returned false))
        | .free handle =>
            match (cluster.rams handle.ownerNode).get handle.id with
            | .ok arc => some (cluster.setCall key (.freeCheck handle arc))
            | .error _ => some (cluster.setCall key
                (.register { handle with leaseExpiresMs := 0 }))
        | .freeCheck handle arc => do
            let block ← (cluster.rams handle.ownerNode).lock? arc
            if block.handle.leaseToken = handle.leaseToken then
              some (cluster.setCall key (.freeRemove handle arc))
            else
              some (cluster.setCall key (.returned false))
        | .freeRemove handle arc =>
            some ((cluster.setRam handle.ownerNode
              ((cluster.rams handle.ownerNode).remove handle.id
                arc)).setCall key
                  (.register { handle with leaseExpiresMs := 0 }))
        | .register handle =>
            some ((cluster.setTable
              (cluster.table.register handle)).setCall key (.returned true))
        | _ => none

def held : Call → Option (Uuid × Arc)
  | .migrate migration =>
      match migration.stage with
      | .lookup | .lock _ | .release | .releaseCheck _ | .releaseRemove _ =>
          none
      | .target arc | .allocate arc _ | .write arc _ _ _
      | .writeAt arc _ _ _ _ | .commit arc _ | .commitAt arc _ _
      | .commitRegister arc _ _ | .discard arc _ | .discardCheck arc _ _
      | .discardRemove arc _ _ | .swap arc _ | .publish arc _
      | .publishAt arc _ _ => some (migration.source, arc)
  | _ => none

def cancel (key : Nat) (cluster : Cluster) : Call → Option Cluster
  | .returned _ => none
  | call =>
      match held call with
      | none => some (cluster.setCall key (.returned false))
      | some (node, arc) => some ((cluster.setRam node
          ((cluster.rams node).unlock arc)).setCall key (.returned false))

/-- `Renew`, `Commit` and `Free` start with a `Resolve`.  The pressure relief
of the leader is a series of `migrate` requests. -/
def step (cluster : Cluster) : ClusterEvent → Option Cluster
  | .tick elapsed => some { cluster with now := cluster.now + elapsed }
  | .expire node => some (cluster.setRam node
      ((cluster.rams node).expire cluster.now))
  | .inventory key node id => do
      let arc ← (cluster.rams node).blocks.lookup id
      let handle ← (cluster.rams node).listed arc
      cluster.spawn key (.register handle)
  | .renew key id leaseToken =>
      match cluster.resolve nodes id leaseToken with
      | .ok handle => cluster.spawn key (.renew handle)
      | .error _ => some cluster
  | .commit key id leaseToken checksum =>
      match cluster.resolve nodes id leaseToken with
      | .ok handle => cluster.spawn key (.commit handle checksum)
      | .error _ => some cluster
  | .free key id leaseToken =>
      match cluster.resolve nodes id leaseToken with
      | .ok handle => cluster.spawn key (.free handle)
      | .error _ => some cluster
  | .migrate key source handle destination =>
      cluster.spawn key (.migrate ⟨source, destination, handle, .lookup⟩)
  | .advance key fate => do
      let call ← cluster.calls.lookup key
      cluster.advanceCall blake3 nodes key fate call
  | .cancel key => do
      let call ← cluster.calls.lookup key
      cluster.cancel key call

end Steps

/-! Two daemons, of which node 2 has a committed block. -/

def sampleNodes (node : Uuid) : Option Node :=
  if node = 2 then some ⟨20, 300, 4096, false⟩
  else if node = 3 then some ⟨30, 300, 4096, false⟩
  else none

def abcBlock : RamBlock where
  handle := abcReady
  bytes := [97, 98, 99]
  written := 3
  transferId := some 9
  hash := [97, 98, 99]
  published := true

def sampleCluster : Cluster where
  now := 0
  rams := Function.update (fun _ => LocalRam.empty) 2
    ⟨(∅ : Table Uuid Arc).insert 7 0, [⟨abcBlock, none⟩]⟩
  table := (∅ : ResidencyTable).insert 7 abcReady
  calls := ∅

/-- A step of a request in which all goes well, up to the fate of the call. -/
def advances (key count : Nat) (rpc : Rpc) : List ClusterEvent :=
  List.replicate count (.advance key ⟨rpc, true, true, 4, 0⟩)

end Cluster

end TrainPool
