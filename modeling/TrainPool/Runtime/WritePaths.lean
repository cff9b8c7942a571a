import TrainPool.Runtime.Receiver
import TrainPool.Runtime.Write

namespace TrainPool

open Slice

/-! The paths on which a chunk reaches the block it belongs to: through the
relay of a client whose daemon owns the block, by a direct request, and in the
datagrams of a UDP session. -/

/-- The checks of a `WriteChunk` before it looks its block up. -/
def Chunk.check (config : Config) (handle : MemoryBlockHandle)
    (chunk : Chunk) : Result Unit := do
  ensure (0 < chunk.length ∧ chunk.length ≤ config.chunkBytes)
    "chunk size exceeds negotiated limit"
  ensure (chunk.offset + chunk.length ≤ chunk.totalSize ∧
    chunk.totalSize = handle.size) "invalid chunk range"

theorem Chunk.check_ok {config : Config} {handle : MemoryBlockHandle}
    {chunk : Chunk} :
    chunk.check config handle = .ok () ↔
      (0 < chunk.length ∧ chunk.length ≤ config.chunkBytes) ∧
        chunk.offset + chunk.length ≤ chunk.totalSize ∧
          chunk.totalSize = handle.size := by
  simp only [Chunk.check, ensure_bind_ok, ensure_ok]

namespace RamBlock

variable (config : Config) (blake3 : List UInt8 → Digest) (now : Nat)
  (handle : MemoryBlockHandle) (chunk : Chunk) (payload : List UInt8)

/-- `WriteChunk` with `direct` unset, at the owner of the resolved block. -/
def relayWrite (block : RamBlock) : Result RamBlock := do
  chunk.check config handle
  ensure (Bytes.toHex (blake3 payload).toList = chunk.checksum)
    "TRAINPOOL_CHECKSUM_MISMATCH"
  block.writeLocal now handle chunk.transferId chunk.offset payload

def relayChunk (block : RamBlock) : RamBlock × Result Unit :=
  match block.relayWrite config blake3 now handle chunk payload with
  | .ok next => (next, .ok ())
  | .error fault => (block, .error fault)

/-- `WriteChunk` with `direct` set.  The bytes land before their checksum is
compared. -/
def directChunk (block : RamBlock) : RamBlock × Result Unit :=
  match (do chunk.check config handle; block.admitDirect now handle chunk) with
  | .error fault => (block, .error fault)
  | .ok _ =>
      let streamed := block.stream chunk 0 payload
      match streamed.finishDirect blake3 chunk with
      | .ok next => (next, .ok ())
      | .error fault => (streamed, .error fault)

end RamBlock

theorem ensure_error {condition : Prop} [Decidable condition]
    {message : String} {fault : Fault}
    (refused : ensure condition message = .error fault) :
    fault = .error message := by
  unfold ensure at refused
  split at refused <;> cases refused
  rfl

theorem ensure_bind_error {β : Type} {condition : Prop}
    [Decidable condition] {message : String} {second : Unit → Result β}
    {fault : Fault}
    (refused : (ensure condition message >>= second) = .error fault) :
    fault = .error message ∨ second () = .error fault := by
  cases first : ensure condition message with
  | error other =>
      rw [first] at refused
      cases refused
      exact .inl (ensure_error first)
  | ok =>
      rw [first] at refused
      exact .inr refused

section Serve

variable {config : Config} {blake3 : List UInt8 → Digest}
  {source : SocketAddr} {moment : Moment} {handler : Handler}
  {shared next final : Shared}

theorem Handler.complete_fail {fuel : Nat} {message : String}
    (ran : handler.run config blake3 source moment.now moment.instant
      moment.choice shared = some (next, .fail message)) :
    handler.complete config blake3 source moment (fuel + 1) shared =
      some (next, .fail message) := by
  simp only [complete, ran, Option.bind_eq_bind, Option.bind_some]

def ServesTo (config : Config) (blake3 : List UInt8 → Digest)
    (source : SocketAddr) (moment : Moment) (packets : List Packet)
    (shared next : Shared) (replies : List Packet) : Prop :=
  ∀ rest, serve config blake3 source moment
      (packets.map ({ packet := · }) ++ rest) shared =
    (serve config blake3 source moment rest next).map fun result =>
      (result.1, replies ++ result.2.1, result.2.2)

theorem ServesTo.nil : ServesTo config blake3 source moment [] shared shared
    [] := by
  intro rest
  cases served : serve config blake3 source moment rest shared with
  | none => simp [served]
  | some result => simp [served]

theorem ServesTo.append {front back : List Packet}
    {first second : List Packet}
    (early : ServesTo config blake3 source moment front shared next first)
    (late : ServesTo config blake3 source moment back next final second) :
    ServesTo config blake3 source moment (front ++ back) shared final
      (first ++ second) := by
  intro rest
  rw [List.map_append, List.append_assoc, early, late, Option.map_map]
  congr 1
  funext result
  simp

theorem ServesTo.single {packet : Packet} {outcome : Outcome}
    (completed : ({ packet := packet } : Handler).complete config blake3
      source moment 8 shared = some (next, outcome))
    (ends : (∃ reply, outcome = .answer reply) ∨
      ∃ message, outcome = .fail message) :
    ServesTo config blake3 source moment [packet] shared next
      (outcome.replies packet) := by
  intro rest
  change serve config blake3 source moment (_ :: rest) shared = _
  simp only [serve, completed, Option.bind_eq_bind, Option.bind_some]
  rcases ends with ⟨reply, rfl⟩ | ⟨message, rfl⟩ <;> simp only <;>
    cases serve config blake3 source moment rest next <;> rfl

theorem ServesTo.whole {packets replies : List Packet}
    (serves : ServesTo config blake3 source moment packets shared next
      replies) :
    serve config blake3 source moment (packets.map ({ packet := · }))
      shared = some (next, replies, []) := by
  have here := serves []
  rw [List.append_nil] at here
  rw [here]
  simp [serve]

end Serve

namespace Link

variable (link : Link)

structure Unknown (shared : Shared) : Prop where
  absent : shared.udp.incoming.lookup link.key = none
  idle : link.key ∉ shared.udp.finishing
  uncompleted : shared.udp.completed.lookup
    (link.key, link.request.offset) = none

section

variable {link} {shared : Shared} {instant : Nat} {moment : Moment}
  {session : IncomingSession}

theorem Unknown.age (unknown : link.Unknown shared) (instant : Nat) :
    link.Unknown { shared with udp := shared.udp.ageCompleted instant } :=
  ⟨unknown.absent, unknown.idle,
    Table.lookup_retain_none unknown.uncompleted⟩

theorem Unknown.data (unknown : link.Unknown shared) (sequence : ℕ) :
    ({ packet := link.request.dataPacket link.config sequence } :
      Handler).complete link.config link.blake3 link.address moment 8
        shared =
      some ({ shared with udp := shared.udp.ageCompleted moment.instant },
        .fail "stale UDP transfer ID") := by
  have aged := unknown.age moment.instant
  let after : Shared :=
    { shared with udp := shared.udp.ageCompleted moment.instant }
  rw [Handler.complete_next after .dataCompleted rfl,
    Handler.complete_next after .dataSession,
    Handler.complete_next after .dataFinishing]
  · apply Handler.complete_fail
    have idle : (link.request.dataPacket link.config sequence).key
        link.address ∉ after.udp.finishing := aged.idle
    simp only [Handler.run, if_neg idle]
    rfl
  · have absent : after.udp.incoming.lookup
        ((link.request.dataPacket link.config sequence).key link.address) =
          none := aged.absent
    simp only [Handler.run, Handler.runDataSession, absent]
  · simp only [Handler.run]
    rw [isCompleted_dataPacket aged.uncompleted]
    rfl

theorem Unknown.fin (unknown : link.Unknown shared) :
    (link.finHandler .enter).complete link.config link.blake3 link.address
        moment 8 shared =
      some ({ shared with udp := shared.udp.ageCompleted moment.instant },
        .fail "stale UDP transfer ID") := by
  have aged := unknown.age moment.instant
  let after : Shared :=
    { shared with udp := shared.udp.ageCompleted moment.instant }
  rw [Handler.complete_next after .finCompleted rfl,
    Handler.complete_next after .finSession,
    Handler.complete_next after .finFinishing]
  · apply Handler.complete_fail
    have idle : (link.request.finPacket link.config link.blake3).key
        link.address ∉ after.udp.finishing := aged.idle
    exact congrArg (fun outcome => some (after, outcome)) (if_neg idle)
  · have absent : after.udp.incoming.lookup
        ((link.request.finPacket link.config link.blake3).key link.address) =
          none := aged.absent
    simp only [finHandler, Handler.run, Handler.runFinSession, absent]
  · have uncompleted : after.udp.completed.lookup
        ((link.request.finPacket link.config link.blake3).key link.address,
          (link.request.finPacket link.config link.blake3).offset) = none :=
      aged.uncompleted
    simp only [finHandler, Handler.run, uncompleted, Option.isSome_none,
      Bool.false_eq_true, if_false]

theorem Unknown.all (unknown : link.Unknown shared) (order : List ℕ) :
    ∃ next replies, ServesTo link.config link.blake3 link.address moment
        (order.map (link.request.dataPacket link.config)) shared next
        replies ∧
      next.ram = shared.ram ∧ link.Unknown next ∧
      ∀ reply ∈ replies, reply.kind ≠ .complete := by
  induction order generalizing shared with
  | nil => exact ⟨shared, [], .nil, rfl, unknown, nofun⟩
  | cons sequence rest ih =>
      obtain ⟨next, replies, served, same, still, quiet⟩ :=
        ih (unknown.age moment.instant)
      have first := ServesTo.single
        (@Unknown.data _ _ moment unknown sequence) (.inr ⟨_, rfl⟩)
      refine ⟨next, _, first.append served, same, still, ?_⟩
      intro reply member
      rcases List.mem_append.mp member with refused | later
      · rw [Write.errorReply_kind refused]
        decide
      · exact quiet reply later

theorem Receiving.all (sendable : link.Sendable)
    (receiving : link.Receiving shared moment.instant session)
    {order : List ℕ}
    (inside : ∀ sequence ∈ order, sequence < link.packetCount) :
    ∃ next session' replies, ServesTo link.config link.blake3 link.address
        moment (order.map (link.request.dataPacket link.config)) shared next
        replies ∧
      next.ram = shared.ram ∧
      link.Receiving next moment.instant session' ∧
      session'.receivedSet =
        session.receivedSet ∪ { sequence | sequence ∈ order } := by
  induction order generalizing shared session with
  | nil => exact ⟨shared, session, [], .nil, rfl, receiving, by simp⟩
  | cons sequence rest ih =>
      obtain ⟨middle, between, reply, completed, here, receiving', takes⟩ :=
        receiving.data_complete sendable (Nat.le_refl _)
          (inside sequence List.mem_cons_self)
      obtain ⟨next, last, replies, served, there, received, grown⟩ :=
        ih receiving' fun other member =>
          inside other (List.mem_cons_of_mem _ member)
      have first := ServesTo.single completed (.inl ⟨reply, rfl⟩)
      refine ⟨next, last, _, first.append served, there.trans here, received,
        ?_⟩
      rw [grown, takes.received]
      ext other
      simp only [Set.mem_union, Set.mem_insert_iff, Set.mem_ofPred_eq,
        List.mem_cons]
      tauto

end

end Link

structure Upload where
  handle : MemoryBlockHandle
  transferId : Uuid
  offset : Nat
  totalSize : Nat
  payload : List UInt8
  bounded : payload.length < 2 ^ 64
  config : Config
  blake3 : List UInt8 → Digest
  address : SocketAddr

inductive WritePath where
  | relay
  | direct
  | udp
  deriving DecidableEq

namespace Upload

variable (upload : Upload)

def chunk : Chunk where
  transferId := upload.transferId
  offset := upload.offset
  length := upload.payload.length
  totalSize := upload.totalSize
  checksum := Bytes.toHex (upload.blake3 upload.payload).toList

/-- The UDP write of the chunk.  Its datagrams carry the size of the block
where the other requests carry the total size of the chunk. -/
def link : Link where
  request :=
    { handle := { upload.handle with size := upload.totalSize }
      transferId := upload.transferId
      offset := upload.offset
      payload := upload.payload
      readResponse := false
      bounded := upload.bounded }
  config := upload.config
  address := upload.address
  destination := 0
  blake3 := upload.blake3

/-- The datagrams of a session before its FIN: START, and the DATA packets in
some order. -/
def opening (order : List Nat) : List Packet :=
  upload.link.request.startPacket upload.config upload.blake3 ::
    order.map (upload.link.request.dataPacket upload.config)

/-- A path can leave the block so, and accept the chunk or not.  The mutex of
the block is free. -/
def Ends (moment : Moment) (shared : Shared) (arc : Arc) (block : RamBlock) :
    WritePath → RamBlock → Bool → Prop
  | .relay, left, accepted => ∃ result,
      block.relayChunk upload.config upload.blake3 moment.now upload.handle
        upload.chunk upload.payload = (left, result) ∧
      accepted = result.isOk
  | .direct, left, accepted => ∃ result,
      block.directChunk upload.config upload.blake3 moment.now upload.handle
        upload.chunk upload.payload = (left, result) ∧
      accepted = result.isOk
  | .udp, left, accepted =>
      ∃ order oldest between after early late responses others,
        (∀ sequence, sequence ∈ order ↔
          sequence < upload.link.packetCount) ∧
        serve upload.config upload.blake3 upload.address moment
          ((upload.opening order).map ({ packet := · })) shared =
            some (between, early, responses) ∧
        serve upload.config upload.blake3 upload.address
          { moment with choice := { moment.choice with oldest := oldest } }
          [upload.link.finHandler .enter] between =
            some (after, late, others) ∧
        after.ram.heap[arc]? = some ⟨left, none⟩ ∧
        accepted = (early ++ late).any (·.kind = .complete)

/-- All paths refuse the chunk and leave what is written alone, or all accept
it and leave the same block. -/
def Agree (moment : Moment) (shared : Shared) (arc : Arc)
    (block : RamBlock) : Prop :=
  (∀ path, ∃ left accepted,
      upload.Ends moment shared arc block path left accepted) ∧
    ((∀ path left accepted,
        upload.Ends moment shared arc block path left accepted →
          accepted = false ∧ left.written = block.written ∧
            left.bytes.take block.written = block.bytes.take block.written ∧
            left.hash = block.hash ∧ left.transferId = block.transferId) ∨
      ∃ next, ∀ path left accepted,
        upload.Ends moment shared arc block path left accepted →
          accepted = true ∧ left = next)

structure Admissible (now : Nat) (block : RamBlock) : Prop where
  nonempty : 0 < upload.payload.length
  small : upload.payload.length ≤ upload.config.chunkBytes
  inside : upload.offset + upload.payload.length ≤ upload.totalSize
  fits : upload.offset + upload.payload.length ≤ block.handle.size
  token : upload.handle.leaseToken = block.handle.leaseToken
  live : now < block.handle.leaseExpiresMs
  writing : block.handle.state = .writing
  generation : block.handle.generation = upload.handle.generation
  sequential : block.written = upload.offset

def Demands (block : RamBlock) : WritePath → Prop
  | .relay => upload.totalSize = upload.handle.size
  | .direct => upload.totalSize = upload.handle.size ∧
      block.handle.size = upload.totalSize ∧
      ∀ id ∈ block.transferId, id = upload.transferId
  | .udp => block.handle.size = upload.totalSize ∧
      block.handle.jobId = upload.handle.jobId

/-- The daemon has the block and can take a new transfer. -/
structure Meets (moment : Moment) (shared : Shared) (arc : Arc)
    (block : RamBlock) : Prop where
  found : shared.ram.blocks.lookup upload.handle.id = some arc
  free : shared.ram.heap[arc]? = some ⟨block, none⟩
  sized : block.bytes.length = block.handle.size
  room : shared.udp.incoming.size < upload.config.udpMaxSessions
  reserved : moment.choice.reserved = true
  fresh : shared.udp.incoming.lookup upload.link.key = none
  idle : upload.link.key ∉ shared.udp.finishing
  uncompleted : shared.udp.completed.lookup
    (upload.link.key, upload.offset) = none
  earlier : ∀ entry ∈ shared.udp.completed.entries,
    entry.2 < moment.instant

section

variable {upload} {moment : Moment} {shared : Shared} {arc : Arc}
  {block left : RamBlock} {accepted : Bool}

def written (upload : Upload) (block : RamBlock) : RamBlock :=
  block.extend upload.offset upload.payload upload.transferId

theorem relayWrite_iff (sized : block.bytes.length = block.handle.size)
    {next : RamBlock} :
    block.relayWrite upload.config upload.blake3 moment.now upload.handle
        upload.chunk upload.payload = .ok next ↔
      (upload.Admissible moment.now block ∧ upload.Demands block .relay) ∧
        upload.written block = next := by
  unfold RamBlock.relayWrite
  rw [bind_ok]
  simp only [ensure_bind_ok, RamBlock.writeLocal, RamBlock.authorize_bind_ok,
    inBounds_bind_ok, pure_ok]
  constructor
  · rintro ⟨_, checked, _, ⟨token, live⟩,
      ⟨writing, generation, sequential⟩, fits, same⟩
    obtain ⟨⟨nonempty, small⟩, inside, total⟩ := Chunk.check_ok.mp checked
    exact ⟨⟨⟨nonempty, small, inside, sized ▸ fits, token, live, writing,
      generation, sequential⟩, total⟩, same⟩
  · intro given
    obtain ⟨⟨admissible, total⟩, same⟩ := given
    refine ⟨(), Chunk.check_ok.mpr ⟨⟨admissible.nonempty, admissible.small⟩,
      admissible.inside, total⟩, rfl, ?_⟩
    exact ⟨⟨admissible.token, admissible.live⟩, ⟨admissible.writing,
      admissible.generation, admissible.sequential⟩,
      sized ▸ admissible.fits, same⟩

theorem relayChunk_eq (sized : block.bytes.length = block.handle.size) :
    (upload.Admissible moment.now block ∧ upload.Demands block .relay) ∧
        block.relayChunk upload.config upload.blake3 moment.now upload.handle
          upload.chunk upload.payload = (upload.written block, .ok ()) ∨
      ¬(upload.Admissible moment.now block ∧
          upload.Demands block .relay) ∧
        ∃ fault, block.relayChunk upload.config upload.blake3 moment.now
          upload.handle upload.chunk upload.payload =
            (block, .error fault) := by
  unfold RamBlock.relayChunk
  split
  · rename_i next ran
    obtain ⟨admits, rfl⟩ := (relayWrite_iff sized).mp ran
    exact .inl ⟨admits, rfl⟩
  · rename_i fault refused
    refine .inr ⟨?_, fault, rfl⟩
    intro admits
    cases refused.symm.trans ((relayWrite_iff sized).mpr ⟨admits, rfl⟩)

theorem admitDirect_iff {now : Nat} {handle : MemoryBlockHandle}
    {chunk : Chunk} :
    block.admitDirect now handle chunk = .ok () ↔
      (handle.leaseToken = block.handle.leaseToken ∧
          now < block.handle.leaseExpiresMs) ∧
        (block.handle.state = .writing ∧
          block.handle.generation = handle.generation) ∧
        (block.written = chunk.offset ∧
          block.handle.size = chunk.totalSize) ∧
        (∀ id ∈ block.transferId, id = chunk.transferId) ∧
        chunk.offset + chunk.length ≤ block.bytes.length := by
  simp only [RamBlock.admitDirect, ensure_bind_ok,
    RamBlock.authorize_bind_ok, inBounds_ok, Option.all_eq_true,
    decide_eq_true_eq, Option.mem_def]

theorem admits_direct_iff (sized : block.bytes.length = block.handle.size) :
    (do upload.chunk.check upload.config upload.handle
        block.admitDirect moment.now upload.handle upload.chunk) = .ok () ↔
      upload.Admissible moment.now block ∧ upload.Demands block .direct := by
  rw [bind_ok]
  constructor
  · intro given
    obtain ⟨_, checked, admitted⟩ := given
    obtain ⟨⟨nonempty, small⟩, inside, total⟩ := Chunk.check_ok.mp checked
    obtain ⟨⟨token, live⟩, ⟨writing, generation⟩, ⟨sequential, size⟩, same,
      fits⟩ := admitDirect_iff.mp admitted
    exact ⟨⟨nonempty, small, inside, sized ▸ fits, token, live, writing,
      generation, sequential⟩, total, size, same⟩
  · intro given
    obtain ⟨admissible, total, size, same⟩ := given
    refine ⟨(), Chunk.check_ok.mpr ⟨⟨admissible.nonempty, admissible.small⟩,
      admissible.inside, total⟩, admitDirect_iff.mpr ?_⟩
    exact ⟨⟨admissible.token, admissible.live⟩, ⟨admissible.writing,
      admissible.generation⟩, ⟨admissible.sequential, size⟩, same,
      sized ▸ admissible.fits⟩

theorem finishDirect_stream
    (fits : upload.offset + upload.payload.length ≤ block.bytes.length) :
    (block.stream upload.chunk 0 upload.payload).finishDirect upload.blake3
      upload.chunk = .ok (upload.written block) := by
  have piece : slice (overwrite block.bytes upload.offset upload.payload)
      upload.offset (upload.offset + upload.payload.length) =
        upload.payload := slice_overwrite (by omega)
  simp only [RamBlock.finishDirect, RamBlock.stream, chunk, Nat.add_zero,
    piece, ensure_bind_ok, pure_ok]
  exact ⟨trivial, rfl⟩

theorem directChunk_eq (sized : block.bytes.length = block.handle.size) :
    (upload.Admissible moment.now block ∧ upload.Demands block .direct) ∧
        block.directChunk upload.config upload.blake3 moment.now
          upload.handle upload.chunk upload.payload =
            (upload.written block, .ok ()) ∨
      ¬(upload.Admissible moment.now block ∧
          upload.Demands block .direct) ∧
        ∃ fault, block.directChunk upload.config upload.blake3 moment.now
          upload.handle upload.chunk upload.payload =
            (block, .error fault) := by
  unfold RamBlock.directChunk
  split
  · rename_i fault refused
    refine .inr ⟨?_, fault, rfl⟩
    intro admits
    cases refused.symm.trans ((admits_direct_iff sized).mpr admits)
  · rename_i admitted
    have admits := (admits_direct_iff sized).mp admitted
    refine .inl ⟨admits, ?_⟩
    simp only [finishDirect_stream (sized ▸ admits.1.fits)]

theorem checkStart_error {config : Config} {packet : Packet} {fault : Fault}
    (refused : checkStart config packet = .error fault) :
    ∃ message, fault = .error message := by
  unfold checkStart at refused
  rcases ensure_bind_error refused with same | refused
  · exact ⟨_, same⟩
  rcases ensure_bind_error refused with same | refused
  · exact ⟨_, same⟩
  rcases ensure_bind_error refused with same | refused
  · exact ⟨_, same⟩
  · exact ⟨_, ensure_error refused⟩

theorem admitUdp_error {now : Nat} {packet : Packet} {fault : Fault}
    (refused : block.admitUdp now packet = .error fault) :
    ∃ message, fault = .error message := by
  unfold RamBlock.admitUdp at refused
  cases authorized : block.authorize now packet.leaseToken with
  | error other =>
      rw [authorized] at refused
      cases refused
      unfold RamBlock.authorize at authorized
      rcases ensure_bind_error authorized with same | authorized
      · exact ⟨_, same⟩
      · exact ⟨_, ensure_error authorized⟩
  | ok =>
      rw [authorized] at refused
      exact ⟨_, ensure_error refused⟩

theorem start_admits
    (checked : checkStart upload.config
      (upload.link.request.startPacket upload.config upload.blake3) = .ok ())
    (admitted : block.admitUdp moment.now
      (upload.link.request.startPacket upload.config upload.blake3) =
        .ok ()) :
    upload.Admissible moment.now block ∧ upload.Demands block .udp := by
  have length : Bytes.fromBigEndian ((upload.link.request.startPacket
      upload.config upload.blake3).payload.take 8) = upload.payload.length :=
    Link.startPacket_length upload.link
  unfold checkStart at checked
  simp only [ensure_bind_ok, ensure_ok, length] at checked
  obtain ⟨_, ⟨nonempty, small⟩, _, inside⟩ := checked
  rw [RamBlock.admitUdp, RamBlock.authorize_bind_ok, ensure_ok] at admitted
  obtain ⟨⟨token, live⟩, job, generation, size, writing, sequential⟩ :=
    admitted
  refine ⟨⟨nonempty, small, inside, ?_, token, live, writing, generation,
    sequential⟩, size, job⟩
  exact size ▸ inside

theorem start_refused (meets : upload.Meets moment shared arc block)
    (refused : ¬(upload.Admissible moment.now block ∧
      upload.Demands block .udp)) :
    ∃ message,
      ({ packet := upload.link.request.startPacket upload.config
           upload.blake3 } : Handler).complete upload.config upload.blake3
        upload.address moment 8 shared =
      some ({ shared with udp := shared.udp.ageCompleted moment.instant },
        .fail message) := by
  let after : Shared :=
    { shared with udp := shared.udp.ageCompleted moment.instant }
  let start := upload.link.request.startPacket upload.config upload.blake3
  have plain : start.flags = 0 := rfl
  have kind : start.kind = .start := rfl
  cases checked : checkStart upload.config start with
  | error fault =>
      obtain ⟨message, rfl⟩ := checkStart_error checked
      refine ⟨message, ?_⟩
      apply Handler.complete_fail
      change some (after, Handler.dispatch upload.config start) = _
      simp only [Handler.dispatch, kind, plain, if_true, checked]
      rfl
  | ok =>
      cases admitted : block.admitUdp moment.now start with
      | ok => exact absurd (start_admits checked admitted) refused
      | error fault =>
          obtain ⟨message, rfl⟩ := admitUdp_error admitted
          refine ⟨message, ?_⟩
          have got : after.ram.get start.blockId = .ok arc :=
            LocalRam.get_ok.mpr meets.found
          have free : after.ram.lock? arc = some block :=
            LocalRam.lock?_eq_some.mpr meets.free
          rw [Handler.complete_next after .startBlock,
            Handler.complete_next after (.startLock arc)]
          · apply Handler.complete_fail
            simp only [Handler.run, free, Option.bind_eq_bind,
              Option.bind_some]
            change some (after, Outcome.ofResult _
              (block.admitUdp moment.now start)) = _
            rw [admitted]
            rfl
          · change some (after, Outcome.ofResult Stage.startLock
              (after.ram.get start.blockId)) = _
            rw [got]
            rfl
          · change some (after, Handler.dispatch upload.config start) = _
            simp only [Handler.dispatch, kind, plain, if_true, checked]
            rfl

theorem udp_refuses (meets : upload.Meets moment shared arc block)
    (refused : ¬(upload.Admissible moment.now block ∧
      upload.Demands block .udp)) (order : List Nat) :
    ∃ between early, serve upload.config upload.blake3 upload.address moment
        ((upload.opening order).map ({ packet := · })) shared =
          some (between, early, []) ∧
      (∀ reply ∈ early, reply.kind ≠ .complete) ∧
      ∀ oldest, ∃ after late, serve upload.config upload.blake3
          upload.address
          { moment with choice := { moment.choice with oldest := oldest } }
          [upload.link.finHandler .enter] between = some (after, late, []) ∧
        (∀ reply ∈ late, reply.kind ≠ .complete) ∧
        after.ram = shared.ram := by
  obtain ⟨message, started⟩ := start_refused meets refused
  have unknown : upload.link.Unknown shared :=
    ⟨meets.fresh, meets.idle, meets.uncompleted⟩
  obtain ⟨next, replies, served, same, still, quiet⟩ :=
    @Link.Unknown.all _ _ moment (unknown.age moment.instant) order
  have first := ServesTo.single started (.inr ⟨_, rfl⟩)
  refine ⟨_, _, (first.append served).whole, ?_, ?_⟩
  · intro reply member
    rcases List.mem_append.mp member with member | member
    · rw [Write.errorReply_kind member]
      decide
    · exact quiet reply member
  · intro oldest
    have last := ServesTo.single (@Link.Unknown.fin _ _
      { moment with choice := { moment.choice with oldest := oldest } }
      still) (.inr ⟨_, rfl⟩)
    refine ⟨_, _, last.whole, ?_, same⟩
    intro reply member
    rw [Write.errorReply_kind member]
    decide

theorem sendable (valid : upload.config.Valid)
    (admissible : upload.Admissible moment.now block) :
    upload.link.Sendable :=
  ⟨valid, ⟨List.ne_nil_of_length_pos admissible.nonempty, admissible.small,
    admissible.inside⟩, rfl⟩

theorem Admissible.accepts (admissible : upload.Admissible moment.now block)
    (demands : upload.Demands block .udp)
    (sized : block.bytes.length = block.handle.size) :
    upload.link.Accepts block :=
  ⟨demands.2, admissible.generation, demands.1, admissible.token.symm,
    admissible.writing, admissible.sequential, sized,
    Nat.zero_lt_of_lt admissible.live⟩

theorem udp_receives (valid : upload.config.Valid)
    (meets : upload.Meets moment shared arc block)
    (admissible : upload.Admissible moment.now block)
    (demands : upload.Demands block .udp) {order : List Nat}
    (complete : ∀ sequence, sequence ∈ order ↔
      sequence < upload.link.packetCount) :
    ∃ next session replies, ServesTo upload.config upload.blake3
        upload.address moment (upload.opening order) shared next replies ∧
      next.ram = shared.ram ∧
      upload.link.Receiving next moment.instant session ∧
      session.receivedCount = upload.link.packetCount := by
  have able := sendable valid admissible
  have accepts := admissible.accepts demands meets.sized
  have ready : upload.link.Ready shared moment.instant :=
    ⟨⟨arc, block, meets.found, meets.free, accepts⟩, meets.room, meets.fresh,
      meets.uncompleted, meets.earlier⟩
  have timely : upload.link.Timely shared moment := by
    refine ⟨?_, ?_, ?_⟩
    · intro other found cell stored
      obtain rfl : other = arc :=
        Option.some.inj (found.symm.trans meets.found)
      cases stored.symm.trans meets.free
      exact admissible.live
    · intro session stored
      cases stored.symm.trans meets.fresh
    · intro time recorded
      cases recorded.symm.trans meets.uncompleted
  obtain ⟨opened, session, started, same, receiving, empty⟩ :=
    ready.start_complete able (Nat.le_refl _) timely meets.reserved
  obtain ⟨next, last, replies, served, kept, received, grown⟩ :=
    receiving.all able fun sequence => (complete sequence).mp
  have first := ServesTo.single started (.inl ⟨_, rfl⟩)
  refine ⟨next, last, _, first.append served, kept.trans same, received, ?_⟩
  apply received.serves.receivedCount_of_prefix (Nat.le_refl _)
  rw [grown, empty, Set.empty_union]
  exact Set.ext complete

theorem udp_accepts (valid : upload.config.Valid)
    (meets : upload.Meets moment shared arc block)
    (admissible : upload.Admissible moment.now block)
    (demands : upload.Demands block .udp) {order : List Nat}
    (complete : ∀ sequence, sequence ∈ order ↔
      sequence < upload.link.packetCount) :
    ∃ between early, serve upload.config upload.blake3 upload.address moment
        ((upload.opening order).map ({ packet := · })) shared =
          some (between, early, []) ∧
      (∃ oldest, (serve upload.config upload.blake3 upload.address
          { moment with choice := { moment.choice with oldest := oldest } }
          [upload.link.finHandler .enter] between).isSome) ∧
      ∀ oldest after late others, serve upload.config upload.blake3
          upload.address
          { moment with choice := { moment.choice with oldest := oldest } }
          [upload.link.finHandler .enter] between =
            some (after, late, others) →
        after.ram.heap[arc]? = some ⟨upload.written block, none⟩ ∧
          ∃ reply ∈ late, reply.kind = .complete := by
  obtain ⟨next, session, early, serves, same, receiving, full⟩ :=
    udp_receives valid meets admissible demands complete
  have able := sendable valid admissible
  have accepts := admissible.accepts demands meets.sized
  have found : next.ram.blocks.lookup upload.handle.id = some arc :=
    same ▸ meets.found
  have free : next.ram.heap[arc]? = some ⟨block, none⟩ := same ▸ meets.free
  refine ⟨next, early, serves.whole, receiving.fin_ends able found free
    accepts admissible.live full, ?_⟩
  intro oldest after late others finished
  simp only [serve] at finished
  obtain ⟨⟨last, outcome⟩, ran, finished⟩ :=
    Option.bind_eq_some_iff.mp finished
  obtain ⟨rfl, wrote, _⟩ := @Link.Receiving.fin_complete _ _ _
    { moment with choice := { moment.choice with oldest := oldest } } _ able
    receiving (Nat.le_refl _) _ _ found free accepts admissible.live full _ _
    ran
  cases finished
  refine ⟨?_, upload.link.completion, List.mem_cons_self, rfl⟩
  rw [wrote]
  exact List.getElem?_set_self (List.getElem?_eq_some_iff.mp free).1

theorem ends_cases (valid : upload.config.Valid)
    (meets : upload.Meets moment shared arc block) {path : WritePath}
    (ends : upload.Ends moment shared arc block path left accepted) :
    (upload.Admissible moment.now block ∧ upload.Demands block path) ∧
        accepted = true ∧ left = upload.written block ∨
      ¬(upload.Admissible moment.now block ∧ upload.Demands block path) ∧
        accepted = false ∧ left = block := by
  cases path with
  | relay =>
      obtain ⟨result, ran, rfl⟩ := ends
      rcases relayChunk_eq meets.sized with ⟨admits, wrote⟩ |
        ⟨refuses, fault, kept⟩
      · cases ran.symm.trans wrote
        exact .inl ⟨admits, rfl, rfl⟩
      · cases ran.symm.trans kept
        exact .inr ⟨refuses, rfl, rfl⟩
  | direct =>
      obtain ⟨result, ran, rfl⟩ := ends
      rcases directChunk_eq meets.sized with ⟨admits, wrote⟩ |
        ⟨refuses, fault, kept⟩
      · cases ran.symm.trans wrote
        exact .inl ⟨admits, rfl, rfl⟩
      · cases ran.symm.trans kept
        exact .inr ⟨refuses, rfl, rfl⟩
  | udp =>
      obtain ⟨order, oldest, between, after, early, late, responses, others,
        complete, opened, finished, stored, rfl⟩ := ends
      by_cases admits : upload.Admissible moment.now block ∧
          upload.Demands block .udp
      · obtain ⟨_, _, opened', _, writes⟩ :=
          udp_accepts valid meets admits.1 admits.2 complete
        cases opened.symm.trans opened'
        obtain ⟨wrote, reply, sent, kind⟩ := writes _ _ _ _ finished
        cases stored.symm.trans wrote
        refine .inl ⟨admits, ?_, rfl⟩
        exact List.any_eq_true.mpr ⟨reply, List.mem_append_right _ sent,
          decide_eq_true kind⟩
      · obtain ⟨_, _, opened', quiet, refuses⟩ :=
          udp_refuses meets admits order
        cases opened.symm.trans opened'
        obtain ⟨_, _, finished', silent, same⟩ := refuses oldest
        cases finished.symm.trans finished'
        rw [same] at stored
        cases stored.symm.trans meets.free
        refine .inr ⟨admits, ?_, rfl⟩
        apply List.any_eq_false.mpr
        intro reply sent
        rcases List.mem_append.mp sent with sent | sent
        · simpa using quiet reply sent
        · simpa using silent reply sent

theorem exists_ends (valid : upload.config.Valid)
    (meets : upload.Meets moment shared arc block) (path : WritePath) :
    ∃ left accepted,
      upload.Ends moment shared arc block path left accepted := by
  cases path with
  | relay => exact ⟨_, _, _, rfl, rfl⟩
  | direct => exact ⟨_, _, _, rfl, rfl⟩
  | udp =>
      have complete : ∀ sequence,
          sequence ∈ List.range upload.link.packetCount ↔
            sequence < upload.link.packetCount :=
        fun _ => List.mem_range
      by_cases admits : upload.Admissible moment.now block ∧
          upload.Demands block .udp
      · obtain ⟨between, early, opened, ⟨oldest, some_⟩, writes⟩ :=
          udp_accepts valid meets admits.1 admits.2 complete
        obtain ⟨⟨after, late, others⟩, finished⟩ :=
          Option.isSome_iff_exists.mp some_
        exact ⟨_, _, _, oldest, between, after, early, late, [], others,
          complete, opened, finished, (writes _ _ _ _ finished).1, rfl⟩
      · obtain ⟨between, early, opened, _, refuses⟩ :=
          udp_refuses meets admits (List.range upload.link.packetCount)
        obtain ⟨after, late, finished, _, same⟩ := refuses none
        exact ⟨block, _, _, none, between, after, early, late, [], [],
          complete, opened, finished, same ▸ meets.free, rfl⟩

/-- The conditions under which the checks of the paths come to one result. -/
def Uniform (now : Nat) (block : RamBlock) : Prop :=
  upload.Admissible now block →
    (upload.totalSize = upload.handle.size ∧
        block.handle.size = upload.totalSize ∧
        (∀ id ∈ block.transferId, id = upload.transferId) ∧
        block.handle.jobId = upload.handle.jobId) ∨
      upload.totalSize ≠ upload.handle.size ∧
        ¬(block.handle.size = upload.totalSize ∧
          block.handle.jobId = upload.handle.jobId)

theorem uniform_iff : upload.Uniform moment.now block ↔
    (∀ path, upload.Admissible moment.now block ∧
        upload.Demands block path) ∨
      ∀ path, ¬(upload.Admissible moment.now block ∧
        upload.Demands block path) := by
  constructor
  · intro uniform
    by_cases admissible : upload.Admissible moment.now block
    · rcases uniform admissible with ⟨total, size, same, job⟩ |
        ⟨total, differs⟩
      · left
        rintro (_ | _ | _)
        · exact ⟨admissible, total⟩
        · exact ⟨admissible, total, size, same⟩
        · exact ⟨admissible, size, job⟩
      · right
        rintro (_ | _ | _) ⟨_, demands⟩
        · exact total demands
        · exact total demands.1
        · exact differs demands
    · exact .inr fun _ admits => admissible admits.1
  · rintro (all | none_) admissible
    · exact .inl ⟨(all .relay).2, (all .direct).2.2.1, (all .direct).2.2.2,
        (all .udp).2.2⟩
    · exact .inr ⟨fun total => none_ .relay ⟨admissible, total⟩,
        fun demands => none_ .udp ⟨admissible, demands⟩⟩

/-- The paths agree exactly when their checks come to one result. -/
theorem paths_agree_iff (valid : upload.config.Valid)
    (meets : upload.Meets moment shared arc block) :
    upload.Agree moment shared arc block ↔
      upload.Uniform moment.now block := by
  rw [uniform_iff]
  constructor
  · intro given
    obtain ⟨_, agreed⟩ := given
    rcases agreed with refused | ⟨next, wrote⟩
    · right
      intro path admits
      obtain ⟨left, accepted, ends⟩ := exists_ends valid meets path
      rcases ends_cases valid meets ends with ⟨_, yes, _⟩ | ⟨refuses, _⟩
      · cases yes.symm.trans (refused path left accepted ends).1
      · exact refuses admits
    · left
      intro path
      obtain ⟨left, accepted, ends⟩ := exists_ends valid meets path
      rcases ends_cases valid meets ends with ⟨admits, _⟩ | ⟨_, no, _⟩
      · exact admits
      · cases no.symm.trans (wrote path left accepted ends).1
  · intro uniform
    refine ⟨exists_ends valid meets, ?_⟩
    rcases uniform with all | none_
    · refine .inr ⟨upload.written block, ?_⟩
      intro path left accepted ends
      rcases ends_cases valid meets ends with ⟨_, wrote⟩ | ⟨refuses, _⟩
      · exact wrote
      · exact absurd (all path) refuses
    · left
      intro path left accepted ends
      rcases ends_cases valid meets ends with ⟨admits, _⟩ | ⟨_, no, rfl⟩
      · exact absurd admits (none_ path)
      · exact ⟨no, rfl, rfl, rfl, rfl⟩

end

/-- The rest of `abc`, of which transfer 9 has written the first byte. -/
def abcRest (transferId : Uuid) : Upload where
  handle := abcHandle
  transferId := transferId
  offset := 1
  totalSize := 3
  payload := [98, 99]
  bounded := by decide
  config := {}
  blake3 := abcHash
  address := 1

def abcBegun : RamBlock :=
  (RamBlock.allocated abcHandle).extend 0 [97] 9

def abcHolder : Shared where
  ram :=
    { blocks := (∅ : Table Uuid Arc).insert 7 0
      heap := [⟨abcBegun, none⟩] }
  udp := {}

theorem abcRest_meets (transferId : Uuid) :
    (abcRest transferId).Meets ⟨0, 0, {}⟩ abcHolder 0 abcBegun where
  found := rfl
  free := rfl
  sized := rfl
  room := show 0 < 128 by decide
  reserved := rfl
  fresh := rfl
  idle := Finset.notMem_empty _
  uncompleted := rfl
  earlier := nofun

theorem paths_agree_iff_abc :
    (abcRest 9).Agree ⟨0, 0, {}⟩ abcHolder 0 abcBegun := by
  refine (paths_agree_iff Config.default_valid (abcRest_meets 9)).mpr ?_
  intro _
  left
  exact ⟨rfl, rfl, by decide, rfl⟩

/-- A chunk of another transfer: the relay writes it, a direct request is
refused. -/
theorem paths_disagree_on_transfer :
    (abcRest 8).config.validate = .ok () ∧
      (abcRest 8).Meets ⟨0, 0, {}⟩ abcHolder 0 abcBegun ∧
      ¬(abcRest 8).Agree ⟨0, 0, {}⟩ abcHolder 0 abcBegun := by
  refine ⟨by decide, abcRest_meets 8, ?_⟩
  intro given
  obtain ⟨_, agreed⟩ := given
  have relay : (abcRest 8).Ends ⟨0, 0, {}⟩ abcHolder 0 abcBegun .relay
      ((abcRest 8).written abcBegun) true := ⟨.ok (), by decide, rfl⟩
  have direct : (abcRest 8).Ends ⟨0, 0, {}⟩ abcHolder 0 abcBegun .direct
      abcBegun false :=
    ⟨.error (.error "transfer id mismatch"), by decide, rfl⟩
  rcases agreed with refused | ⟨next, wrote⟩
  · exact absurd (refused _ _ _ relay).1 (by decide)
  · exact absurd (wrote _ _ _ direct).1 (by decide)

end Upload

end TrainPool
