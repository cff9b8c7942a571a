import TrainPool.Library.Execution
import TrainPool.Runtime.Udp
import TrainPool.Transport.Reader

namespace TrainPool

open Execution
open Slice

/-! What a read returns when the datagrams of several read responses reach its
socket. -/

/-- The bytes that were committed as each generation of each block. -/
abbrev Contents := Uuid → Nat → List UInt8

namespace Contents

variable (contents : Contents)

def range (block : Uuid) (generation offset length : Nat) : List UInt8 :=
  slice (contents block generation) offset (offset + length)

/-- A read response that carries bytes of the block it names. -/
def Serves (response : SendPayload) : Prop :=
  response.payload = contents.range response.handle.id
    response.handle.generation response.offset response.payload.length

end Contents

namespace ReadResponse

/-- The argument of `send_payload` in the task that answers a read request. -/
def sendPayload (response : ReadResponse)
    (bounded : response.payload.length < 2 ^ 64) : SendPayload where
  handle := response.handle
  transferId := response.transferId
  offset := response.offset
  payload := response.payload
  readResponse := true
  bounded := bounded

end ReadResponse

theorem RamBlock.readUdp_ok {now : Nat} {packet : Packet} {block : RamBlock}
    {payload : List UInt8}
    (read : block.readUdp now packet = .ok payload) :
    payload = slice block.bytes packet.offset
        (packet.offset + packet.sequenceId) ∧
      packet.offset + packet.sequenceId ≤ block.bytes.length := by
  simp only [RamBlock.readUdp, bind, Except.bind] at read
  split at read
  · cases read
  split at read
  · cases read
  split at read
  · cases read
  rename_i bounded _
  split at read
  · cases read
  rename_i found
  cases read
  refine ⟨rfl, ?_⟩
  by_contra beyond
  simp [ensure, beyond] at found

/-- A daemon whose blocks hold the committed bytes answers read requests with
them. -/
theorem Handler.runReadLock_serves {contents : Contents} {config : Config}
    {source : SocketAddr} {now : Nat} {packet : Packet} {arc : Arc}
    {shared next : Shared} {response : ReadResponse} {block : RamBlock}
    (found : shared.ram.lock? arc = some block)
    (committed : block.bytes =
      contents block.handle.id block.handle.generation)
    (ran : Handler.runReadLock config source now packet arc shared =
      some (next, .respond response))
    (bounded : response.payload.length < 2 ^ 64) :
    contents.Serves (response.sendPayload bounded) := by
  simp only [Handler.runReadLock, found] at ran
  cases read : block.readUdp now packet with
  | error fault => cases fault <;> simp [read] at ran
  | ok payload =>
      obtain ⟨rfl, inside⟩ := RamBlock.readUdp_ok read
      simp only [read, Option.bind_eq_bind, Option.bind_some] at ran
      split at ran
      · cases ran
        have length := length_slice block.bytes packet.offset _ inside
        rw [Nat.add_sub_cancel_left] at length
        simp only [Contents.Serves, Contents.range,
          ReadResponse.sendPayload, ← committed, length]
      · cases ran

def SendEvent.packets : SendEvent → List Packet
  | .receive _ datagrams => validPackets datagrams
  | _ => []

namespace ReadPayload

variable (config : Config) (blake3 : List UInt8 → Digest)
  (request : ReadPayload)

def advance (phase : ReadPhase) (event : SendEvent) : Option ReadPhase :=
  (request.step config blake3 phase event).map Prod.fst

def IsStart (packet : Packet) : Prop :=
  packet.transferId = request.transferId ∧ packet.kind = .start

instance (packet : Packet) : Decidable (request.IsStart packet) :=
  inferInstanceAs (Decidable (_ ∧ _))

/-- The first START of the transfer among the datagrams that arrive. -/
def firstStart (events : List SendEvent) : Option Packet :=
  (events.flatMap SendEvent.packets).find? fun packet => request.IsStart packet

end ReadPayload

/-- A datagram of a read response of some daemon, whose settings need not be
those of the reader. -/
def Contents.Honest (contents : Contents) (blake3 : List UInt8 → Digest)
    (packet : Packet) : Prop :=
  ∃ config response, contents.Serves response ∧
    response.Sends config blake3 packet

def Packet.announced (start : Packet) : Nat :=
  Bytes.fromBigEndian (start.payload.take 8)

def Packet.digest (start : Packet) : List UInt8 := start.payload.drop 8

namespace SendPayload

variable {config : Config} {blake3 : List UInt8 → Digest}
  {response : SendPayload}

theorem announced_startPacket :
    (response.startPacket config blake3).announced =
      response.payload.length := by
  have fits : response.payload.length < 256 ^ 8 :=
    Nat.lt_of_lt_of_eq response.bounded (by norm_num)
  simp [startPacket, Packet.announced, List.take_left',
    Bytes.fromBigEndian_toBigEndian fits]

theorem digest_startPacket :
    (response.startPacket config blake3).digest =
      (blake3 response.payload).toList := by
  simp [startPacket, Packet.digest, List.drop_left']

theorem Sends.eq_startPacket {packet : Packet}
    (sent : response.Sends config blake3 packet)
    (kind : packet.kind = .start) :
    packet = response.startPacket config blake3 := by
  cases sent with
  | start => rfl
  | data sequence => cases kind
  | fin => cases kind
  | abort => cases kind

end SendPayload

def Contents.named (contents : Contents) (start : Packet) : List UInt8 :=
  contents.range start.blockId start.generation start.offset start.announced

def Contents.requested (contents : Contents) (request : ReadPayload) :
    List UInt8 :=
  contents.range request.handle.id request.handle.generation request.offset
    request.length

namespace ReadPayload

variable {config : Config} {blake3 : List UInt8 → Digest}
  {request : ReadPayload}

theorem readStart_none {datagrams : List Datagram}
    (read : request.readStart datagrams = .ok none) :
    (validPackets datagrams).find? (request.IsStart ·) = none := by
  induction datagrams with
  | nil => rfl
  | cons datagram rest ih =>
      cases datagram with
      | error text => cases read
      | ok packet =>
          simp only [readStart] at read
          split at read
          · cases read
          rename_i other
          have notStart : ¬request.IsStart packet := other
          split at read
          · cases read
          rw [validPackets_cons_ok,
            List.find?_cons_of_neg (by simpa using notStart)]
          exact ih read

theorem readStart_some {datagrams : List Datagram} {start : Packet}
    (read : request.readStart datagrams = .ok (some start)) :
    (validPackets datagrams).find? (request.IsStart ·) = some start := by
  induction datagrams with
  | nil => cases read
  | cons datagram rest ih =>
      cases datagram with
      | error text => cases read
      | ok packet =>
          simp only [readStart] at read
          split at read
          · rename_i own
            cases read
            have isStart : request.IsStart start := own
            rw [validPackets_cons_ok,
              List.find?_cons_of_pos (by simpa using isStart)]
          · rename_i other
            have notStart : ¬request.IsStart packet := other
            split at read
            · cases read
            rw [validPackets_cons_ok,
              List.find?_cons_of_neg (by simpa using notStart)]
            exact ih read

theorem readData_ok {coalesced : Bool} {packet : Packet}
    {batch next : ReadBatch}
    (read : readData config coalesced packet batch = .ok next) :
    next.session.start = batch.session.start ∧
      next.session.buffer.length = batch.session.buffer.length := by
  simp only [readData] at read
  split at read
  · cases read
  split at read
  · cases read
  rename_i inside
  split at read
  · cases read
    exact ⟨rfl, rfl⟩
  · cases read
    exact ⟨rfl, length_overwrite (Decidable.not_not.mp inside)⟩

/-- A batch keeps what START announced; a read ends well only with bytes of
the announced digest. -/
theorem readBatch_spec {coalesced : Bool} {datagrams : List Datagram}
    {batch : ReadBatch} {sent : List Packet}
    {result : Except (Except SendError (List UInt8)) ReadBatch}
    (read : request.readBatch config blake3 coalesced datagrams batch =
      (sent, result)) :
    (∀ next, result = .ok next →
      next.session.start = batch.session.start ∧
        next.session.buffer.length = batch.session.buffer.length) ∧
    ∀ buffer, result = .error (.ok buffer) →
      buffer.length = batch.session.buffer.length ∧
        (blake3 buffer).toList = batch.session.checksum := by
  induction datagrams generalizing batch with
  | nil =>
      cases read
      refine ⟨?_, ?_⟩
      · intro next same
        cases same
        exact ⟨rfl, rfl⟩
      · intro buffer same
        cases same
  | cons datagram rest ih =>
      cases datagram with
      | error text =>
          cases read
          refine ⟨?_, ?_⟩ <;> intro _ same <;> cases same
      | ok packet =>
          simp only [readBatch] at read
          split at read
          · exact ih read
          split at read
          · -- A DATA packet.
            cases stored : readData config coalesced packet batch with
            | error error =>
                rw [stored] at read
                cases read
                refine ⟨?_, ?_⟩ <;> intro _ same <;> cases same
            | ok next =>
                rw [stored] at read
                obtain ⟨start, length⟩ := readData_ok stored
                have later := ih read
                rw [ReadSession.checksum, start, length] at later
                exact later
          · -- A FIN, which ends the read once everything is there.
            split at read
            · split at read
              · cases read
                refine ⟨?_, ?_⟩ <;> intro _ same <;> cases same
              split at read
              · cases read
                refine ⟨?_, ?_⟩ <;> intro _ same <;> cases same
              rename_i matching
              cases read
              refine ⟨?_, ?_⟩
              · intro next same
                cases same
              · intro buffer same
                cases same
                exact ⟨rfl, Decidable.not_not.mp matching⟩
            · have later := ih read
              exact later
          · cases read
            refine ⟨?_, ?_⟩ <;> intro _ same <;> cases same
          · cases read
            refine ⟨?_, ?_⟩ <;> intro _ same <;> cases same
          · exact ih read

/-- What the reader knows once it has taken `start`. -/
def Follows (blake3 : List UInt8 → Digest) (start : Packet) :
    ReadPhase → Prop
  | .awaitData session =>
      session.start = start ∧ session.buffer.length = start.announced
  | .returned (.ok buffer) =>
      buffer.length = start.announced ∧
        (blake3 buffer).toList = start.digest
  | .returned (.error _) => True
  | _ => False

theorem advance_follows {start : Packet} {phase next : ReadPhase}
    {event : SendEvent} (follows : Follows blake3 start phase)
    (advanced : request.advance config blake3 phase event = some next) :
    Follows blake3 start next := by
  obtain ⟨⟨_, sent⟩, stepped, rfl⟩ := Option.map_eq_some_iff.mp advanced
  cases phase with
  | ready => exact follows.elim
  | request retries => exact follows.elim
  | awaitStart retries => exact follows.elim
  | returned result => cases event <;> cases stepped
  | awaitData session =>
      obtain ⟨same, length⟩ := follows
      cases event with
      | proceed => cases stepped
      | refused =>
          cases stepped
          trivial
      | timeout =>
          simp only [step] at stepped
          split at stepped
          · cases stepped
            exact ⟨same, length⟩
          · cases stepped
            trivial
      | receive source datagrams =>
          simp only [step] at stepped
          split at stepped
          · split at stepped
            · rename_i read
              cases stepped
              obtain ⟨kept, size⟩ := (readBatch_spec read).1 _ rfl
              exact ⟨kept.trans same, size.trans length⟩
            · rename_i result read
              cases stepped
              cases result with
              | error error => trivial
              | ok buffer =>
                  obtain ⟨size, digest⟩ := (readBatch_spec read).2 _ rfl
                  refine ⟨size.trans length, digest.trans ?_⟩
                  rw [ReadSession.checksum, same, Packet.digest]
          · cases stepped
            exact ⟨same, length⟩

def Seeks : ReadPhase → Prop
  | .ready => True
  | .request _ => True
  | .awaitStart _ => True
  | _ => False

theorem openSession_ok {source : SocketAddr} {start : Packet}
    {session : ReadSession}
    (opened : openSession config source start = .ok session) :
    session.start = start ∧ session.buffer.length = start.announced := by
  simp only [openSession] at opened
  split at opened
  · cases opened
  split at opened
  · cases opened
    exact ⟨rfl, List.length_replicate⟩
  · cases opened

theorem advance_seeks {phase next : ReadPhase} {event : SendEvent}
    (seeks : Seeks phase)
    (advanced : request.advance config blake3 phase event = some next) :
    (Seeks next ∧ event.packets.find? (request.IsStart ·) = none) ∨
      (∃ error, next = .returned (.error error)) ∨
      ∃ start, event.packets.find? (request.IsStart ·) = some start ∧
        Follows blake3 start next := by
  obtain ⟨⟨_, sent⟩, stepped, rfl⟩ := Option.map_eq_some_iff.mp advanced
  cases phase with
  | awaitData session => exact seeks.elim
  | returned result => exact seeks.elim
  | ready =>
      cases event with
      | proceed =>
          simp only [step] at stepped
          split at stepped
          · cases stepped
            exact .inl ⟨trivial, rfl⟩
          · cases stepped
            exact .inr (.inl ⟨_, rfl⟩)
      | timeout => cases stepped
      | refused => cases stepped
      | receive source datagrams => cases stepped
  | request retries =>
      cases event with
      | proceed =>
          cases stepped
          exact .inl ⟨trivial, rfl⟩
      | refused =>
          cases stepped
          exact .inr (.inl ⟨_, rfl⟩)
      | timeout => cases stepped
      | receive source datagrams => cases stepped
  | awaitStart retries =>
      cases event with
      | proceed => cases stepped
      | refused => cases stepped
      | timeout =>
          simp only [step] at stepped
          split at stepped
          · cases stepped
            exact .inl ⟨trivial, rfl⟩
          · cases stepped
            exact .inr (.inl ⟨_, rfl⟩)
      | receive source datagrams =>
          simp only [step] at stepped
          split at stepped
          · cases stepped
            exact .inr (.inl ⟨_, rfl⟩)
          · rename_i read
            cases stepped
            exact .inl ⟨trivial, readStart_none read⟩
          · rename_i start read
            split at stepped
            · cases stepped
              exact .inr (.inl ⟨_, rfl⟩)
            · rename_i session opened
              cases stepped
              exact .inr (.inr
                ⟨start, readStart_some read, openSession_ok opened⟩)

/-- A read that returns bytes has taken the first START that arrived, and the
bytes are those it announced. -/
theorem run_firstStart {phase : ReadPhase} {events : List SendEvent}
    {buffer : List UInt8} (seeks : Seeks phase)
    (ran : run (request.advance config blake3) phase events =
      some (.returned (.ok buffer))) :
    ∃ start ∈ request.firstStart events,
      buffer.length = start.announced ∧
        (blake3 buffer).toList = start.digest := by
  induction events generalizing phase with
  | nil =>
      cases ran
      exact seeks.elim
  | cons event rest ih =>
      obtain ⟨next, advanced, ran⟩ := run_cons.mp ran
      rcases advance_seeks seeks advanced with
        ⟨seeks, absent⟩ | ⟨error, rfl⟩ | ⟨start, first, follows⟩
      · obtain ⟨start, first, announced⟩ := ih seeks ran
        refine ⟨start, ?_, announced⟩
        simpa [firstStart, List.find?_append, absent] using first
      · cases rest with
        | nil => cases ran
        | cons later rest => cases later <;> cases ran
      · refine ⟨start, ?_, ?_⟩
        · simp [firstStart, List.find?_append, first]
        · exact run_invariant (Follows blake3 start)
            (fun _ _ _ => advance_follows) follows ran

/-- A read that returns has read what it asked for exactly when the first START
that arrived names a range of the requested length with the requested bytes:
the reader compares none of the block, the generation, the offset and the
length of START with its request. -/
theorem read_returns_requested (config : Config)
    (blake3 : List UInt8 → Digest) (contents : Contents)
    (request : ReadPayload) (events : List SendEvent) {buffer : List UInt8}
    (honest : ∀ packet ∈ events.flatMap SendEvent.packets,
      request.IsStart packet → contents.Honest blake3 packet)
    (collisionFree : ∀ response, contents.Serves response →
      blake3 buffer = blake3 response.payload → buffer = response.payload)
    (ran : run (request.advance config blake3) .ready events =
      some (.returned (.ok buffer))) :
    (buffer.length = request.length ∧ buffer = contents.requested request) ↔
      ∃ start ∈ request.firstStart events,
        start.announced = request.length ∧
          contents.named start = contents.requested request := by
  have seeking : Seeks .ready := trivial
  obtain ⟨start, first, length, digest⟩ :=
    run_firstStart seeking ran
  have arrived := List.mem_of_find?_eq_some first
  have own : request.IsStart start := by
    simpa using List.find?_some first
  obtain ⟨sender, response, serves, sent⟩ := honest start arrived own
  obtain rfl := sent.eq_startPacket own.2
  rw [SendPayload.digest_startPacket, Vector.toList_inj] at digest
  have read : buffer = response.payload :=
    collisionFree response serves digest
  have named : contents.named (response.startPacket sender blake3) =
      buffer := by
    rw [Contents.named, SendPayload.announced_startPacket, read]
    exact serves.symm
  constructor
  · intro requested
    exact ⟨_, first, length.symm.trans requested.1,
      named.trans requested.2⟩
  · intro answered
    obtain ⟨other, sameFirst, sameLength, sameBytes⟩ := answered
    cases first.symm.trans sameFirst
    exact ⟨length.trans sameLength, named.symm.trans sameBytes⟩

end ReadPayload

/-! Two chunks of one block, which are read under one transfer id. -/

def chunks : Contents := fun _ _ => [97, 98, 99, 97, 98, 100]

def chunkHandle : MemoryBlockHandle :=
  { abcReady with size := 6 }

theorem firstChunk_bounded : ([97, 98, 99] : List UInt8).length < 2 ^ 64 := by
  decide

def firstChunk : SendPayload where
  handle := chunkHandle
  transferId := 9
  offset := 0
  payload := [97, 98, 99]
  readResponse := true
  bounded := firstChunk_bounded

def chunkHash (bytes : List UInt8) : Digest :=
  if bytes = [97, 98, 99] then abcHash bytes else Vector.replicate 32 0

def firstChunkArrives : List SendEvent :=
  [.proceed, .proceed,
    .receive 60 [.ok (firstChunk.startPacket {} chunkHash)],
    .receive 60 [.ok (firstChunk.dataPacket {} 0)],
    .receive 60 [.ok (firstChunk.finPacket {} chunkHash)]]

theorem firstChunk_honest :
    ∀ packet ∈ firstChunkArrives.flatMap SendEvent.packets,
      chunks.Honest chunkHash packet := by
  intro packet arrived
  refine ⟨{}, firstChunk, rfl, ?_⟩
  have listed : packet ∈ [firstChunk.startPacket {} chunkHash,
      firstChunk.dataPacket {} 0, firstChunk.finPacket {} chunkHash] :=
    arrived
  simp only [List.mem_cons, List.not_mem_nil, or_false] at listed
  rcases listed with rfl | rfl | rfl
  · exact .start
  · exact .data 0
  · exact .fin

theorem chunkHash_collisionFree {bytes : List UInt8}
    (same : chunkHash [97, 98, 99] = chunkHash bytes) :
    [97, 98, 99] = bytes := by
  by_contra different
  have other : ¬bytes = [97, 98, 99] := fun equal => different equal.symm
  rw [chunkHash, if_pos rfl, chunkHash, if_neg other] at same
  revert same
  decide

theorem read_returns_requested_first :
    run (ReadPayload.advance {} chunkHash ⟨chunkHandle, 9, 0, 3⟩) .ready
        firstChunkArrives = some (.returned (.ok [97, 98, 99])) ∧
      (([97, 98, 99] : List UInt8).length = 3 ∧
        [97, 98, 99] = chunks.requested ⟨chunkHandle, 9, 0, 3⟩) := by
  have ran : run (ReadPayload.advance {} chunkHash ⟨chunkHandle, 9, 0, 3⟩)
      .ready firstChunkArrives = some (.returned (.ok [97, 98, 99])) := by
    decide +kernel
  refine ⟨ran, (ReadPayload.read_returns_requested {} chunkHash chunks
    ⟨chunkHandle, 9, 0, 3⟩ firstChunkArrives
    (fun packet arrived _ => firstChunk_honest packet arrived)
    (fun _ _ => chunkHash_collisionFree) ran).mpr ?_⟩
  exact ⟨firstChunk.startPacket {} chunkHash, rfl, by decide +kernel, rfl⟩

/-- Delayed datagrams of the first chunk are taken for the second. -/
theorem stale_chunk_returned :
    (∀ packet ∈ firstChunkArrives.flatMap SendEvent.packets,
      chunks.Honest chunkHash packet) ∧
    run (ReadPayload.advance {} chunkHash ⟨chunkHandle, 9, 3, 3⟩) .ready
        firstChunkArrives = some (.returned (.ok [97, 98, 99])) ∧
      chunks.requested ⟨chunkHandle, 9, 3, 3⟩ = [97, 98, 100] :=
  ⟨firstChunk_honest, by decide +kernel, by decide⟩

end TrainPool
