import TrainPool.Runtime.Blocks
import TrainPool.Runtime.Incoming
import TrainPool.Runtime.WritePaths
import TrainPool.Transport.Codec

namespace TrainPool

open Execution

/-! The slices that the handlers of data requests take and the addresses they
compute. -/

/-- A slice of `limit` elements that begins at `start`. -/
structure Slicing where
  start : Nat
  length : Nat
  limit : Nat
  deriving DecidableEq, Repr

def Slicing.Inside (slicing : Slicing) : Prop :=
  slicing.start + slicing.length ≤ slicing.limit

instance (slicing : Slicing) : Decidable slicing.Inside :=
  inferInstanceAs (Decidable (_ ≤ _))

/-- What a step takes: slices of bytes or of flags, and the sums and products
that it computes for them. -/
structure Accesses where
  slicings : List Slicing := []
  addresses : List Nat := []
  deriving DecidableEq, Repr

namespace Accesses

def append (first second : Accesses) : Accesses where
  slicings := first.slicings ++ second.slicings
  addresses := first.addresses ++ second.addresses

def Safe (accesses : Accesses) : Prop :=
  (∀ slicing ∈ accesses.slicings, slicing.Inside) ∧
    ∀ address ∈ accesses.addresses, address < 2 ^ 64

instance (accesses : Accesses) : Decidable accesses.Safe :=
  inferInstanceAs (Decidable (_ ∧ _))

theorem safe_empty : Safe {} := by
  simp [Safe]

theorem safe_append {first second : Accesses} :
    (first.append second).Safe ↔ first.Safe ∧ second.Safe := by
  simp only [Safe, append, List.forall_mem_append]
  tauto

theorem safe_addresses {addresses : List Nat} :
    Safe { addresses := addresses } ↔
      ∀ address ∈ addresses, address < 2 ^ 64 := by
  simp [Safe]

def slice (start length limit : Nat) : Accesses where
  slicings := [⟨start, length, limit⟩]
  addresses := [start + length]

theorem safe_slice {start length limit : Nat} :
    (slice start length limit).Safe ↔
      start + length ≤ limit ∧ start + length < 2 ^ 64 := by
  simp [Safe, slice, Slicing.Inside]

/-- What is taken behind the checks of a request; an error comes before. -/
def behind {α : Type} (result : Result α) (accesses : Accesses) : Accesses :=
  match result with
  | .error (.error _) => {}
  | _ => accesses

end Accesses

def Passes {α : Type} (result : Result α) : Prop :=
  ∀ message, result ≠ .error (.error message)

section Passing

variable {α : Type} {condition : Prop} [Decidable condition]
  {message : String} {second : Unit → Result α}

theorem passes_ensure : Passes (ensure condition message) ↔ condition := by
  by_cases holds : condition
  · simp [Passes, ensure, holds]
  · simp [Passes, ensure, holds]

theorem passes_ensure_bind :
    Passes (ensure condition message >>= second) ↔
      condition ∧ Passes (second ()) := by
  by_cases holds : condition
  · simp only [Passes, ensure, holds, if_true, true_and]
    rfl
  · simp [Passes, ensure, holds, bind, Except.bind]

theorem passes_inBounds_bind (value : α) :
    Passes (inBounds condition >>= fun _ => pure value) := by
  intro message
  unfold inBounds
  split
  · intro same
    cases same
  · intro same
    cases same

theorem panics_ensure_bind :
    (ensure condition message >>= second) = .error .panic ↔
      condition ∧ second () = .error .panic := by
  by_cases holds : condition
  · simp only [ensure, holds, if_true, true_and]
    rfl
  · simp [ensure, holds, bind, Except.bind]

theorem panics_inBounds_bind (value : α) :
    (inBounds condition >>= fun _ => pure value) = .error .panic ↔
      ¬condition := by
  by_cases holds : condition
  · simp only [inBounds, holds, if_true, not_true, iff_false]
    intro same
    cases same
  · simp [inBounds, holds, bind, Except.bind]

theorem panics_inBounds :
    inBounds condition = .error .panic ↔ ¬condition := by
  by_cases holds : condition
  · simp [inBounds, holds]
  · simp [inBounds, holds]

theorem Accesses.safe_behind {result : Result α} {accesses : Accesses} :
    (behind result accesses).Safe ↔ (Passes result → accesses.Safe) := by
  unfold behind
  split
  · rename_i failure
    constructor
    · intro _ passes
      exact absurd rfl (passes failure)
    · intro _
      exact safe_empty
  · rename_i passed
    constructor
    · intro safe _
      exact safe
    · intro safe
      exact safe fun failure same => passed failure same

end Passing

/-! The requests on the blocks. -/

/-- The checks of `ReadChunk` before it looks its block up. -/
def checkReadChunk (config : Config) (handle : MemoryBlockHandle)
    (offset length : Nat) : Result Unit := do
  ensure (0 < length ∧ length ≤ config.chunkBytes)
    "chunk size exceeds negotiated limit"
  ensure (offset + length ≤ handle.size) "invalid read range"

theorem checkReadChunk_ok {config : Config} {handle : MemoryBlockHandle}
    {offset length : Nat} :
    checkReadChunk config handle offset length = .ok () ↔
      (0 < length ∧ length ≤ config.chunkBytes) ∧
        offset + length ≤ handle.size := by
  simp only [checkReadChunk, ensure_bind_ok, ensure_ok]

namespace RamEvent

/-- The critical section of a data request that has passed the checks on its
own fields.  What it carries may be the handle that the leader has answered,
with the id and the token of the requested one. -/
def Served (config : Config) : RamEvent → Prop
  | .writeLocal _ resolved transferId offset payload =>
      ∃ (handle : MemoryBlockHandle) (chunk : Chunk),
        chunk.check config handle = .ok () ∧ handle.size < 2 ^ 64 ∧
          handle.id = resolved.id ∧ handle.leaseToken = resolved.leaseToken ∧
          chunk.transferId = transferId ∧ chunk.offset = offset ∧
          chunk.length = payload.length
  | .beginDirect _ handle chunk =>
      chunk.check config handle = .ok () ∧ handle.size < 2 ^ 64
  | .hold _ resolved offset length =>
      ∃ handle : MemoryBlockHandle,
        checkReadChunk config handle offset length = .ok () ∧
          handle.size < 2 ^ 64 ∧ handle.id = resolved.id ∧
          handle.leaseToken = resolved.leaseToken
  | .allocateLocal handle _ _ => handle.size < 2 ^ 64
  | _ => True

def accesses (now : Nat) (ram : LocalRam) : RamEvent → Accesses
  | .writeLocal arc handle transferId offset payload =>
      match ram.lock? arc with
      | some block => .behind
          (block.writeLocal now handle transferId offset payload)
          (.slice offset payload.length block.bytes.length)
      | none => {}
  | .beginDirect arc handle chunk =>
      match ram.lock? arc with
      | some block => .behind (block.admitDirect now handle chunk)
          (.slice chunk.offset chunk.length block.bytes.length)
      | none => {}
  | .finishDirect arc =>
      match ram.heap[arc]? with
      | some ⟨block, some (.writing chunk _)⟩ =>
          { slicings := [⟨chunk.offset, chunk.length, block.bytes.length⟩] }
      | _ => {}
  | .hold arc handle offset length =>
      match ram.lock? arc with
      | some block => .append { addresses := [offset + length] }
          (.behind (block.read now handle offset length)
            (.slice offset length block.bytes.length))
      | none => {}
  | _ => {}

def Panics (now : Nat) (ram : LocalRam) : RamEvent → Prop
  | .writeLocal arc handle transferId offset payload =>
      ∃ block ∈ ram.lock? arc,
        block.writeLocal now handle transferId offset payload =
          .error .panic
  | .beginDirect arc handle chunk =>
      ∃ block ∈ ram.lock? arc,
        block.admitDirect now handle chunk = .error .panic
  | .hold arc handle offset length =>
      ∃ block ∈ ram.lock? arc,
        block.read now handle offset length = .error .panic
  | _ => False

end RamEvent

def RamBlock.Expects (now token generation offset : Nat) (block : RamBlock) :
    Prop :=
  (token = block.handle.leaseToken ∧ now < block.handle.leaseExpiresMs) ∧
    block.handle.generation = generation ∧ block.handle.state = .writing ∧
    block.written = offset

instance (now token generation offset : Nat) (block : RamBlock) :
    Decidable (block.Expects now token generation offset) :=
  inferInstanceAs (Decidable ((_ ∧ _) ∧ _))

/-- A relayed write ends within the block that is stored. -/
def RamEvent.Within (now : Nat) (ram : LocalRam) : RamEvent → Prop
  | .writeLocal arc handle _ offset payload =>
      ∀ block ∈ ram.lock? arc,
        block.Expects now handle.leaseToken handle.generation offset →
          offset + payload.length ≤ block.handle.size
  | _ => True

instance (now : Nat) (ram : LocalRam) :
    (event : RamEvent) → Decidable (event.Within now ram)
  | .writeLocal arc handle _ offset payload => inferInstanceAs (Decidable
      (∀ block ∈ ram.lock? arc,
        block.Expects now handle.leaseToken handle.generation offset →
          offset + payload.length ≤ block.handle.size))
  | .allocateLocal _ _ _ | .beginDirect _ _ _ | .stream _ _
  | .finishDirect _ | .commit _ _ _ | .renew _ _ | .publish _ _ | .pin _ _
  | .hold _ _ _ _ | .release _ | .remove _ _ _ | .expire => isTrue trivial

/-! A data request is in range when it is within its block. -/

namespace RamBlock

variable {now token generation offset : Nat} {block : RamBlock}

section

variable {α : Type} {second : Unit → Result α}

theorem passes_authorize_bind :
    Passes (block.authorize now token >>= second) ↔
      (token = block.handle.leaseToken ∧
        now < block.handle.leaseExpiresMs) ∧ Passes (second ()) := by
  simp only [authorize, bind_assoc, passes_ensure_bind, and_assoc]

theorem panics_authorize_bind :
    (block.authorize now token >>= second) = .error .panic ↔
      (token = block.handle.leaseToken ∧
        now < block.handle.leaseExpiresMs) ∧ second () = .error .panic := by
  simp only [authorize, bind_assoc, panics_ensure_bind, and_assoc]

end

theorem passes_writeLocal {handle : MemoryBlockHandle} {transferId : Uuid}
    {payload : List UInt8} :
    Passes (block.writeLocal now handle transferId offset payload) ↔
      block.Expects now handle.leaseToken handle.generation offset := by
  simp only [writeLocal, passes_authorize_bind, passes_ensure_bind,
    passes_inBounds_bind, and_true, Expects]
  tauto

theorem panics_writeLocal {handle : MemoryBlockHandle} {transferId : Uuid}
    {payload : List UInt8} :
    block.writeLocal now handle transferId offset payload =
        .error .panic ↔
      block.Expects now handle.leaseToken handle.generation offset ∧
        ¬offset + payload.length ≤ block.bytes.length := by
  simp only [writeLocal, panics_authorize_bind, panics_ensure_bind,
    panics_inBounds_bind, Expects]
  tauto

theorem passes_finishUdp {buffer : List UInt8} {transferId : Uuid} :
    Passes (block.finishUdp now token generation offset buffer transferId) ↔
      block.Expects now token generation offset := by
  simp only [finishUdp, passes_authorize_bind, passes_ensure_bind,
    passes_inBounds_bind, and_true, Expects]

theorem panics_finishUdp {buffer : List UInt8} {transferId : Uuid} :
    block.finishUdp now token generation offset buffer transferId =
        .error .panic ↔
      block.Expects now token generation offset ∧
        ¬offset + buffer.length ≤ block.bytes.length := by
  simp only [finishUdp, panics_authorize_bind, panics_ensure_bind,
    panics_inBounds_bind, Expects, and_assoc]

theorem passes_admitDirect {handle : MemoryBlockHandle} {chunk : Chunk}
    (passes : Passes (block.admitDirect now handle chunk)) :
    block.handle.size = chunk.totalSize := by
  simp only [admitDirect, passes_authorize_bind,
    passes_ensure_bind] at passes
  exact passes.2.2.1.2

theorem panics_admitDirect {handle : MemoryBlockHandle} {chunk : Chunk}
    (panics : block.admitDirect now handle chunk = .error .panic) :
    block.handle.size = chunk.totalSize ∧
      ¬chunk.offset + chunk.length ≤ block.bytes.length := by
  simp only [admitDirect, panics_authorize_bind, panics_ensure_bind,
    panics_inBounds] at panics
  exact ⟨panics.2.2.1.2, panics.2.2.2.2⟩

theorem passes_read {handle : MemoryBlockHandle} {length : Nat}
    (passes : Passes (block.read now handle offset length)) :
    offset + length ≤ block.bytes.length := by
  simp only [read, passes_authorize_bind, passes_ensure_bind] at passes
  exact passes.2.2.1

theorem orderly_read (handle : MemoryBlockHandle) (length : Nat) :
    Orderly (block.read now handle offset length) := by
  intro panics
  simp only [read, panics_authorize_bind, panics_ensure_bind] at panics
  cases panics.2.2.2

theorem passes_readUdp {packet : Packet}
    (passes : Passes (block.readUdp now packet)) :
    packet.offset + packet.sequenceId < 2 ^ 64 ∧
      packet.offset + packet.sequenceId ≤ block.bytes.length := by
  simp only [readUdp, passes_authorize_bind, passes_ensure_bind] at passes
  exact ⟨passes.2.2.1, passes.2.2.2.1⟩

theorem orderly_readUdp (packet : Packet) :
    Orderly (block.readUdp now packet) := by
  intro panics
  simp only [readUdp, panics_authorize_bind, panics_ensure_bind] at panics
  cases panics.2.2.2.2

theorem orderly_admitUdp (packet : Packet) :
    Orderly (block.admitUdp now packet) := by
  intro panics
  simp only [admitUdp, authorize, bind_assoc, panics_ensure_bind] at panics
  exact orderly_ensure _ _ panics.2.2

end RamBlock

namespace RamEvent

variable {config : Config} {blake3 : List UInt8 → Digest} {now : Nat}
  {ram : LocalRam}

theorem intact_of_lock (sound : ram.Sound blake3) {arc : Arc}
    {block : RamBlock} (free : ram.lock? arc = some block) :
    block.bytes.length = block.handle.size :=
  (sound.intact arc _ (LocalRam.lock?_eq_some.mp free)).1.length

/-- A data request takes its slices in range and does not panic if and only if
it is within its block. -/
theorem safe_iff {event : RamEvent} (sound : ram.Sound blake3)
    (served : event.Served config) :
    (event.accesses now ram).Safe ∧ ¬event.Panics now ram ↔
      event.Within now ram := by
  cases event with
  | writeLocal arc resolved transferId offset payload =>
      obtain ⟨handle, chunk, checked, small, _, _, _, rfl, sized⟩ := served
      obtain ⟨_, inside, total⟩ := Chunk.check_ok.mp checked
      cases free : ram.lock? arc with
      | none => simp [accesses, Panics, Within, free, Accesses.safe_empty]
      | some block =>
          have length := intact_of_lock sound free
          simp only [accesses, Panics, Within, free, Accesses.safe_behind,
            RamBlock.passes_writeLocal, RamBlock.panics_writeLocal,
            Accesses.safe_slice, Option.mem_def, Option.some.injEq,
            exists_eq_left', forall_eq', length]
          constructor
          · intro given expects
            exact (given.1 expects).1
          · intro within
            refine ⟨fun expects => ⟨within expects, by omega⟩, ?_⟩
            intro panics
            exact panics.2 (within panics.1)
  | beginDirect arc handle chunk =>
      obtain ⟨checked, small⟩ := served
      obtain ⟨_, inside, total⟩ := Chunk.check_ok.mp checked
      simp only [Within, iff_true]
      cases free : ram.lock? arc with
      | none => simp [accesses, Panics, free, Accesses.safe_empty]
      | some block =>
          have length := intact_of_lock sound free
          simp only [accesses, Panics, free, Accesses.safe_behind,
            Accesses.safe_slice, Option.mem_def, Option.some.injEq,
            exists_eq_left']
          constructor
          · intro passes
            have size := RamBlock.passes_admitDirect passes
            omega
          · intro panics
            obtain ⟨size, outside⟩ := RamBlock.panics_admitDirect panics
            omega
  | finishDirect arc =>
      simp only [Within, Panics, not_false_iff, and_true, iff_true, accesses]
      split
      · rename_i block chunk arrived stored
        obtain ⟨_, _, inside, _⟩ := (sound.intact arc _ stored).2
        simpa [Accesses.Safe, Slicing.Inside] using inside
      · exact Accesses.safe_empty
  | hold arc resolved offset length =>
      obtain ⟨handle, checked, small, _⟩ := served
      obtain ⟨_, inside⟩ := checkReadChunk_ok.mp checked
      simp only [Within, iff_true]
      cases free : ram.lock? arc with
      | none => simp [accesses, Panics, free, Accesses.safe_empty]
      | some block =>
          simp only [accesses, Panics, free, Accesses.safe_append,
            Accesses.safe_addresses, Accesses.safe_behind,
            Accesses.safe_slice, List.forall_mem_singleton, Option.mem_def,
            Option.some.injEq, exists_eq_left']
          refine ⟨⟨?_, ?_⟩, RamBlock.orderly_read resolved length⟩
          · omega
          · intro passes
            exact ⟨RamBlock.passes_read passes, by omega⟩
  | _ => simp [accesses, Panics, Within, Accesses.safe_empty]

end RamEvent

/-! The sessions. -/

namespace IncomingSession

def accesses (session : IncomingSession) (packet : Packet) : Accesses :=
  let start := packet.sequenceId * session.payloadSize
  .behind (session.checkMetadata packet)
    (.behind (ensure (packet.sequenceId < session.packetCount) "")
      (.append { addresses := [start, session.baseOffset + start] }
        (.behind (ensure (packet.offset = session.baseOffset + start) "")
          (.append { addresses := [start + packet.payload.length] }
            (.behind (session.checkRange packet)
              { slicings := ⟨packet.sequenceId, 1, session.received.length⟩ ::
                  if session.isReceived packet.sequenceId then []
                  else [⟨start, packet.payload.length,
                    session.buffer.length⟩] })))))

/-- What the packets of a batch take, up to the first that is refused. -/
def accessesAll (session : IncomingSession) : List Packet → Accesses
  | [] => {}
  | packet :: rest => (session.accesses packet).append
      (.behind (do session.checkMetadata packet; session.checkRange packet)
        (if session.isReceived packet.sequenceId then
          session.accessesAll rest
        else
          (session.store packet).accessesAll rest))

end IncomingSession

def LocalRam.Sized (ram : LocalRam) : Prop :=
  ∀ (arc : Arc) (cell : Cell), ram.heap[arc]? = some cell →
    cell.block.handle.size < 2 ^ 64

namespace LocalRam

variable {config : Config} {blake3 : List UInt8 → Digest}

@[simp] theorem length_put (arc : Arc) (cell : Cell) (ram : LocalRam) :
    (ram.put arc cell).heap.length = ram.heap.length := by
  simp [put]

@[simp] theorem length_conclude (arc : Arc) (result : Result RamBlock)
    (ram : LocalRam) :
    (ram.conclude arc result).heap.length = ram.heap.length := by
  unfold conclude
  split <;> simp

theorem step_heap {self : Identity} {leaseSeconds now : Nat}
    {ram next : LocalRam} {event : RamEvent}
    (stepped : ram.step blake3 self leaseSeconds now event = some next) :
    next.heap.length = ram.heap.length ∨
      ∃ handle headroom reserved,
        event = .allocateLocal handle headroom reserved ∧
          next.heap = ram.heap ++ [⟨RamBlock.allocated handle, none⟩] := by
  cases event with
  | allocateLocal handle headroom reserved =>
      simp only [step] at stepped
      split at stepped
      · rename_i allocated
        cases stepped
        obtain ⟨_, _, _, rfl⟩ := allocateLocal_ok allocated
        exact .inr ⟨handle, headroom, reserved, rfl, rfl⟩
      · cases stepped
        exact .inl rfl
  | writeLocal arc handle transferId offset payload =>
      obtain ⟨block, _, stepped⟩ := Option.bind_eq_some_iff.mp stepped
      cases stepped
      exact .inl (length_conclude _ _ _)
  | commit arc handle checksum =>
      obtain ⟨block, _, stepped⟩ := Option.bind_eq_some_iff.mp stepped
      cases stepped
      exact .inl (length_conclude _ _ _)
  | renew arc handle | publish arc handle =>
      obtain ⟨block, _, stepped⟩ := Option.bind_eq_some_iff.mp stepped
      cases stepped
      exact .inl (length_conclude _ _ _)
  | beginDirect arc handle chunk =>
      obtain ⟨block, _, stepped⟩ := Option.bind_eq_some_iff.mp stepped
      split at stepped <;> cases stepped
      · exact .inl (length_put _ _ _)
      · exact .inl rfl
  | pin arc handle =>
      obtain ⟨block, _, stepped⟩ := Option.bind_eq_some_iff.mp stepped
      split at stepped <;> cases stepped
      · exact .inl (length_put _ _ _)
      · exact .inl rfl
  | hold arc handle offset length =>
      obtain ⟨block, _, stepped⟩ := Option.bind_eq_some_iff.mp stepped
      split at stepped <;> cases stepped
      · exact .inl (length_put _ _ _)
      · exact .inl rfl
  | stream arc piece =>
      simp only [step] at stepped
      split at stepped
      · split at stepped <;> cases stepped
        exact .inl (length_put _ _ _)
      · cases stepped
  | finishDirect arc =>
      simp only [step] at stepped
      split at stepped
      · split at stepped
        · split at stepped <;> cases stepped
          · exact .inl (length_put _ _ _)
          · exact .inl (length_put _ _ _)
        · cases stepped
      · cases stepped
  | release arc =>
      obtain ⟨cell, _, stepped⟩ := Option.bind_eq_some_iff.mp stepped
      cases stepped
      exact .inl (length_put _ _ _)
  | remove id arc token =>
      obtain ⟨cell, _, stepped⟩ := Option.bind_eq_some_iff.mp stepped
      split at stepped <;> cases stepped
      · left
        unfold remove
        split <;> rfl
      · exact .inl rfl
  | expire =>
      cases stepped
      exact .inl rfl

theorem Sized.grows {ram next : LocalRam} (sized : ram.Sized)
    (grows : ram.Grows next) (length : next.heap.length = ram.heap.length) :
    next.Sized := by
  intro arc cell found
  have bound : arc < ram.heap.length :=
    length ▸ (List.getElem?_eq_some_iff.mp found).1
  obtain ⟨later, stored, grown⟩ :=
    grows arc _ (List.getElem?_eq_getElem bound)
  cases found.symm.trans stored
  rw [grown.identity.2.2.1]
  exact sized arc _ (List.getElem?_eq_getElem bound)

theorem step_sized {self : Identity} {leaseSeconds now : Nat}
    {ram next : LocalRam} {event : RamEvent} (sound : ram.Sound blake3)
    (sized : ram.Sized) (served : event.Served config)
    (stepped : ram.step blake3 self leaseSeconds now event = some next) :
    next.Sized := by
  rcases step_heap stepped with length | ⟨handle, _, _, rfl, heap⟩
  · exact sized.grows ((step_change stepped).grows sound) length
  · intro arc cell found
    rw [heap] at found
    rcases List.mem_append.mp (List.mem_of_getElem? found) with old | new
    · obtain ⟨index, stored⟩ := List.getElem?_of_mem old
      exact sized index cell stored
    · obtain rfl := List.mem_singleton.mp new
      exact served

end LocalRam

/-! The packets that arrive. -/

/-- What `decode` can return: fields of the widths of the source, and a payload
that fits a datagram. -/
def Packet.Received (packet : Packet) : Prop :=
  packet.Typed ∧ packet.Encodes

theorem Packet.decode_received {blake3 : List UInt8 → Digest}
    {hmac : List UInt8 → List UInt8 → Digest} {secret : Option String}
    {datagram : List UInt8} {packet : Packet}
    (decoded : decode blake3 hmac secret datagram = .ok packet) :
    packet.Received := by
  obtain ⟨⟨long, short⟩, _, _, _, same, _⟩ := decode_ok.mp decoded
  refine ⟨decode_typed decoded, ?_⟩
  have payload : packet.payload =
      Slice.slice datagram headerLen datagram.length := by
    rw [same]
    rfl
  rw [Encodes, payload, Slice.length_slice _ _ _ (Nat.le_refl _)]
  omega

theorem Packet.Received.product {config : Config} {packet : Packet}
    (received : packet.Received) (valid : config.Valid) :
    packet.sequenceId * config.udpPayloadBytes < 2 ^ 43 := by
  have sequence : packet.sequenceId < 2 ^ 32 := received.1.sequenceId
  have pieces : config.udpPayloadBytes ≤ 1200 := valid.payload.2
  have bound : packet.sequenceId * config.udpPayloadBytes ≤
      packet.sequenceId * 1200 := Nat.mul_le_mul_left _ pieces
  omega

namespace IncomingSession

variable {config : Config} {session : IncomingSession} {packet : Packet}

theorem passes_checkRange :
    Passes (session.checkRange packet) ↔
      session.checkRange packet = .ok () := by
  rw [checkRange_ok]
  simp only [checkRange, passes_ensure_bind, passes_ensure]

theorem WellFormed.safe (formed : session.WellFormed config)
    (valid : config.Valid) (received : packet.Received) :
    (session.accesses packet).Safe := by
  have product := received.product valid
  have total : packet.totalSize < 2 ^ 64 := received.1.totalSize
  have encodes : packet.payload.length + 166 ≤ 1400 := received.2
  have block := formed.inside
  rw [← formed.pieces] at product
  simp only [accesses, Accesses.safe_behind, Accesses.safe_append,
    Accesses.safe_addresses, passes_ensure, List.forall_mem_cons,
    List.not_mem_nil, false_imp_iff, implies_true, and_true]
  intro metadata inside
  have size := (passes_ensure.mp metadata).2.2.2
  have start : packet.sequenceId * session.payloadSize <
      session.buffer.length := by
    rw [formed.count, formed.pieces] at inside
    rw [formed.pieces]
    exact Slice.mul_lt_of_lt_divCeil (by have := valid.payload.1; omega)
      inside
  refine ⟨⟨by omega, by omega⟩, ?_⟩
  intro _
  refine ⟨by omega, ?_⟩
  intro passes
  have range := passes_checkRange.mp passes
  have slot := formed.slot range
  have fits := (checkRange_ok.mp range).2.2
  constructor
  · intro slicing member
    rcases List.mem_cons.mp member with rfl | member
    · exact slot
    · split at member
      · cases member
      · obtain rfl := List.mem_singleton.mp member
        exact fits
  · intro address member
    cases member

theorem WellFormed.safe_all {packets : List Packet}
    (formed : session.WellFormed config) (valid : config.Valid)
    (received : ∀ packet ∈ packets, packet.Received) :
    (session.accessesAll packets).Safe := by
  induction packets generalizing session with
  | nil => exact Accesses.safe_empty
  | cons packet rest ih =>
      have later : ∀ packet ∈ rest, packet.Received :=
        fun packet member => received packet (List.mem_cons_of_mem _ member)
      simp only [accessesAll, Accesses.safe_append, Accesses.safe_behind]
      refine ⟨formed.safe valid (received packet List.mem_cons_self), ?_⟩
      intro passes
      split
      · exact ih formed later
      · rename_i fresh
        simp only [checkMetadata, passes_ensure_bind,
          passes_checkRange] at passes
        exact ih (formed.store passes.2 (by simpa using fresh)) later

theorem orderly_checkMetadata : Orderly (session.checkMetadata packet) :=
  orderly_ensure _ _

theorem orderly_checkRange : Orderly (session.checkRange packet) := by
  intro panics
  simp only [checkRange, panics_ensure_bind] at panics
  exact orderly_ensure _ _ panics.2.2

theorem orderly_receiveData (instant window : Nat) :
    Orderly (session.receiveData instant window packet).2 := by
  unfold receiveData
  split
  · rename_i fault refused
    intro same
    cases same
    exact orderly_checkMetadata refused
  · simp only
    split
    · rename_i fault refused
      intro same
      cases same
      exact orderly_checkRange refused
    · exact orderly_ok _

theorem orderly_receiveAll (packets : List Packet) :
    Orderly (session.receiveAll packets).2 := by
  induction packets generalizing session with
  | nil => exact orderly_ok _
  | cons packet rest ih =>
      unfold receiveAll
      split
      · rename_i fault refused
        intro same
        cases same
        exact orderly_checkMetadata.bind (fun _ _ => orderly_checkRange)
          refused
      · split
        · exact ih
        · exact ih

end IncomingSession

namespace Handler

variable (config : Config) (source : SocketAddr) (now : Nat)
  (shared : Shared)

def accesses (handler : Handler) : Accesses :=
  let packet := handler.packet
  match handler.stage with
  | .readLock arc =>
      match shared.ram.lock? arc with
      | some block => .behind (block.readUdp now packet)
          (.slice packet.offset packet.sequenceId block.bytes.length)
      | none => {}
  | .dataCompleted | .batchCompleted =>
      { addresses := [packet.sequenceId * config.udpPayloadBytes] }
  | .dataSession =>
      match shared.udp.incoming.lookup (packet.key source) with
      | some session => session.accesses packet
      | none => {}
  | .batchSession =>
      match shared.udp.incoming.lookup (packet.key source) with
      | some session => session.accessesAll (packet :: handler.rest)
      | none => {}
  | .finWrite session arc =>
      match shared.ram.lock? arc with
      | some block => .behind
          (block.finishUdp now packet.leaseToken session.generation
            session.baseOffset session.buffer packet.transferId)
          (.slice session.baseOffset session.buffer.length
            block.bytes.length)
      | none => {}
  | _ => {}

/-- The chunk of a FIN ends within the block that is stored. -/
def Within (handler : Handler) : Prop :=
  match handler.stage with
  | .finWrite session arc =>
      ∀ block ∈ shared.ram.lock? arc,
        block.Expects now handler.packet.leaseToken session.generation
            session.baseOffset →
          session.baseOffset + session.buffer.length ≤ block.handle.size
  | _ => True

end Handler

namespace Handler

variable {config : Config} {blake3 : List UInt8 → Digest}
  {source : SocketAddr} {now instant : Nat} {choice : Choice}
  {shared next : Shared} {outcome : Outcome} {handler : Handler}

theorem ofResult_panic {α : Type} {stage : α → Stage} {result : Result α}
    (orderly : Orderly result) : Outcome.ofResult stage result ≠ .panic := by
  unfold Outcome.ofResult
  split
  · intro same
    cases same
  · intro same
    cases same
  · exact absurd rfl orderly

theorem orderly_get (id : Uuid) (ram : LocalRam) : Orderly (ram.get id) := by
  unfold LocalRam.get
  split
  · exact orderly_ok _
  · exact orderly_error _

theorem dispatch_panic (packet : Packet) :
    dispatch config packet ≠ .panic := by
  unfold dispatch
  split
  · exact ofResult_panic (orderly_ensure _ _)
  · split
    · apply ofResult_panic
      apply orderly_ensure_bind
      intro _
      apply orderly_ensure_bind
      intro _
      apply orderly_ensure_bind
      intro _
      exact orderly_ensure _ _
    · intro same
      cases same
  all_goals
    intro same
    cases same

theorem startSession_orderly (reserved : Bool) (packet : Packet)
    (udp : UdpServerState) :
    Orderly (udp.startSession config instant reserved source packet).2 := by
  unfold UdpServerState.startSession
  simp only
  split
  · exact orderly_ok _
  · split
    · exact orderly_error _
    · split
      · exact orderly_error _
      · exact orderly_ok _

theorem run_panic :
    (∃ result, handler.run config blake3 source now instant choice shared =
        some result ∧ result.2 = .panic) ↔
      ∃ session arc block, handler.stage = .finWrite session arc ∧
        shared.ram.lock? arc = some block ∧
        block.finishUdp now handler.packet.leaseToken session.generation
          session.baseOffset session.buffer handler.packet.transferId =
            .error .panic := by
  constructor
  · intro panics
    obtain ⟨⟨next, outcome⟩, ran, rfl⟩ := panics
    obtain ⟨packet, rest, stage⟩ := handler
    cases stage with
    | finWrite session arc =>
        obtain ⟨block, free, ran⟩ := Option.bind_eq_some_iff.mp ran
        split at ran
        · cases ran
        · cases ran
        · rename_i panicked
          exact ⟨session, arc, block, rfl, free, panicked⟩
    | enter =>
        simp only [run, Option.some.injEq, Prod.mk.injEq] at ran
        exact absurd ran.2 (dispatch_panic packet)
    | readBlock | startBlock =>
        simp only [run, Option.some.injEq, Prod.mk.injEq] at ran
        exact absurd ran.2 (ofResult_panic (orderly_get _ _))
    | readLock arc =>
        obtain ⟨block, _, ran⟩ := Option.bind_eq_some_iff.mp ran
        split at ran
        · cases ran
        · rename_i panicked
          exact absurd panicked (block.orderly_readUdp packet)
        · split at ran <;> cases ran
    | startLock arc =>
        obtain ⟨block, _, ran⟩ := Option.bind_eq_some_iff.mp ran
        simp only [Option.some.injEq, Prod.mk.injEq] at ran
        exact absurd ran.2 (ofResult_panic (block.orderly_admitUdp packet))
    | startSession =>
        simp only [run, runStartSession, Option.some.injEq,
          Prod.mk.injEq] at ran
        replace ran := ran.2
        split at ran
        · cases ran
        · cases ran
        · rename_i panicked
          exact absurd panicked (startSession_orderly _ _ _)
    | dataSession =>
        simp only [run, runDataSession] at ran
        split at ran
        · cases ran
        · simp only [Option.some.injEq, Prod.mk.injEq] at ran
          replace ran := ran.2
          split at ran
          · cases ran
          · cases ran
          · rename_i panicked
            exact absurd panicked (IncomingSession.orderly_receiveData _ _)
    | batchSession =>
        simp only [run, runBatchSession] at ran
        split at ran
        · cases ran
        · simp only [Option.some.injEq, Prod.mk.injEq] at ran
          replace ran := ran.2
          split at ran
          · cases ran
          · cases ran
          · rename_i panicked
            exact absurd panicked (IncomingSession.orderly_receiveAll _)
    | finSession =>
        simp only [run, runFinSession] at ran
        split at ran
        · cases ran
        · split at ran
          · cases ran
          · split at ran
            · cases ran
            · split at ran <;> cases ran
    | finBlock session =>
        simp only [run, Option.some.injEq, Prod.mk.injEq] at ran
        replace ran := ran.2
        split at ran
        · cases ran
        · cases ran
        · rename_i panicked
          exact absurd panicked (orderly_get _ _)
    | finEvict =>
        simp only [run, runFinEvict] at ran
        split at ran
        · obtain ⟨oldest, _, ran⟩ := Option.bind_eq_some_iff.mp ran
          split at ran <;> cases ran
        · cases ran
    | dataCompleted | dataFinishing | batchCompleted | batchFinishing |
      finCompleted | finFinishing =>
        simp only [run, Option.some.injEq, Prod.mk.injEq] at ran
        replace ran := ran.2
        split at ran <;> cases ran
    | finInsert | finRelease | finFail message | abortSession => cases ran
  · intro given
    obtain ⟨session, arc, block, stage, free, panicked⟩ := given
    obtain ⟨packet, rest, here⟩ := handler
    cases stage
    refine ⟨(shared, .panic), ?_, rfl⟩
    simp only [run, runFinWrite, free, Option.bind_eq_bind,
      Option.bind_some, panicked]

/-- A handler takes its slices in range and does not panic if and only if the
chunk of its FIN is within the block. -/
theorem safe_iff (valid : config.Valid) (sound : shared.ram.Sound blake3)
    (sizes : shared.ram.Sized) (formed : SessionsFormed config shared.udp)
    (received : ∀ packet ∈ handler.packet :: handler.rest,
      packet.Received) :
    (handler.accesses config source now shared).Safe ∧
        (¬∃ result, handler.run config blake3 source now instant choice
          shared = some result ∧ result.2 = .panic) ↔
      handler.Within now shared := by
  rw [run_panic]
  have own : handler.packet.Received := received _ List.mem_cons_self
  obtain ⟨packet, rest, stage⟩ := handler
  cases stage with
  | finWrite session arc =>
      cases free : shared.ram.lock? arc with
      | none =>
          simp [accesses, Within, free, Accesses.safe_empty]
      | some block =>
          have length := RamEvent.intact_of_lock sound free
          have small : block.handle.size < 2 ^ 64 :=
            sizes arc _ (LocalRam.lock?_eq_some.mp free)
          simp only [accesses, Within, free, Accesses.safe_behind,
            RamBlock.passes_finishUdp, Accesses.safe_slice, Option.mem_def,
            Option.some.injEq, forall_eq', length]
          constructor
          · intro given expects
            exact (given.1 expects).1
          · intro within
            constructor
            · intro expects
              have inside := within expects
              exact ⟨inside, by omega⟩
            · intro panics
              obtain ⟨other, reference, found, stage, locked, panicked⟩ :=
                panics
              cases stage
              cases free.symm.trans locked
              obtain ⟨expects, outside⟩ :=
                RamBlock.panics_finishUdp.mp panicked
              exact outside (length ▸ within expects)
  | readLock arc =>
      simp only [Within, iff_true, reduceCtorEq, false_and, exists_false,
        not_false_iff, and_true, accesses]
      split
      · rw [Accesses.safe_behind]
        intro passes
        obtain ⟨small, inside⟩ := RamBlock.passes_readUdp passes
        exact Accesses.safe_slice.mpr ⟨inside, small⟩
      · exact Accesses.safe_empty
  | dataCompleted | batchCompleted =>
      simp only [Within, iff_true, reduceCtorEq, false_and, exists_false,
        not_false_iff, and_true, accesses, Accesses.safe_addresses,
        List.forall_mem_singleton]
      exact (own.product valid).trans (by decide)
  | dataSession =>
      simp only [Within, iff_true, reduceCtorEq, false_and, exists_false,
        not_false_iff, and_true, accesses]
      split
      · rename_i session found
        exact (formed _ _ found).safe valid own
      · exact Accesses.safe_empty
  | batchSession =>
      simp only [Within, iff_true, reduceCtorEq, false_and, exists_false,
        not_false_iff, and_true, accesses]
      split
      · rename_i session found
        exact (formed _ _ found).safe_all valid received
      · exact Accesses.safe_empty
  | _ => simp [accesses, Within, Accesses.safe_empty]

end Handler

/-- A packet has been decoded, and a request has passed its own checks. -/
def DaemonEvent.Served (config : Config) : DaemonEvent → Prop
  | .receive _ datagrams =>
      ∀ packet, .ok packet ∈ datagrams → packet.Received
  | .request event => event.Served config
  | _ => True

namespace Daemon

section Ranges

variable (config : Config) (blake3 : List UInt8 → Digest) (daemon : Daemon)

def accesses : DaemonEvent → Accesses
  | .handle index _ =>
      match daemon.running index with
      | some (source, handler) =>
          handler.accesses config source daemon.now daemon.shared
      | none => {}
  | .request event => event.accesses daemon.now daemon.shared.ram
  | _ => {}

def Panics : DaemonEvent → Prop
  | .handle index choice =>
      ∃ entry ∈ daemon.running index,
        ∃ result, entry.2.run config blake3 entry.1 daemon.now daemon.instant
          choice daemon.shared = some result ∧ result.2 = .panic
  | .request event => event.Panics daemon.now daemon.shared.ram
  | _ => False

/-- Every slice is in range, no address overflows, and nothing panics. -/
def InRange (event : DaemonEvent) : Prop :=
  (daemon.accesses config event).Safe ∧
    ¬daemon.Panics config blake3 event

/-- What is about to be written ends within the block that is stored. -/
def Within : DaemonEvent → Prop
  | .handle index _ =>
      ∀ entry ∈ daemon.running index,
        entry.2.Within daemon.now daemon.shared
  | .request event => event.Within daemon.now daemon.shared.ram
  | _ => True

structure Ranged : Prop where
  sound : daemon.shared.ram.Sound blake3
  sized : daemon.shared.ram.Sized
  formed : daemon.Formed config
  received : ∀ source handler, daemon.Handles source handler →
    ∀ packet ∈ handler.packet :: handler.rest, packet.Received

end Ranges

variable {config : Config} {blake3 : List UInt8 → Digest} {self : Identity}

theorem empty_ranged : empty.Ranged config blake3 where
  sound := LocalRam.empty_sound
  sized := by
    intro arc cell found
    simp [empty, LocalRam.empty] at found
  formed := empty_formed
  received := by
    intro source handler given
    obtain ⟨task, member, _⟩ := given
    simp [empty] at member

theorem step_sized {daemon next : Daemon} {event : DaemonEvent}
    (ranged : daemon.Ranged config blake3) (served : event.Served config)
    (stepped : daemon.step config blake3 self event = some next) :
    next.shared.ram.Sized := by
  have grows := (step_change stepped).grows ranged.sound
  cases event with
  | receive source datagrams =>
      cases stepped
      exact ranged.sized
  | handle index choice =>
      obtain ⟨_, _, _, _, _, _, ran, rfl⟩ := handle_eq_some.mp stepped
      apply ranged.sized.grows grows
      rcases Handler.run_ram ran with same | ⟨_, _, _, _, _, _, _, same, _⟩
      · rw [same]
      · rw [same]
        exact LocalRam.length_put _ _ _
  | request event =>
      obtain ⟨ram, requested, done⟩ := Option.bind_eq_some_iff.mp stepped
      cases done
      exact LocalRam.step_sized ranged.sound ranged.sized served requested
  | responded response =>
      simp only [step] at stepped
      split at stepped <;> cases stepped
      exact ranged.sized
  | clock now instant =>
      simp only [step] at stepped
      split at stepped <;> cases stepped
      exact ranged.sized

theorem step_ranged {daemon next : Daemon} {event : DaemonEvent}
    (ranged : daemon.Ranged config blake3) (served : event.Served config)
    (stepped : daemon.step config blake3 self event = some next) :
    next.Ranged config blake3 := by
  refine ⟨(step_change stepped).sound ranged.sound,
    step_sized ranged served stepped, step_formed ranged.formed stepped, ?_⟩
  intro origin other otherHandles
  rcases step_cases stepped with ⟨source, datagrams, rfl, rfl⟩ |
      ⟨index, choice, _, handled⟩ | ⟨tasks, _⟩
  · rcases receive_handles otherHandles with handles | ⟨_, member⟩
    · exact ranged.received origin other handles
    · obtain ⟨first, ⟨_, single⟩ | ⟨_, batch⟩⟩ := udpDatagrams_spec member
      · rw [single]
        intro packet listed
        obtain rfl := List.mem_singleton.mp listed
        exact served _ first
      · exact fun packet listed => served packet (batch packet listed).1
  · obtain ⟨source, handler, _, outcome, _, handles, _, others, _⟩ :=
      handle_handles handled
    rcases others origin other otherHandles with old | ⟨_, _, _, rfl⟩
    · exact ranged.received origin other old
    · exact ranged.received source handler handles
  · exact ranged.received origin other (otherHandles.of_tasks tasks)

theorem inRange_iff (valid : config.Valid) {daemon : Daemon}
    {event : DaemonEvent} (ranged : daemon.Ranged config blake3)
    (served : event.Served config) :
    daemon.InRange config blake3 event ↔ daemon.Within event := by
  cases event with
  | request event => exact event.safe_iff ranged.sound served
  | handle index choice =>
      simp only [InRange, accesses, Panics, Within]
      cases found : daemon.running index with
      | none => simp [Accesses.safe_empty]
      | some entry =>
          obtain ⟨source, handler⟩ := entry
          have handles := handles_of_running found
          simp only [Option.mem_def, Option.some.injEq, exists_eq_left',
            forall_eq']
          exact Handler.safe_iff valid ranged.sound ranged.sized
            ranged.formed.sessions (ranged.received source handler handles)
  | receive source datagrams | responded response | clock now instant =>
      simp [InRange, accesses, Panics, Within, Accesses.safe_empty]

/-- In every run of a daemon, a step takes its slices in range, overflows no
address and does not panic if and only if what it writes ends within the block
that is stored. -/
theorem data_requests_inRange (checked : config.validate = .ok ())
    {events : List DaemonEvent}
    (served : ∀ event ∈ events, event.Served config) :
    Along (step config blake3 self)
        (fun daemon event => daemon.InRange config blake3 event) empty
        events ↔
      Along (step config blake3 self) Within empty events := by
  have valid := Config.validate_ok.mp checked
  exact Along.congr_given (Ranged config blake3)
    (fun _ _ _ ranged served stepped => step_ranged ranged served stepped)
    (fun _ _ ranged served => inRange_iff valid ranged served)
    empty_ranged served

theorem abcHandle_served :
    (RamEvent.allocateLocal abcHandle true true).Served {} := by
  change abcHandle.size < 2 ^ 64
  decide

/-- A block is written by a request that names its size. -/
theorem data_requests_inRange_abc :
    Along (step {} abcHash ⟨2, 20⟩)
      (fun daemon event => daemon.InRange {} abcHash event) empty
      [.request (.allocateLocal abcHandle true true),
        .request (.writeLocal 0 abcHandle 9 0 [97, 98, 99])] := by
  refine (@data_requests_inRange {} abcHash ⟨2, 20⟩ rfl _ ?_).mpr ?_
  · intro event member
    rcases List.mem_cons.mp member with rfl | member
    · exact abcHandle_served
    · obtain rfl := List.mem_singleton.mp member
      exact ⟨abcHandle, ⟨9, 0, 3, 3, ""⟩, rfl, by decide, rfl, rfl, rfl, rfl,
        rfl⟩
  · refine ⟨trivial, ?_⟩
    intro middle stepped
    cases stepped
    refine ⟨?_, fun _ _ => trivial⟩
    intro block free _
    cases free
    decide

/-- A chunk of four bytes is written to a block of three, by a request that
says the block had four. -/
def tooLong : RamEvent :=
  .writeLocal 0 abcHandle 9 0 [97, 98, 99, 100]

theorem tooLong_served : tooLong.Served {} :=
  ⟨{ abcHandle with size := 4 }, ⟨9, 0, 4, 4, ""⟩, rfl, by decide, rfl, rfl,
    rfl, rfl, rfl⟩

/-- The write of a relayed request that says its block is larger than it is
panics. -/
theorem tooLong_panics :
    ¬∀ (config : Config) (blake3 : List UInt8 → Digest) (self : Identity)
      (events : List DaemonEvent), config.validate = .ok () →
      (∀ event ∈ events, event.Served config) →
      Along (step config blake3 self)
        (fun daemon event => daemon.InRange config blake3 event) empty
        events := by
  intro always
  have along := always {} abcHash ⟨2, 20⟩
    [.request (.allocateLocal abcHandle true true), .request tooLong] rfl (by
      intro event member
      rcases List.mem_cons.mp member with rfl | member
      · exact abcHandle_served
      · obtain rfl := List.mem_singleton.mp member
        exact tooLong_served)
  have last := (along.2 _ rfl).1
  exact last.2 ⟨_, rfl, rfl⟩

end Daemon

end TrainPool
