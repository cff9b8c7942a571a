import Mathlib.Data.Set.Basic
import TrainPool.Transport.Sender

namespace TrainPool

open Slice

/-! What the bitmap of an acknowledgement says: the encoder sets bits, the
decoder reads them back. -/

section Bits

private theorem getLsbD_of_and : ∀ (index : Fin 8) (byte : BitVec 8),
    (byte &&& (1#8 <<< index.val)) ≠ 0#8 ↔
      byte.getLsbD index.val = true := by
  decide +kernel

private theorem toBitVec_mask {index : Nat} (small : index < 8) :
    (1 <<< UInt8.ofNat index : UInt8).toBitVec = 1#8 <<< index := by
  have all : ∀ index : Fin 8,
      (1 <<< UInt8.ofNat index.val : UInt8).toBitVec =
        1#8 <<< index.val := by
    decide
  exact all ⟨index, small⟩

theorem and_mask_ne_zero (byte : UInt8) {index : Nat} (small : index < 8) :
    (byte &&& (1 <<< UInt8.ofNat index)) ≠ 0 ↔
      byte.toBitVec.getLsbD index = true := by
  rw [ne_eq, UInt8.eq_iff_toBitVec_eq, UInt8.toBitVec_and,
    toBitVec_mask small]
  exact getLsbD_of_and ⟨index, small⟩ byte.toBitVec

theorem getLsbD_or_mask (byte : UInt8) {index other : Nat}
    (small : index < 8) (_inside : other < 8) :
    (byte ||| (1 <<< UInt8.ofNat index)).toBitVec.getLsbD other =
      (byte.toBitVec.getLsbD other || decide (index = other)) := by
  rw [UInt8.toBitVec_or, toBitVec_mask small, BitVec.getLsbD_or]
  congr 1
  simp only [BitVec.getLsbD_shiftLeft, BitVec.getLsbD_one]
  rw [Bool.eq_iff_iff]
  simp
  omega

def bitAt (payload : List UInt8) (index : Nat) : Bool :=
  (payload.getD (4 + index / 8) 0).toBitVec.getLsbD (index % 8)

theorem bitAt_setBit {payload : List UInt8} (sized : payload.length = 38)
    {index other : Nat} (small : index < ackBits) :
    bitAt (setBit payload index) other =
      (bitAt payload other || decide (index = other)) := by
  have place : 4 + index / 8 < payload.length := by
    simp only [ackBits] at small
    omega
  unfold bitAt setBit
  by_cases same : index / 8 = other / 8
  · rw [← same, List.getD_eq_getElem?_getD, List.getElem?_modify_eq,
      List.getD_eq_getElem?_getD, List.getElem?_eq_getElem place]
    simp only [Option.map_eq_map, Option.map_some, Option.getD_some]
    rw [getLsbD_or_mask _ (Nat.mod_lt _ (by decide))
      (Nat.mod_lt _ (by decide))]
    congr 2
    rw [eq_iff_iff]
    omega
  · rw [List.getD_eq_getElem?_getD, List.getElem?_modify_ne _ _ (by omega),
      List.getD_eq_getElem?_getD]
    have differ : index ≠ other := by
      intro equal
      exact same (congrArg (· / 8) equal)
    simp [differ]

theorem length_setBit (payload : List UInt8) (index : Nat) :
    (setBit payload index).length = payload.length := by
  simp [setBit]

theorem take_setBit (payload : List UInt8) (index : Nat) :
    (setBit payload index).take 4 = payload.take 4 := by
  apply List.ext_getElem?
  intro place
  simp only [List.getElem?_take]
  split
  · exact List.getElem?_modify_ne _ _ (by omega)
  · rfl

theorem slice_setBit (payload : List UInt8) {index : Nat}
    (small : index < ackBits) :
    slice (setBit payload index) 36 38 = slice payload 36 38 := by
  apply List.ext_getElem?
  intro place
  simp only [ackBits] at small
  simp only [getElem?_slice]
  split
  · exact List.getElem?_modify_ne _ _ (by omega)
  · rfl

end Bits

section Encoding

private structure BitsSet (start payload : List UInt8)
    (entries : List (Bool × Nat)) : Prop where
  sized : payload.length = 38
  base : payload.take 4 = start.take 4
  window : slice payload 36 38 = slice start 36 38
  bits : ∀ other, bitAt payload other =
    (bitAt start other || entries.any fun entry => entry.1 && entry.2 == other)

private theorem foldl_encodes {start : List UInt8} (entries : List (Bool × Nat))
    (small : ∀ entry ∈ entries, entry.2 < ackBits)
    (sized : start.length = 38) :
    BitsSet start (entries.foldl
      (fun payload entry => if entry.1 then setBit payload entry.2
        else payload) start) entries := by
  induction entries generalizing start with
  | nil => exact ⟨sized, rfl, rfl, fun other => by simp⟩
  | cons entry rest ih =>
      have later : ∀ entry ∈ rest, entry.2 < ackBits :=
        fun entry member => small entry (List.mem_cons_of_mem _ member)
      have inside : entry.2 < ackBits := small entry List.mem_cons_self
      rw [List.foldl_cons]
      cases set : entry.1 with
      | false =>
          obtain ⟨sized, base, window, bits⟩ := ih later sized
          refine ⟨sized, base, window, ?_⟩
          intro other
          simpa [set] using bits other
      | true =>
          have grown := @ih (setBit start entry.2) later
            ((length_setBit _ _).trans sized)
          refine ⟨grown.sized, grown.base.trans (take_setBit _ _),
            grown.window.trans (slice_setBit _ inside), ?_⟩
          intro other
          simp only [if_true]
          rw [grown.bits, bitAt_setBit sized inside]
          simp only [List.any_cons, set, Bool.true_and, Bool.or_assoc]
          congr 2

private theorem bitAt_empty (base window other : Nat) (small : other < ackBits) :
    bitAt (Bytes.toBigEndian 4 base ++ List.replicate (ackBits / 8) 0 ++
      Bytes.toBigEndian 2 window) other = false := by
  simp only [ackBits] at small
  unfold bitAt
  rw [List.getD_eq_getElem?_getD, List.getElem?_append_left (by
      simp [ackBits]
      omega),
    List.getElem?_append_right (by simp),
    List.getElem?_replicate, Bytes.length_toBigEndian, if_pos (by
      simp only [ackBits]
      omega)]
  simp

theorem parseBitmap_bitmapPayload {base : Nat} (bits : List Bool)
    (window : Nat) (fits : base < 2 ^ 32) :
    ∃ bitmap, parseBitmap (bitmapPayload base bits window) =
        .ok (base, bitmap, min window 65535) ∧
      ∀ index, bitmapContains bitmap index = true ↔
        index < ackBits ∧ bits[index]? = some true := by
  let start := Bytes.toBigEndian 4 base ++ List.replicate (ackBits / 8) 0 ++
    Bytes.toBigEndian 2 (min window 65535)
  have sized : start.length = 38 := by
    simp [start, ackBits]
  have small : ∀ entry ∈ (bits.take ackBits).zipIdx, entry.2 < ackBits := by
    intro entry member
    have bounded := (List.mem_zipIdx member).2.1
    simp only [List.length_take] at bounded
    omega
  obtain ⟨length, head, tail, set⟩ :=
    @foldl_encodes start _ small sized
  refine ⟨slice (bitmapPayload base bits window) 4 36, ?_, ?_⟩
  · have first : (bitmapPayload base bits window).take 4 =
        Bytes.toBigEndian 4 base := by
      refine head.trans ?_
      simp [start]
    have last : slice (bitmapPayload base bits window) 36 38 =
        Bytes.toBigEndian 2 (min window 65535) := by
      refine tail.trans ?_
      rw [slice, List.take_of_length_le sized.le]
      exact List.drop_left' (by simp [ackBits])
    have sizedPayload : (bitmapPayload base bits window).length = 38 := length
    unfold parseBitmap
    rw [ensure, if_pos sizedPayload]
    simp only [bind, Except.bind, pure, Except.pure]
    rw [first, last, Bytes.fromBigEndian_toBigEndian (by simpa using fits),
      Bytes.fromBigEndian_toBigEndian (by omega)]
  · intro index
    unfold bitmapContains
    rw [Bool.and_eq_true, decide_eq_true_eq, decide_eq_true_eq,
      and_mask_ne_zero _ (Nat.mod_lt _ (by decide))]
    refine and_congr_right ?_
    intro inside
    have inside' : index < 256 := inside
    have read : (slice (bitmapPayload base bits window) 4 36).getD
        (index / 8) 0 =
          (bitmapPayload base bits window).getD (4 + index / 8) 0 := by
      rw [List.getD_eq_getElem?_getD, getElem?_slice, if_pos (by omega),
        List.getD_eq_getElem?_getD]
    rw [read]
    change bitAt (bitmapPayload base bits window) index = true ↔ _
    have here := set index
    rw [bitAt_empty _ _ _ inside, Bool.false_or] at here
    refine (Bool.eq_iff_iff.mp here).trans ?_
    simp only [List.any_eq_true, Bool.and_eq_true, beq_iff_eq]
    constructor
    · intro given
      obtain ⟨⟨value, place⟩, member, rfl, rfl⟩ := given
      have found := List.mem_zipIdx_iff_getElem?.mp member
      simpa [List.getElem?_take, inside] using found
    · intro found
      refine ⟨(true, index), ?_, rfl, rfl⟩
      rw [List.mem_zipIdx_iff_getElem?]
      simpa [List.getElem?_take, inside] using found

theorem parseBitmap_isOk {payload : List UInt8} :
    (∃ read, parseBitmap payload = .ok read) ↔ payload.length = 38 := by
  unfold parseBitmap
  constructor
  · intro given
    obtain ⟨read, parsed⟩ := given
    exact (ensure_bind_ok.mp parsed).1
  · intro sized
    exact ⟨_, ensure_bind_ok.mpr ⟨sized, rfl⟩⟩

/-- What an ACK or NACK says is what was written into it: the base, the window
up to the largest that fits, and the first 256 bits. -/
theorem bitmap_roundtrip :
    (∀ (base : UInt32) (bits : List Bool) (window : Nat), ∃ bitmap,
      parseBitmap (bitmapPayload base.toNat bits window) =
          .ok (base.toNat, bitmap, min window 65535) ∧
        bitmap.length = ackBits / 8 ∧
        ∀ index, bitmapContains bitmap index = true ↔
          index < ackBits ∧
            ∃ inside : index < bits.length, bits[index] = true) ∧
      ∀ payload, (∃ read, parseBitmap payload = .ok read) ↔
        payload.length = 38 := by
  refine ⟨?_, fun _ => parseBitmap_isOk⟩
  intro base bits window
  obtain ⟨bitmap, parsed, contains⟩ :=
    parseBitmap_bitmapPayload bits window base.toNat_lt
  have sized := parseBitmap_isOk.mp ⟨_, parsed⟩
  refine ⟨bitmap, parsed, ?_, ?_⟩
  · rw [parseBitmap, ensure_bind_ok, pure_ok] at parsed
    have cut := congrArg (fun read => read.2.1) parsed.2
    simp only at cut
    rw [← cut, length_slice _ _ _ (by omega)]
    rfl
  · intro index
    rw [contains, List.getElem?_eq_some_iff]

/-- Two packets beyond a gap, and a window that does not fit. -/
example : parseBitmap (bitmapPayload 7 [true, false, true] 70000) =
    .ok (7, 5 :: List.replicate 31 0, 65535) := by
  decide

end Encoding

section Reports

def Packet.report (packet : Packet) : Set ℕ :=
  { sequence | ∃ base bitmap window,
      parseBitmap packet.payload = .ok (base, bitmap, window) ∧
        base ≤ sequence ∧ bitmapContains bitmap (sequence - base) = true }

structure Packet.Acks (packet : Packet) (transferId : Uuid)
    (offered : Nat) : Prop where
  kind : packet.kind = .ack
  transfer : packet.transferId = transferId
  parses : ∃ base bitmap,
    parseBitmap packet.payload = .ok (base, bitmap, offered)

def Window.acked (window : Window) : Set ℕ :=
  { sequence | window.acknowledged.getD sequence false = true }

structure Window.Learns (window : Window) (report : Set ℕ) (offered : Nat)
    (next : Window) : Prop where
  acked : next.acked = window.acked ∪ report
  slots : next.acknowledged.length = window.acknowledged.length
  range : next.base = window.base ∧ next.finish = window.finish ∧
    next.round = window.round
  negotiated : next.negotiated = min window.negotiated (max offered 2)

private theorem foldl_set_getD (known : Nat → Bool) (base : Nat)
    (indices : List Nat) (bits : List Bool) (sequence : Nat)
    (inside : sequence < bits.length) :
    (indices.foldl (fun bits index =>
        if known index then bits.set (base + index) true else bits)
      bits).getD sequence false = true ↔
      bits.getD sequence false = true ∨
        ∃ index ∈ indices, known index = true ∧ base + index = sequence := by
  induction indices generalizing bits with
  | nil => simp
  | cons index rest ih =>
      rw [List.foldl_cons]
      cases set : known index with
      | false =>
          rw [if_neg (by simp), ih bits inside]
          simp [set]
      | true =>
          rw [if_pos rfl, ih _ (by simpa using inside)]
          by_cases same : base + index = sequence
          · subst same
            simp [List.getD_eq_getElem?_getD, inside, set]
          · simp [List.getD_eq_getElem?_getD, List.getElem?_set_ne same, set,
              same]

private theorem foldl_set_length (known : Nat → Bool) (base : Nat)
    (indices : List Nat) (bits : List Bool) :
    (indices.foldl (fun bits index =>
        if known index then bits.set (base + index) true else bits)
      bits).length = bits.length := by
  induction indices generalizing bits with
  | nil => rfl
  | cons index rest ih =>
      rw [List.foldl_cons, ih]
      split <;> simp

theorem getD_of_length_le {bits : List Bool} {sequence : Nat}
    (outside : bits.length ≤ sequence) :
    bits.getD sequence false = false := by
  rw [List.getD_eq_getElem?_getD, List.getElem?_eq_none outside]
  rfl

namespace Window

theorem length_acknowledge (known : Nat → Bool) (base : Nat)
    (window : Window) :
    (window.acknowledge known base).acknowledged.length =
      window.acknowledged.length := by
  simp only [acknowledge, foldl_set_length]

theorem mem_acked_acknowledge {known : Nat → Bool} {base sequence : Nat}
    {window : Window} (inside : sequence < window.acknowledged.length) :
    sequence ∈ (window.acknowledge known base).acked ↔
      sequence ∈ window.acked ∨
        ∃ index ∈ List.range ackBits, known index = true ∧
          base + index = sequence := by
  simp only [acked, acknowledge, Set.mem_ofPred_eq]
  exact foldl_set_getD known base _ window.acknowledged sequence inside

theorem not_mem_acked {window : Window} {sequence : Nat}
    (outside : window.acknowledged.length ≤ sequence) :
    sequence ∉ window.acked := by
  unfold acked
  simp only [Set.mem_ofPred_eq]
  rw [getD_of_length_le outside]
  simp

theorem acknowledge_learns {packet : Packet} {base offered packetCount : Nat}
    {bitmap : List UInt8} (window : Window)
    (parses : parseBitmap packet.payload = .ok (base, bitmap, offered))
    (slots : window.acknowledged.length = packetCount)
    (inside : ∀ sequence ∈ packet.report, sequence < packetCount) :
    window.Learns packet.report offered
      ((window.negotiate offered).acknowledge
        (fun index => base + index < packetCount &&
          bitmapContains bitmap index) base) := by
  refine ⟨?_, length_acknowledge _ _ _, ⟨rfl, rfl, rfl⟩, rfl⟩
  ext sequence
  rw [Set.mem_union]
  have reported : sequence ∈ packet.report ↔
      base ≤ sequence ∧ bitmapContains bitmap (sequence - base) = true := by
    constructor
    · intro given
      obtain ⟨otherBase, otherBitmap, window, read, found⟩ := given
      rw [parses] at read
      cases read
      exact found
    · intro found
      exact ⟨base, bitmap, offered, parses, found⟩
  by_cases within : sequence < window.acknowledged.length
  · rw [mem_acked_acknowledge (show sequence <
      (window.negotiate offered).acknowledged.length from within), reported]
    refine or_congr_right ?_
    constructor
    · intro given
      obtain ⟨index, _, known, rfl⟩ := given
      simp only [Bool.and_eq_true] at known
      exact ⟨by omega, by simpa using known.2⟩
    · intro given
      obtain ⟨after, contained⟩ := given
      have small : sequence - base < ackBits := by
        unfold bitmapContains at contained
        simp only [Bool.and_eq_true, decide_eq_true_eq] at contained
        exact contained.1
      refine ⟨sequence - base, List.mem_range.mpr small, ?_, by omega⟩
      simp only [Bool.and_eq_true, decide_eq_true_eq]
      exact ⟨by omega, contained⟩
  · have outside : window.acknowledged.length ≤ sequence := by omega
    refine iff_of_false ?_ ?_
    · apply not_mem_acked
      rw [length_acknowledge]
      exact outside
    · intro member
      rcases member with known | member
      · exact not_mem_acked outside known
      · have := inside sequence member
        omega

theorem readAcks_cons {packet : Packet} {transferId : Uuid}
    {offered packetCount : Nat} {window : Window}
    (acks : packet.Acks transferId offered)
    (slots : window.acknowledged.length = packetCount)
    (inside : ∀ sequence ∈ packet.report, sequence < packetCount) :
    ∃ next, window.Learns packet.report offered next ∧ ∀ rest,
      window.readAcks packetCount transferId (.ok packet :: rest) =
        next.readAcks packetCount transferId rest := by
  obtain ⟨base, bitmap, parses⟩ := acks.parses
  refine ⟨_, acknowledge_learns window parses slots inside, ?_⟩
  intro rest
  rw [readAcks, if_neg (not_not.mpr acks.transfer)]
  simp only [acks.kind, parses]

theorem readAcks_acks {packets : List Packet} {transferId : Uuid}
    {offered packetCount : Nat} {window : Window}
    (acks : ∀ packet ∈ packets, packet.Acks transferId offered)
    (slots : window.acknowledged.length = packetCount)
    (inside : ∀ packet ∈ packets, ∀ sequence ∈ packet.report,
      sequence < packetCount) :
    ∃ next, window.readAcks packetCount transferId (packets.map .ok) =
        .ok next ∧
      next.acked = window.acked ∪
        { sequence | ∃ packet ∈ packets, sequence ∈ packet.report } ∧
      next.acknowledged.length = packetCount ∧
      (next.base = window.base ∧ next.finish = window.finish ∧
        next.round = window.round) ∧
      min window.negotiated (max offered 2) ≤ next.negotiated ∧
      next.negotiated ≤ window.negotiated := by
  induction packets generalizing window with
  | nil =>
      exact ⟨window, rfl, by simp, slots, ⟨rfl, rfl, rfl⟩,
        Nat.min_le_left _ _, Nat.le_refl _⟩
  | cons packet rest ih =>
      obtain ⟨middle, learns, read⟩ := readAcks_cons
        (acks packet List.mem_cons_self) slots
        (inside packet List.mem_cons_self)
      obtain ⟨next, ran, acked, length, range, atLeast, atMost⟩ := ih
        (fun other member => acks other (List.mem_cons_of_mem _ member))
        (learns.slots.trans slots)
        (fun other member => inside other (List.mem_cons_of_mem _ member))
      obtain ⟨base, finish, round⟩ := learns.range
      refine ⟨next, (read _).trans ran, ?_, length, ⟨range.1.trans base,
        range.2.1.trans finish, range.2.2.trans round⟩, ?_, ?_⟩
      · rw [acked, learns.acked, Set.union_assoc]
        congr 1
        ext sequence
        simp
      · rw [learns.negotiated] at atLeast
        omega
      · rw [learns.negotiated] at atMost
        omega

theorem pending_iff {window : Window}
    (slots : window.finish ≤ window.acknowledged.length) :
    window.pending = true ↔ ∃ sequence, window.base ≤ sequence ∧
      sequence < window.finish ∧ sequence ∉ window.acked := by
  unfold pending
  simp only [List.any_eq_true, Bool.not_eq_true', acked, Set.mem_ofPred_eq]
  constructor
  · intro given
    obtain ⟨bit, member, clear⟩ := given
    obtain ⟨index, found⟩ := List.mem_iff_getElem?.mp member
    rw [Slice.getElem?_slice] at found
    split at found
    · refine ⟨window.base + index, by omega, by assumption, ?_⟩
      simp [List.getD_eq_getElem?_getD, found, clear]
    · cases found
  · intro given
    obtain ⟨sequence, after, before, clear⟩ := given
    refine ⟨false, ?_, rfl⟩
    refine List.mem_iff_getElem?.mpr ⟨sequence - window.base, ?_⟩
    have inside : sequence < window.acknowledged.length := by omega
    rw [Slice.getElem?_slice, if_pos (by omega),
      Nat.add_sub_of_le after, List.getElem?_eq_getElem inside]
    simpa [List.getD_eq_getElem?_getD, inside] using clear

theorem mem_unacknowledged {window : Window} {sequence : Nat} :
    sequence ∈ window.unacknowledged ↔ window.base ≤ sequence ∧
      sequence < window.finish ∧ sequence ∉ window.acked := by
  unfold unacknowledged
  rw [List.mem_filter]
  have member : sequence ∈ (List.range window.finish).drop window.base ↔
      window.base ≤ sequence ∧ sequence < window.finish := by
    rw [List.range_eq_range', List.drop_range']
    simp only [List.mem_range'_1]
    omega
  rw [member, and_assoc]
  simp [acked]

end Window

end Reports

end TrainPool
