import Mathlib.Data.List.Basic
import Mathlib.Tactic.Ring

namespace Slice

variable {α : Type*}

/-! Copying a slice into a buffer, and cutting a buffer into pieces of one
size. -/

/-- The elements at positions `start ≤ i < finish`. -/
def slice (items : List α) (start finish : Nat) : List α :=
  (items.take finish).drop start

/-- Replace the elements from `start` on by `piece`. -/
def overwrite (items : List α) (start : Nat) (piece : List α) : List α :=
  items.take start ++ piece ++ items.drop (start + piece.length)

theorem length_slice (items : List α) (start finish : Nat)
    (bounded : finish ≤ items.length) :
    (slice items start finish).length = finish - start := by
  simp [slice, Nat.min_eq_left bounded]

theorem getElem?_slice (items : List α) (start finish index : Nat) :
    (slice items start finish)[index]? =
      if start + index < finish then items[start + index]? else none := by
  simp [slice, List.getElem?_drop, List.getElem?_take]

theorem slice_append_left {front back : List α} {start finish : Nat}
    (inside : finish ≤ front.length) :
    slice (front ++ back) start finish = slice front start finish := by
  rw [slice, List.take_append_of_le_length inside, slice]

theorem slice_append_right {front back : List α} {start finish : Nat}
    (beyond : front.length ≤ start) :
    slice (front ++ back) start finish =
      slice back (start - front.length) (finish - front.length) := by
  have gone : (front.take finish).drop start = [] := by
    apply List.drop_of_length_le
    rw [List.length_take]
    omega
  rw [slice, List.take_append, List.drop_append, gone, List.nil_append, slice,
    List.length_take]
  by_cases ordered : front.length ≤ finish
  · rw [Nat.min_eq_right ordered]
  · have short : finish - front.length = 0 := by omega
    simp [short]

theorem slice_all {items : List α} {finish : Nat}
    (whole : items.length = finish) : slice items 0 finish = items := by
  simp [slice, ← whole]

theorem slice_join {items : List α} {start middle finish : Nat}
    (front : start ≤ middle) (back : middle ≤ finish) :
    slice items start middle ++ slice items middle finish =
      slice items start finish := by
  have shorter : items.take middle = (items.take finish).take middle := by
    rw [List.take_take, Nat.min_eq_left back]
  have moved : (items.take finish).drop middle =
      ((items.take finish).drop start).drop (middle - start) := by
    rw [List.drop_drop, Nat.add_sub_cancel' front]
  rw [slice, slice, slice, shorter, moved, List.drop_take,
    List.take_append_drop]

theorem length_overwrite {items piece : List α} {start : Nat}
    (bounded : start + piece.length ≤ items.length) :
    (overwrite items start piece).length = items.length := by
  simp only [overwrite, List.length_append, List.length_take,
    List.length_drop]
  omega

theorem getElem?_overwrite {items piece : List α} {start : Nat}
    (bounded : start + piece.length ≤ items.length) (index : Nat) :
    (overwrite items start piece)[index]? =
      if start ≤ index ∧ index < start + piece.length then
        piece[index - start]?
      else items[index]? := by
  have kept : (items.take start).length = start := by
    rw [List.length_take]
    omega
  unfold overwrite
  by_cases before : index < start
  · rw [if_neg (by omega), List.append_assoc,
      List.getElem?_append_left (by omega),
      List.getElem?_take_of_lt before]
  · by_cases inside : index < start + piece.length
    · rw [if_pos ⟨by omega, inside⟩,
        List.getElem?_append_left (by
          rw [List.length_append]
          omega),
        List.getElem?_append_right (by omega), kept]
    · rw [if_neg (by omega),
        List.getElem?_append_right (by
          rw [List.length_append]
          omega),
        List.getElem?_drop, List.length_append, kept]
      congr 1
      omega

theorem take_overwrite {items piece : List α} {start : Nat}
    (bounded : start ≤ items.length) :
    (overwrite items start piece).take start = items.take start := by
  unfold overwrite
  rw [List.append_assoc, List.take_append_of_le_length (by
    rw [List.length_take]
    omega), List.take_take, Nat.min_self]

theorem take_overwrite_of_le {items piece : List α} {start limit : Nat}
    (bounded : start ≤ items.length) (within : limit ≤ start) :
    (overwrite items start piece).take limit = items.take limit := by
  have shared : ((overwrite items start piece).take start).take limit =
      (items.take start).take limit :=
    congrArg (List.take limit) (take_overwrite bounded)
  simpa [List.take_take, Nat.min_eq_left within] using shared

/-- Up to its end, an overwritten buffer is the old prefix followed by the
piece. -/
theorem take_overwrite_end {items piece : List α} {start : Nat}
    (bounded : start ≤ items.length) :
    (overwrite items start piece).take (start + piece.length) =
      items.take start ++ piece := by
  unfold overwrite
  rw [List.take_append_of_le_length (by
    rw [List.length_append, List.length_take]
    omega)]
  apply List.take_of_length_le
  rw [List.length_append, List.length_take]
  omega

@[simp] theorem overwrite_nil (items : List α) (start : Nat) :
    overwrite items start [] = items := by
  simp [overwrite]

theorem overwrite_all {items piece : List α}
    (whole : piece.length = items.length) : overwrite items 0 piece = piece := by
  simp [overwrite, whole]

theorem overwrite_overwrite {items first second : List α} {start : Nat}
    (bounded : start + first.length ≤ items.length) :
    overwrite (overwrite items start first) (start + first.length) second =
      overwrite items start (first ++ second) := by
  have front : (overwrite items start first).take (start + first.length) =
      items.take start ++ first :=
    take_overwrite_end (by omega)
  have back : (overwrite items start first).drop
      (start + first.length + second.length) =
        items.drop (start + (first.length + second.length)) := by
    unfold overwrite
    rw [List.drop_append, List.drop_of_length_le (by
      simp only [List.length_append, List.length_take]
      omega), List.nil_append, List.drop_drop]
    congr 1
    simp only [List.length_append, List.length_take]
    omega
  rw [overwrite, front, back, overwrite, List.length_append]
  simp only [List.append_assoc]

theorem slice_overwrite {items piece : List α} {start : Nat}
    (bounded : start ≤ items.length) :
    slice (overwrite items start piece) start (start + piece.length) =
      piece := by
  rw [slice, take_overwrite_end bounded, List.drop_append_of_le_length (by
    rw [List.length_take]
    omega)]
  simp

def divCeil (length size : Nat) : Nat := (length + size - 1) / size

theorem div_mul_bounds {size : Nat} (positive : 0 < size) (index : Nat) :
    index / size * size ≤ index ∧ index < index / size * size + size := by
  have split := Nat.div_add_mod index size
  have small := Nat.mod_lt index positive
  rw [Nat.mul_comm] at split
  omega

theorem div_lt_divCeil {size length index : Nat} (positive : 0 < size)
    (bounded : index < length) : index / size < divCeil length size := by
  have moved : index / size + 1 = (index + size) / size :=
    (Nat.add_div_right index positive).symm
  have ordered : (index + size) / size ≤ divCeil length size :=
    Nat.div_le_div_right (by omega)
  omega

theorem mul_lt_of_lt_divCeil {size length piece : Nat} (positive : 0 < size)
    (bounded : piece < divCeil length size) : piece * size < length := by
  have reached : (piece + 1) * size ≤ length + size - 1 :=
    (Nat.le_div_iff_mul_le positive).mp bounded
  rw [Nat.add_mul] at reached
  omega

theorem divCeil_le {size : Nat} (positive : 0 < size) (length : Nat) :
    divCeil length size ≤ length := by
  unfold divCeil
  cases length with
  | zero =>
      rw [Nat.zero_add, Nat.div_eq_of_lt (by omega)]
  | succ rest =>
      apply Nat.div_le_of_le_mul
      have more : rest ≤ size * rest := Nat.le_mul_of_pos_left rest positive
      rw [Nat.mul_succ]
      omega

theorem divCeil_pos {size length : Nat} (positive : 0 < size)
    (nonempty : 0 < length) : 0 < divCeil length size :=
  Nat.lt_of_le_of_lt (Nat.zero_le _) (div_lt_divCeil positive nonempty)

def pieceAt (size : Nat) (items : List α) (index : Nat) : List α :=
  slice items (index * size) (min (index * size + size) items.length)

theorem length_pieceAt (size : Nat) (items : List α) (index : Nat) :
    (pieceAt size items index).length =
      min (index * size + size) items.length - index * size :=
  length_slice _ _ _ (Nat.min_le_right _ _)

theorem getElem?_pieceAt {size index place : Nat} {items : List α}
    (after : index * size ≤ place) :
    (pieceAt size items index)[place - index * size]? =
      if place < index * size + size then items[place]? else none := by
  unfold pieceAt
  rw [getElem?_slice, Nat.add_sub_of_le after]
  by_cases inside : place < index * size + size
  · rw [if_pos inside]
    by_cases short : place < items.length
    · rw [if_pos (by omega)]
    · rw [if_neg (by omega), List.getElem?_eq_none (by omega)]
  · rw [if_neg (by omega), if_neg inside]

def pieces (size : Nat) (items : List α) : List (List α) :=
  (List.range (divCeil items.length size)).map fun index =>
    slice items (index * size)
      (min (index * size + size) items.length)

theorem flatten_first_pieces (size : Nat) (items : List α) (count : Nat) :
    ((List.range count).map fun index =>
        slice items (index * size)
          (min (index * size + size) items.length)).flatten =
      items.take (count * size) := by
  induction count with
  | zero => simp
  | succ count ih =>
      rw [List.range_succ, List.map_append, List.flatten_append, ih]
      simp only [List.map_cons, List.map_nil, List.flatten_cons,
        List.flatten_nil, List.append_nil, slice]
      have capped : items.take (min (count * size + size) items.length) =
          items.take (count * size + size) := by
        rw [← List.take_take, List.take_length]
      have shorter : items.take (count * size) =
          (items.take (count * size + size)).take (count * size) := by
        rw [List.take_take, Nat.min_eq_left (Nat.le_add_right _ _)]
      rw [capped, shorter, List.take_append_drop, Nat.succ_mul]

theorem flatten_pieces {size : Nat} (positive : 0 < size)
    (items : List α) : (pieces size items).flatten = items := by
  rw [pieces, flatten_first_pieces]
  apply List.take_of_length_le
  have bounds := div_mul_bounds positive (items.length + size - 1)
  unfold divCeil
  omega

/-- Blocks of one size, but for the last, which may be shorter. -/
inductive Uniform (size : Nat) : List (List α) → Prop
  | nil : Uniform size []
  | last {block : List α} (nonempty : 0 < block.length)
      (short : block.length ≤ size) : Uniform size [block]
  | cons {block : List α} {blocks : List (List α)}
      (full : block.length = size) (rest : Uniform size blocks) :
      Uniform size (block :: blocks)

theorem divCeil_zero {size : Nat} (positive : 0 < size) :
    divCeil 0 size = 0 := by
  rw [divCeil, Nat.zero_add]
  exact Nat.div_eq_of_lt (by omega)

theorem divCeil_add {size : Nat} (positive : 0 < size) (length : Nat) :
    divCeil (size + length) size = divCeil length size + 1 := by
  have moved : size + length + size - 1 = length + size - 1 + size := by omega
  rw [divCeil, divCeil, moved, Nat.add_div_right _ positive]

theorem divCeil_of_le {size length : Nat} (nonempty : 0 < length)
    (short : length ≤ size) : divCeil length size = 1 := by
  rw [divCeil]
  exact Nat.div_eq_of_lt_le (by omega) (by omega)

theorem pieces_append {size : Nat} (positive : 0 < size) {block : List α}
    (full : block.length = size) (items : List α) :
    pieces size (block ++ items) = block :: pieces size items := by
  unfold pieces
  rw [List.length_append, full, divCeil_add positive, List.range_succ_eq_map,
    List.map_cons, List.map_map]
  congr 1
  · have whole : min (0 * size + size) (size + items.length) = size := by
      omega
    rw [whole, Nat.zero_mul, slice_append_left (Nat.le_of_eq full.symm)]
    exact slice_all full
  · apply List.map_congr_left
    intro index _
    simp only [Function.comp_apply, Nat.succ_mul]
    rw [slice_append_right (by omega), full]
    congr 1
    · omega
    · omega

theorem Uniform.of_ordered {size count : Nat} {block : Nat → List α}
    (nonempty : ∀ index < count, 0 < (block index).length)
    (short : ∀ index < count, (block index).length ≤ size)
    (full : ∀ index, index + 1 < count → (block index).length = size)
    {indices : List Nat} (ordered : indices.Pairwise (· < ·))
    (below : ∀ index ∈ indices, index < count) :
    Uniform size (indices.map block) := by
  induction indices with
  | nil => exact .nil
  | cons index rest ih =>
      obtain ⟨first, later⟩ := List.pairwise_cons.mp ordered
      have here := below index List.mem_cons_self
      cases rest with
      | nil => exact .last (nonempty index here) (short index here)
      | cons next others =>
          refine .cons (full index ?_) (ih later fun other member =>
            below other (List.mem_cons_of_mem _ member))
          have before := first next List.mem_cons_self
          have inside := below next (by simp)
          omega

theorem pieces_flatten {size : Nat} (positive : 0 < size)
    {blocks : List (List α)} (uniform : Uniform size blocks) :
    pieces size blocks.flatten = blocks := by
  induction uniform with
  | nil => simp [pieces, divCeil_zero positive]
  | last nonempty short =>
      simp [pieces, divCeil_of_le nonempty short, slice, short]
  | cons full _ ih => rw [List.flatten_cons, pieces_append positive full, ih]

theorem Uniform.length_le {size : Nat} {blocks : List (List α)}
    (uniform : Uniform size blocks) :
    blocks.flatten.length ≤ size * blocks.length := by
  induction uniform with
  | nil => simp
  | last _ short => simpa using short
  | cons full _ ih =>
      rw [List.flatten_cons, List.length_append, List.length_cons,
        Nat.mul_succ]
      omega

theorem Uniform.lt_length {size : Nat} (positive : 0 < size)
    {blocks : List (List α)} (uniform : Uniform size blocks)
    (some_ : 0 < blocks.length) :
    size * (blocks.length - 1) < blocks.flatten.length := by
  induction uniform with
  | nil => cases some_
  | last nonempty _ => simpa using nonempty
  | @cons block blocks full _ ih =>
      rw [List.flatten_cons, List.length_append, List.length_cons,
        Nat.add_sub_cancel, full]
      cases blocks with
      | nil => simpa using positive
      | cons next rest =>
          have more := ih (Nat.succ_pos _)
          rw [List.length_cons, Nat.add_sub_cancel] at more
          rw [List.length_cons, Nat.mul_succ]
          omega

end Slice
