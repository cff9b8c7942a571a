import TrainPool.Library.Bytes
import Mathlib.Tactic.Common

namespace Frames

open Bytes

/-! Length-prefixed frames in a stream of bytes, of which the reader may have
only a first part. -/

def frame (body : List UInt8) : List UInt8 :=
  toBigEndian 4 body.length ++ body

inductive Front where
  | more
  | oversized
  | whole (body rest : List UInt8)
  deriving DecidableEq, Repr

def front (limit : Nat) (stream : List UInt8) : Front :=
  if stream.length < 4 then
    .more
  else if limit < fromBigEndian (stream.take 4) then
    .oversized
  else if stream.length < 4 + fromBigEndian (stream.take 4) then
    .more
  else
    .whole ((stream.drop 4).take (fromBigEndian (stream.take 4)))
      (stream.drop (4 + fromBigEndian (stream.take 4)))

section

variable {limit : Nat} {body rest stream tail : List UInt8}

theorem size_frame (small : body.length < 256 ^ 4) :
    fromBigEndian ((frame body ++ rest).take 4) = body.length := by
  unfold frame
  rw [List.append_assoc, List.take_left' (length_toBigEndian 4 _)]
  exact fromBigEndian_toBigEndian small

theorem front_frame (fits : body.length ≤ limit) (small : limit < 256 ^ 4) :
    front limit (frame body ++ rest) = .whole body rest := by
  have size : fromBigEndian ((frame body ++ rest).take 4) = body.length :=
    size_frame (lt_of_le_of_lt fits small)
  have length : (frame body ++ rest).length =
      4 + body.length + rest.length := by
    simp [frame, Nat.add_assoc]
  have body_ : (frame body ++ rest).drop 4 = body ++ rest := by
    unfold frame
    rw [List.append_assoc, List.drop_left' (length_toBigEndian 4 _)]
  unfold front
  rw [size, if_neg (by omega), if_neg (by omega), if_neg (by omega),
    ← List.drop_drop, body_, List.take_left' rfl, List.drop_left' rfl]

theorem front_whole (found : front limit stream = .whole body rest) :
    stream = frame body ++ rest ∧ body.length ≤ limit := by
  unfold front at found
  split at found
  · cases found
  rename_i header
  split at found
  · cases found
  rename_i sized
  split at found
  · cases found
  rename_i complete
  cases found
  have size : ((stream.drop 4).take
      (fromBigEndian (stream.take 4))).length =
        fromBigEndian (stream.take 4) := by
    rw [List.length_take, List.length_drop]
    omega
  have four : (stream.take 4).length = 4 := by
    rw [List.length_take]
    omega
  have head : toBigEndian 4 (fromBigEndian (stream.take 4)) =
      stream.take 4 := by
    have same := toBigEndian_fromBigEndian (stream.take 4)
    rwa [four] at same
  refine ⟨?_, by omega⟩
  unfold frame
  rw [size, head, ← List.drop_drop, List.append_assoc, List.take_append_drop,
    List.take_append_drop]

end

/-! A stream of which some bytes never come once its writer is gone. -/

def Carries (writer : Bool) (stream expected : List UInt8) : Prop :=
  stream <+: expected ∧ (writer = true → stream = expected)

section

variable {writer : Bool} {stream expected : List UInt8}

theorem carries_same (writer : Bool) (stream : List UInt8) :
    Carries writer stream stream := ⟨List.prefix_rfl, fun _ => rfl⟩

theorem Carries.nil (carries : Carries writer stream []) : stream = [] :=
  List.prefix_nil.mp carries.1

theorem Carries.weaken (carries : Carries writer stream expected) :
    Carries false stream expected := ⟨carries.1, nofun⟩

theorem Carries.append (carries : Carries true stream expected)
    (piece : List UInt8) :
    Carries true (stream ++ piece) (expected ++ piece) := by
  rw [carries.2 rfl]
  exact carries_same _ _

theorem Carries.cut (carries : Carries writer stream expected) (count : Nat) :
    Carries false (stream.take count) expected :=
  ⟨(List.take_prefix count stream).trans carries.1, nofun⟩

theorem Carries.split (carries : Carries writer stream expected) {count : Nat}
    (enough : count ≤ stream.length) :
    stream.take count = expected.take count ∧
      Carries writer (stream.drop count) (expected.drop count) := by
  obtain ⟨⟨lost, whole⟩, same⟩ := carries
  subst whole
  rw [List.take_append_of_le_length enough,
    List.drop_append_of_le_length enough]
  refine ⟨rfl, List.prefix_append _ _, fun present => ?_⟩
  have nothing : lost = [] := List.self_eq_append_right.mp (same present)
  rw [nothing, List.append_nil]

section

variable {limit : Nat} {sent tail body rest : List UInt8}

theorem Carries.front_fits
    (carries : Carries writer stream (frame sent ++ tail))
    (fits : sent.length ≤ limit) (small : limit < 256 ^ 4) :
    Frames.front limit stream ≠ .oversized := by
  obtain ⟨⟨lost, whole⟩, _⟩ := carries
  intro oversized
  unfold Frames.front at oversized
  split at oversized
  · cases oversized
  rename_i header
  have size : fromBigEndian (stream.take 4) = sent.length := by
    have sized : fromBigEndian ((frame sent ++ tail).take 4) = sent.length :=
      size_frame (lt_of_le_of_lt fits small)
    rwa [← whole, List.take_append_of_le_length (Nat.le_of_not_lt header)]
      at sized
  rw [size, if_neg (Nat.not_lt.mpr fits)] at oversized
  split at oversized
  · cases oversized
  · cases oversized

theorem Carries.front (carries : Carries writer stream (frame sent ++ tail))
    (fits : sent.length ≤ limit) (small : limit < 256 ^ 4)
    (found : Frames.front limit stream = .whole body rest) :
    body = sent ∧ Carries writer rest tail := by
  obtain ⟨same, _⟩ := front_whole found
  obtain ⟨⟨lost, whole⟩, complete⟩ := carries
  subst same
  have again : Frames.front limit (frame sent ++ tail) = .whole sent tail :=
    front_frame fits small
  rw [← whole, List.append_assoc, front_frame (front_whole found).2 small]
    at again
  cases again
  refine ⟨rfl, List.prefix_append _ _, fun present => ?_⟩
  exact List.append_cancel_left (complete present)

end

end

end Frames
