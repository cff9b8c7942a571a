import Mathlib.Data.List.Basic
import Mathlib.Tactic.Ring

namespace Bytes

/-! Fixed-width big-endian integers and lower-case hexadecimal text. -/

def toBigEndian : (width : Nat) → Nat → List UInt8
  | 0, _ => []
  | width + 1, value =>
      UInt8.ofNat (value / 256 ^ width) :: toBigEndian width value

def fromBigEndian (bytes : List UInt8) : Nat :=
  bytes.foldl (fun value byte => value * 256 + byte.toNat) 0

@[simp] theorem length_toBigEndian (width value : Nat) :
    (toBigEndian width value).length = width := by
  induction width with
  | zero => rfl
  | succ width ih => simp [toBigEndian, ih]

private theorem foldl_toBigEndian (width value start : Nat) :
    (toBigEndian width value).foldl
        (fun value byte => value * 256 + byte.toNat) start =
      start * 256 ^ width + value % 256 ^ width := by
  induction width generalizing start with
  | zero => simp [toBigEndian, Nat.mod_one]
  | succ width ih =>
      have digit : (UInt8.ofNat (value / 256 ^ width)).toNat =
          value / 256 ^ width % 256 := by
        simp
      simp only [toBigEndian, List.foldl_cons, ih, digit]
      rw [Nat.pow_succ, Nat.mod_mul]
      ring

theorem fromBigEndian_toBigEndian {width value : Nat}
    (fits : value < 256 ^ width) :
    fromBigEndian (toBigEndian width value) = value := by
  rw [fromBigEndian, foldl_toBigEndian, Nat.mod_eq_of_lt fits]
  simp

private theorem foldl_fromBigEndian (bytes : List UInt8) (start : Nat) :
    bytes.foldl (fun value byte => value * 256 + byte.toNat) start =
      start * 256 ^ bytes.length + fromBigEndian bytes := by
  induction bytes generalizing start with
  | nil => simp [fromBigEndian]
  | cons byte rest ih =>
      simp only [fromBigEndian, List.foldl_cons, List.length_cons]
      rw [ih, ih (0 * 256 + byte.toNat), Nat.pow_succ]
      ring

theorem fromBigEndian_cons (byte : UInt8) (rest : List UInt8) :
    fromBigEndian (byte :: rest) =
      byte.toNat * 256 ^ rest.length + fromBigEndian rest := by
  simp only [fromBigEndian, List.foldl_cons]
  rw [foldl_fromBigEndian, fromBigEndian]
  ring

theorem fromBigEndian_lt (bytes : List UInt8) :
    fromBigEndian bytes < 256 ^ bytes.length := by
  induction bytes with
  | nil => simp [fromBigEndian]
  | cons byte rest ih =>
      rw [fromBigEndian_cons, List.length_cons, Nat.pow_succ]
      have small := byte.toNat_lt
      have scaled : (byte.toNat + 1) * 256 ^ rest.length ≤
          256 * 256 ^ rest.length :=
        Nat.mul_le_mul_right _ (by omega)
      rw [Nat.add_mul] at scaled
      omega

private theorem toBigEndian_add (width digit value : Nat) :
    toBigEndian width (digit * 256 ^ width + value) =
      toBigEndian width value := by
  induction width generalizing digit with
  | zero => rfl
  | succ width ih =>
      have positive : 0 < 256 ^ width := Nat.pow_pos (by decide)
      have shifted : digit * 256 ^ (width + 1) + value =
          digit * 256 * 256 ^ width + value := by
        rw [Nat.pow_succ]
        ring
      have high : (digit * 256 * 256 ^ width + value) / 256 ^ width =
          digit * 256 + value / 256 ^ width := by
        rw [Nat.add_comm, Nat.add_mul_div_right _ _ positive, Nat.add_comm]
      simp only [toBigEndian, shifted, ih, high, List.cons.injEq, and_true]
      apply UInt8.toNat_inj.mp
      simp

theorem toBigEndian_fromBigEndian (bytes : List UInt8) :
    toBigEndian bytes.length (fromBigEndian bytes) = bytes := by
  induction bytes with
  | nil => rfl
  | cons byte rest ih =>
      have positive : 0 < 256 ^ rest.length := Nat.pow_pos (by decide)
      have small := fromBigEndian_lt rest
      rw [fromBigEndian_cons, List.length_cons]
      simp only [toBigEndian, toBigEndian_add, ih, List.cons.injEq, and_true]
      rw [Nat.add_comm, Nat.add_mul_div_right _ _ positive,
        Nat.div_eq_of_lt small, Nat.zero_add]
      simp

def hexDigit (value : Nat) : Char :=
  if value < 10 then Char.ofNat (48 + value) else Char.ofNat (87 + value)

def toHex (bytes : List UInt8) : String :=
  String.ofList (bytes.flatMap fun byte =>
    [hexDigit (byte.toNat / 16), hexDigit (byte.toNat % 16)])

theorem hexDigit_injective {left right : Nat} (leftDigit : left < 16)
    (rightDigit : right < 16) (same : hexDigit left = hexDigit right) :
    left = right := by
  have digits : ∀ left right : Fin 16,
      hexDigit left = hexDigit right → left = right := by decide
  exact congrArg Fin.val (digits ⟨left, leftDigit⟩ ⟨right, rightDigit⟩ same)

theorem toHex_toList (bytes : List UInt8) :
    (toHex bytes).toList = bytes.flatMap fun byte =>
      [hexDigit (byte.toNat / 16), hexDigit (byte.toNat % 16)] := by
  simp [toHex]

theorem toHex_injective {left right : List UInt8}
    (same : toHex left = toHex right) : left = right := by
  have digits := congrArg String.toList same
  rw [toHex_toList, toHex_toList] at digits
  clear same
  induction left generalizing right with
  | nil =>
      cases right with
      | nil => rfl
      | cons byte rest => simp at digits
  | cons first before ih =>
      cases right with
      | nil => simp at digits
      | cons second after =>
          simp only [List.flatMap_cons, List.cons_append, List.nil_append,
            List.cons.injEq] at digits
          obtain ⟨high, low, rest⟩ := digits
          have firstSmall := first.toNat_lt
          have secondSmall := second.toNat_lt
          have tens := hexDigit_injective (by omega) (by omega) high
          have units := hexDigit_injective (by omega) (by omega) low
          have byte : first = second := by
            apply UInt8.toNat_inj.mp
            omega
          rw [byte, ih rest]

theorem toHex_digit {bytes : List UInt8} {digit : Char}
    (member : digit ∈ (toHex bytes).toList) :
    ∃ value < 16, digit = hexDigit value := by
  rw [toHex_toList] at member
  obtain ⟨byte, _, here⟩ := List.mem_flatMap.mp member
  have small := byte.toNat_lt
  simp only [List.mem_cons, List.not_mem_nil, or_false] at here
  rcases here with rfl | rfl
  · exact ⟨byte.toNat / 16, by omega, rfl⟩
  · exact ⟨byte.toNat % 16, by omega, rfl⟩

theorem length_toHex (bytes : List UInt8) :
    (toHex bytes).toList.length = 2 * bytes.length := by
  rw [toHex_toList]
  induction bytes with
  | nil => rfl
  | cons byte rest ih =>
      simp only [List.flatMap_cons, List.length_append, ih,
        List.length_cons, List.length_nil]
      omega

end Bytes
