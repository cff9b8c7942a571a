import Mathlib.Algebra.BigOperators.Group.List.Basic
import TrainPool.Memory.Block

namespace TrainPool

namespace TensorMetadata

variable {metadata : TensorMetadata} {dtype : String}
  {left right result size : Nat}

def supported : List (String × Nat) :=
  [("uint8", 1), ("int8", 1), ("bool", 1), ("float16", 2), ("bfloat16", 2),
    ("int16", 2), ("float32", 4), ("int32", 4), ("float64", 8), ("int64", 8),
    ("complex64", 8), ("complex128", 16)]

theorem width_ok : width dtype = .ok size ↔ (dtype, size) ∈ supported := by
  unfold width supported
  split <;> simp_all [eq_comm]

theorem checkedMul_eq_some : checkedMul left right = some result ↔
    left * right < 2 ^ 64 ∧ left * right = result := by
  unfold checkedMul
  split
  · simp only [Option.some.injEq, true_and, *]
  · simp only [reduceCtorEq, false_and, *]

theorem prefix_fits {dims : List Nat} (positive : 0 < left * dims.prod)
    (fits : left * dims.prod < 2 ^ 64) : left < 2 ^ 64 := by
  have nonzero : 0 < dims.prod := Nat.pos_of_mul_pos_left positive
  calc left ≤ left * dims.prod := Nat.le_mul_of_pos_right left nonzero
    _ < 2 ^ 64 := fits

/-- The fold of the checked multiplications reaches a positive number that fits
exactly when the product over the natural numbers is that number. -/
theorem foldlM_checkedMul {dims : List Nat} (positive : 0 < result)
    (fits : result < 2 ^ 64) : ∀ {start : Nat},
    dims.foldlM checkedMul start = some result ↔
      start * dims.prod = result := by
  induction dims with
  | nil =>
      intro start
      simp only [List.foldlM_nil, Option.pure_def, Option.some.injEq,
        List.prod_nil, Nat.mul_one]
  | cons dim dims induction =>
      intro start
      rw [List.foldlM_cons, List.prod_cons, ← Nat.mul_assoc]
      constructor
      · intro folded
        obtain ⟨reached, multiplied, rest⟩ :=
          Option.bind_eq_some_iff.mp folded
        rw [(checkedMul_eq_some.mp multiplied).2]
        exact induction.mp rest
      · intro product
        have first : start * dim < 2 ^ 64 :=
          prefix_fits (product ▸ positive) (product ▸ fits)
        apply Option.bind_eq_some_iff.mpr
        exact ⟨start * dim, checkedMul_eq_some.mpr ⟨first, rfl⟩,
          induction.mpr product⟩

theorem validate_ok : metadata.validate size = .ok () ↔
    (metadata.layout = "contiguous" ∧ metadata.shape.length ≤ 32) ∧
      ∃ width, (metadata.dtype, width) ∈ supported ∧
        metadata.shape.foldlM checkedMul width = some size ∧
        size = metadata.byteLength := by
  unfold validate
  simp only [ensure_bind_ok]
  refine and_congr_right fun _ => ?_
  constructor
  · intro checked
    cases known : width metadata.dtype with
    | error failure =>
        rw [known] at checked
        cases checked
    | ok size =>
        rw [known] at checked
        exact ⟨size, width_ok.mp known, ensure_ok.mp checked⟩
  · intro described
    obtain ⟨size, known, bytes⟩ := described
    rw [width_ok.mpr known]
    exact ensure_ok.mpr bytes

/-- Metadata describe a block of a positive size exactly when they are
contiguous, of at most 32 dimensions, of a supported element type, and as long
as the unbounded product of the width and the dimensions. -/
theorem validate_exact (positive : 0 < size) (fits : size < 2 ^ 64) :
    metadata.validate size = .ok () ↔
      metadata.layout = "contiguous" ∧ metadata.shape.length ≤ 32 ∧
        ∃ width, (metadata.dtype, width) ∈ supported ∧
          width * metadata.shape.prod = size ∧
          size = metadata.byteLength := by
  simp only [validate_ok, foldlM_checkedMul positive fits, and_assoc]

/-- A product of `2 ^ 66` is refused although it is a multiple of `2 ^ 64`, and
a matrix of 24 bytes passes. -/
theorem validate_exact_sample :
    (TensorMetadata.validate ⟨"float32", [2 ^ 32, 2 ^ 32], "contiguous", 4⟩ 4 =
        .ok () ↔ False) ∧
      TensorMetadata.validate ⟨"float32", [2, 3], "contiguous", 24⟩ 24 =
        .ok () := by
  constructor
  · rw [@validate_exact ⟨"float32", [2 ^ 32, 2 ^ 32], "contiguous", 4⟩ 4
      (by decide) (by decide)]
    simp [supported]
  · exact (@validate_exact ⟨"float32", [2, 3], "contiguous", 24⟩ 24
      (by decide) (by decide)).mpr
      ⟨rfl, by decide, 4, by decide, by decide, rfl⟩

end TensorMetadata

end TrainPool
