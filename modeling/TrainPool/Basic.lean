import Mathlib.Data.List.Basic
import Mathlib.Tactic.Common

namespace TrainPool

abbrev Uuid := Nat

abbrev SocketAddr := Nat

/-- A BLAKE3 digest.  The hash function itself is a parameter throughout. -/
abbrev Digest := Vector UInt8 32

/-- How a request can fail: with an error answer, or by a panic of its task
that leaves the state of the daemon as it was. -/
inductive Fault where
  | error (message : String)
  | panic
  deriving DecidableEq, Repr

abbrev Result (α : Type) := Except Fault α

/-- The `ensure!` of the source. -/
def ensure (condition : Prop) [Decidable condition] (message : String) :
    Result Unit :=
  if condition then .ok () else .error (.error message)

def inBounds (condition : Prop) [Decidable condition] : Result Unit :=
  if condition then .ok () else .error .panic

theorem bind_ok {α β : Type} {first : Result α} {second : α → Result β}
    {value : β} :
    (first >>= second) = .ok value ↔
      ∃ middle, first = .ok middle ∧ second middle = .ok value := by
  cases first with
  | error fault => simp [bind, Except.bind]
  | ok middle => simp [bind, Except.bind]

@[simp] theorem ensure_ok {condition : Prop} [Decidable condition]
    {message : String} {value : Unit} :
    ensure condition message = .ok value ↔ condition := by
  unfold ensure
  split <;> simp_all

@[simp] theorem inBounds_ok {condition : Prop} [Decidable condition]
    {value : Unit} :
    inBounds condition = .ok value ↔ condition := by
  unfold inBounds
  split <;> simp_all

theorem ensure_bind_ok {β : Type} {condition : Prop} [Decidable condition]
    {message : String} {second : Unit → Result β} {value : β} :
    (ensure condition message >>= second) = .ok value ↔
      condition ∧ second () = .ok value := by
  rw [bind_ok]
  constructor
  · rintro ⟨⟨⟩, passed, rest⟩
    exact ⟨ensure_ok.mp passed, rest⟩
  · intro given
    obtain ⟨passed, rest⟩ := given
    exact ⟨(), ensure_ok.mpr passed, rest⟩

theorem inBounds_bind_ok {β : Type} {condition : Prop}
    [Decidable condition] {second : Unit → Result β} {value : β} :
    (inBounds condition >>= second) = .ok value ↔
      condition ∧ second () = .ok value := by
  rw [bind_ok]
  constructor
  · rintro ⟨⟨⟩, passed, rest⟩
    exact ⟨inBounds_ok.mp passed, rest⟩
  · intro given
    obtain ⟨passed, rest⟩ := given
    exact ⟨(), inBounds_ok.mpr passed, rest⟩

@[simp] theorem pure_ok {α : Type} {result value : α} :
    (pure result : Result α) = .ok value ↔ result = value := by
  simp [pure, Except.pure]

/-- A request that ends in success or in an error answer. -/
def Orderly {α : Type} (result : Result α) : Prop := result ≠ .error .panic

theorem orderly_ok {α : Type} (value : α) :
    Orderly (.ok value : Result α) := by
  intro same
  cases same

@[simp] theorem orderly_pure {α : Type} (value : α) :
    Orderly (pure value : Result α) := orderly_ok value

theorem orderly_error {α : Type} (message : String) :
    Orderly (.error (.error message) : Result α) := by
  intro same
  cases same

@[simp] theorem orderly_ensure (condition : Prop) [Decidable condition]
    (message : String) : Orderly (ensure condition message) := by
  unfold ensure
  split
  · exact orderly_ok _
  · exact orderly_error _

theorem Orderly.bind {α β : Type} {first : Result α}
    {second : α → Result β} (orderly : Orderly first)
    (rest : ∀ value, first = .ok value → Orderly (second value)) :
    Orderly (first >>= second) := by
  cases first with
  | error fault =>
      intro same
      cases same
      exact orderly rfl
  | ok value => exact rest value rfl

theorem orderly_ensure_bind {β : Type} {condition : Prop}
    [Decidable condition] {message : String} {second : Unit → Result β}
    (rest : condition → Orderly (second ())) :
    Orderly (ensure condition message >>= second) :=
  (orderly_ensure condition message).bind fun _ passed =>
    rest (ensure_ok.mp passed)

end TrainPool
