import TrainPool.Torch.Sequential

namespace TrainPool

open HandleStore Failing

/-! What an operation does without the thread that loads weights ahead. -/

namespace Session

variable {τ γ : Type}

/-- The session without the other thread, and with other calls to raise. -/
def alone (session : Session τ γ) (faults : List (Option Raised)) :
    Session τ γ :=
  { session with prefetch := none, faults := faults, turns := [], workerFaults := [] }

end Session

theorem Idle.alone {τ γ : Type} {session next : Session τ γ} (idle : Idle session next)
    (faults : List (Option Raised)) : next.alone faults = session.alone faults := by
  unfold Session.alone
  rw [idle.runtime, idle.store, idle.contexts, idle.handed, idle.context,
    idle.unread]

namespace Training

open Session

variable {τ γ α : Type}

/-! What does the same without the other thread. -/

def outcome (faults : List (Option Raised)) : Except Raised Unit :=
  match faults.head? with
  | some (some raised) => .error raised
  | _ => .ok ()

theorem call_run (session : Session τ γ) : call.run session =
    (outcome session.faults, { session.works (session.turns.headD 0) with
      turns := session.turns.tail
      faults := session.faults.tail }) := by
  obtain ⟨_, faults, turns⟩ := session.works_idle (session.turns.headD 0)
  have ends : ∀ (faults : List (Option Raised)) (next : Session τ γ),
      (match faults.head? with
        | some (some raised) => throw raised
        | _ => pure () : Stepping τ γ Unit).run next =
          (outcome faults, next) := by
    intro faults next
    unfold outcome
    cases faults with
    | nil => rfl
    | cons fault faults =>
        cases fault with
        | none => rfl
        | some raised => rfl
  apply (ends _ _).trans
  rw [faults, turns]

section

variable (optimizer : Optimizer τ γ)

end

end Training

namespace Sequential

open Session Training

variable {τ γ : Type} (model : Sequential τ γ)

end Sequential

end TrainPool
