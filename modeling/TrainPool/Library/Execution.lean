import Mathlib.Data.List.Basic

namespace Execution

universe u v

variable {σ : Type u} {ε : Type v}

/-! Runs of a labelled transition function.  All choice of the environment is
carried by the labels; `none` says that a label is not enabled. -/

def run (step : σ → ε → Option σ) : σ → List ε → Option σ
  | state, [] => some state
  | state, event :: rest => (step state event).bind fun next =>
      run step next rest

def passed (step : σ → ε → Option σ) : σ → List ε → List σ
  | _, [] => []
  | state, event :: rest =>
      match step state event with
      | none => []
      | some next => next :: passed step next rest

/-- Every event of a run is allowed in the state it is taken from. -/
def Along (step : σ → ε → Option σ) (allowed : σ → ε → Prop) :
    σ → List ε → Prop
  | _, [] => True
  | state, event :: rest =>
      allowed state event ∧
        ∀ next, step state event = some next → Along step allowed next rest

instance Along.decidable (step : σ → ε → Option σ) (allowed : σ → ε → Prop)
    [∀ state event, Decidable (allowed state event)] :
    (state : σ) → (events : List ε) →
      Decidable (Along step allowed state events)
  | _, [] => isTrue trivial
  | state, event :: rest =>
      match found : step state event with
      | none => decidable_of_iff (allowed state event) (by
          simp [Along, found])
      | some next =>
          have := Along.decidable step allowed next rest
          decidable_of_iff
            (allowed state event ∧ Along step allowed next rest) (by
              simp [Along, found])

section Runs

variable {step : σ → ε → Option σ}

@[simp] theorem run_nil (state : σ) : run step state [] = some state := rfl

theorem run_cons {state final : σ} {event : ε} {rest : List ε} :
    run step state (event :: rest) = some final ↔
      ∃ next, step state event = some next ∧
        run step next rest = some final := by
  simp [run, Option.bind_eq_some_iff]

theorem run_append {state final : σ} {front back : List ε} :
    run step state (front ++ back) = some final ↔
      ∃ middle, run step state front = some middle ∧
        run step middle back = some final := by
  induction front generalizing state with
  | nil => simp
  | cons event rest ih =>
      simp only [List.cons_append, run_cons, ih]
      constructor
      · intro given
        obtain ⟨next, stepped, middle, front, back⟩ := given
        exact ⟨middle, ⟨next, stepped, front⟩, back⟩
      · intro given
        obtain ⟨middle, ⟨next, stepped, front⟩, back⟩ := given
        exact ⟨next, stepped, middle, front, back⟩

theorem run_snoc {state final : σ} {front : List ε} {event : ε} :
    run step state (front ++ [event]) = some final ↔
      ∃ middle, run step state front = some middle ∧
        step middle event = some final := by
  simp [run_append, run_cons]

theorem run_invariant (inv : σ → Prop)
    (preserved : ∀ state event next,
      inv state → step state event = some next → inv next)
    {state final : σ} {events : List ε}
    (initial : inv state) (ran : run step state events = some final) :
    inv final := by
  induction events generalizing state with
  | nil =>
      cases ran
      exact initial
  | cons event rest ih =>
      rw [run_cons] at ran
      obtain ⟨next, stepped, ran⟩ := ran
      exact ih (preserved state event next initial stepped) ran

/-- An invariant of every allowed step is an invariant of every run all of
whose steps are allowed. -/
theorem run_invariant_along (inv : σ → Prop) {allowed : σ → ε → Prop}
    (preserved : ∀ state event next, inv state → allowed state event →
      step state event = some next → inv next)
    {state final : σ} {events : List ε}
    (initial : inv state) (along : Along step allowed state events)
    (ran : run step state events = some final) :
    inv final := by
  induction events generalizing state with
  | nil =>
      cases ran
      exact initial
  | cons event rest ih =>
      rw [run_cons] at ran
      obtain ⟨next, stepped, ran⟩ := ran
      exact ih (preserved state event next initial along.1 stepped)
        (along.2 next stepped) ran

/-- Labels that a run does not see: those without an original leave the state,
the others step as their original does. -/
theorem run_filterMap {δ : Type*} {delivered : δ → ε}
    {original : δ → Option ε} {allowed : σ → δ → Prop}
    (unseen : ∀ state event, allowed state event →
      (∀ own, original event = some own →
        step state (delivered event) = step state own) ∧
      (original event = none → step state (delivered event) = some state))
    {state : σ} {events : List δ}
    (along : Along (fun state event => step state (delivered event)) allowed
      state events) :
    run step state (events.map delivered) =
      run step state (events.filterMap original) := by
  induction events generalizing state with
  | nil => rfl
  | cons event rest ih =>
      obtain ⟨alike, still⟩ := unseen state event along.1
      cases found : original event with
      | none =>
          have stays := still found
          simp only [List.map_cons, List.filterMap_cons, found, run, stays,
            Option.bind_some]
          exact ih (along.2 state stays)
      | some own =>
          have same := alike own found
          simp only [List.map_cons, List.filterMap_cons, found, run, ← same]
          cases stepped : step state (delivered event) with
          | none => rfl
          | some next => exact ih (along.2 next stepped)

theorem run_passed_along (inv : List σ → σ → Prop) {allowed : σ → ε → Prop}
    (preserved : ∀ seen state event next, inv seen state →
      allowed state event → step state event = some next →
        inv (seen ++ [next]) next)
    {seen : List σ} {state final : σ} {events : List ε}
    (initial : inv seen state) (along : Along step allowed state events)
    (ran : run step state events = some final) :
    inv (seen ++ passed step state events) final := by
  induction events generalizing seen state with
  | nil =>
      cases ran
      simpa [passed] using initial
  | cons event rest ih =>
      rw [run_cons] at ran
      obtain ⟨next, stepped, ran⟩ := ran
      have later := ih
        (preserved seen state event next initial along.1 stepped)
        (along.2 next stepped) ran
      simpa [passed, stepped] using later

theorem run_invariant_passed (inv : List σ → σ → Prop)
    (preserved : ∀ seen state event next, inv seen state →
      step state event = some next → inv (seen ++ [next]) next)
    {seen : List σ} {state final : σ} {events : List ε}
    (initial : inv seen state) (ran : run step state events = some final) :
    inv (seen ++ passed step state events) final := by
  induction events generalizing seen state with
  | nil =>
      cases ran
      simpa [passed] using initial
  | cons event rest ih =>
      rw [run_cons] at ran
      obtain ⟨next, stepped, ran⟩ := ran
      have later := ih (preserved seen state event next initial stepped) ran
      simpa [passed, stepped] using later

/-- A reflexive and transitive relation that holds across every step holds
across every run. -/
theorem run_relates (inv : σ → Prop) (rel : σ → σ → Prop)
    (refl : ∀ state, rel state state)
    (trans : ∀ first second third,
      rel first second → rel second third → rel first third)
    (preserved : ∀ state event next,
      inv state → step state event = some next → inv next)
    (related : ∀ state event next,
      inv state → step state event = some next → rel state next)
    {state final : σ} {events : List ε}
    (initial : inv state) (ran : run step state events = some final) :
    rel state final := by
  induction events generalizing state with
  | nil =>
      cases ran
      exact refl _
  | cons event rest ih =>
      rw [run_cons] at ran
      obtain ⟨next, stepped, ran⟩ := ran
      exact trans _ _ _ (related state event next initial stepped)
        (ih (preserved state event next initial stepped) ran)

theorem Along.of_forall {allowed : σ → ε → Prop} {state : σ}
    {events : List ε}
    (all : ∀ event ∈ events, ∀ state, allowed state event) :
    Along step allowed state events := by
  induction events generalizing state with
  | nil => trivial
  | cons event rest ih =>
      exact ⟨all event List.mem_cons_self state, fun next _ =>
        ih fun other member => all other (List.mem_cons_of_mem _ member)⟩

theorem Along.append {allowed : σ → ε → Prop} {state middle : σ}
    {front back : List ε}
    (along : Along step allowed state (front ++ back))
    (ran : run step state front = some middle) :
    Along step allowed state front ∧ Along step allowed middle back := by
  induction front generalizing state with
  | nil =>
      cases ran
      exact ⟨trivial, along⟩
  | cons event rest ih =>
      rw [run_cons] at ran
      obtain ⟨next, stepped, ran⟩ := ran
      obtain ⟨front, back⟩ := ih (along.2 next stepped) ran
      refine ⟨⟨along.1, ?_⟩, back⟩
      intro other steppedOther
      cases stepped.symm.trans steppedOther
      exact front

/-- Two conditions on the events of a run amount to the same if they do in
every state that an invariant admits. -/
theorem Along.congr_given {allowed other : σ → ε → Prop} {given : ε → Prop}
    (inv : σ → Prop)
    (preserved : ∀ state event next, inv state → given event →
      step state event = some next → inv next)
    (same : ∀ state event, inv state → given event →
      (allowed state event ↔ other state event))
    {state : σ} {events : List ε} (initial : inv state)
    (all : ∀ event ∈ events, given event) :
    Along step allowed state events ↔ Along step other state events := by
  induction events generalizing state with
  | nil => exact Iff.rfl
  | cons event rest ih =>
      have first := all event List.mem_cons_self
      refine and_congr (same state event initial first) ?_
      refine forall_congr' fun next => imp_congr_right fun stepped => ?_
      exact ih (preserved state event next initial first stepped)
        fun other member => all other (List.mem_cons_of_mem _ member)

theorem Along.congr {allowed other : σ → ε → Prop} (inv : σ → Prop)
    (preserved : ∀ state event next,
      inv state → step state event = some next → inv next)
    (same : ∀ state event, inv state →
      (allowed state event ↔ other state event))
    {state : σ} {events : List ε} (initial : inv state) :
    Along step allowed state events ↔ Along step other state events :=
  @congr_given _ _ step allowed other (fun _ => True) inv
    (fun state event next holds _ => preserved state event next holds)
    (fun state event holds _ => same state event holds) state events initial
    fun _ _ => trivial

end Runs

/-- Whatever is allowed to happen next, the run comes to the goal: until then
it can go on, and it cannot go on forever. -/
inductive Inevitable (step : σ → ε → Option σ) (allowed : σ → ε → Prop)
    (goal : σ → Prop) : σ → Prop
  | reached {state : σ} (done : goal state) :
      Inevitable step allowed goal state
  | later {state : σ}
      (enabled : ∃ event next, allowed state event ∧
        step state event = some next)
      (next : ∀ event next, allowed state event →
        step state event = some next → Inevitable step allowed goal next) :
      Inevitable step allowed goal state

section Progress

variable {step : σ → ε → Option σ} {allowed : σ → ε → Prop}
  {goal other : σ → Prop}

theorem Inevitable.trans {state : σ}
    (first : Inevitable step allowed goal state)
    (second : ∀ state, goal state → Inevitable step allowed other state) :
    Inevitable step allowed other state := by
  induction first with
  | reached done => exact second _ done
  | later enabled _ ih => exact .later enabled ih

/-- The rule of a decreasing rank: an invariant that lets the run go on until
the goal, while every step lowers the rank. -/
theorem inevitable_of_decreasing {α : Type*} {below : α → α → Prop}
    (founded : WellFounded below) (inv : σ → Prop) (rank : σ → α)
    (progress : ∀ state, inv state → goal state ∨
      ((∃ event next, allowed state event ∧ step state event = some next) ∧
        ∀ event next, allowed state event → step state event = some next →
          goal next ∨ inv next ∧ below (rank next) (rank state)))
    {state : σ} (initial : inv state) :
    Inevitable step allowed goal state := by
  have all : ∀ level state, rank state = level → inv state →
      Inevitable step allowed goal state := by
    intro level
    induction level using founded.induction with
    | _ level ih =>
        intro state ranked holds
        rcases progress state holds with done | ⟨enabled, steps⟩
        · exact .reached done
        · refine .later enabled ?_
          intro event next permitted stepped
          rcases steps event next permitted stepped with done | ⟨kept, lower⟩
          · exact .reached done
          · exact ih (rank next) (ranked ▸ lower) next rfl kept
  exact all (rank state) state rfl initial

/-- A set of states that no step leaves and that misses the goal is never
entered. -/
theorem Inevitable.not_doomed {state : σ}
    (inevitable : Inevitable step allowed goal state) {doomed : σ → Prop}
    (misses : ∀ state, doomed state → ¬goal state)
    (kept : ∀ state event next, doomed state → allowed state event →
      step state event = some next → doomed next) : ¬doomed state := by
  induction inevitable with
  | reached done => exact fun lost => misses _ lost done
  | later enabled _ ih =>
      intro lost
      obtain ⟨event, next, permitted, stepped⟩ := enabled
      exact ih event next permitted stepped
        (kept _ event next lost permitted stepped)

theorem Inevitable.after {state next : σ} {event : ε}
    (inevitable : Inevitable step allowed goal state)
    (unfinished : ¬goal state) (permitted : allowed state event)
    (stepped : step state event = some next) :
    Inevitable step allowed goal next := by
  cases inevitable with
  | reached done => exact absurd done unfinished
  | later _ later => exact later event next permitted stepped

/-- Of two inevitable goals one is met with the other still to come, if no run
comes from the second to the first. -/
theorem Inevitable.meets {state : σ}
    (first : Inevitable step allowed other state)
    (second : Inevitable step allowed goal state)
    (apart : ∀ state, goal state → ¬Inevitable step allowed other state) :
    ∃ state, other state ∧ Inevitable step allowed goal state := by
  induction first with
  | reached done => exact ⟨_, done, second⟩
  | later enabled next ih =>
      obtain ⟨event, after, permitted, stepped⟩ := enabled
      refine ih event after permitted stepped
        (second.after ?_ permitted stepped)
      intro done
      exact apart _ done (.later ⟨event, after, permitted, stepped⟩ next)

end Progress

end Execution
