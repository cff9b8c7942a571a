import TrainPool.Torch.Applied

namespace TrainPool

open HandleStore Failing Training

/-! The gradients are zeroed, whichever calls raise. -/

variable {τ γ : Type}

namespace Session

structure Thinned (session next : Session τ γ) : Prop where
  grows : session.store.next ≤ next.store.next
  held : ∀ {slot handle}, next.runtime.held slot = some handle →
    session.runtime.held slot = some handle
  roster : next.runtime.roster = session.runtime.roster
  length : next.runtime.stages.length = session.runtime.stages.length
  pending : next.runtime.pending = session.runtime.pending
  backwardComplete : next.runtime.backwardComplete =
    session.runtime.backwardComplete
  failed : next.runtime.failed = session.runtime.failed

variable {session next final : Session τ γ}

theorem Thinned.refl (session : Session τ γ) : Thinned session session :=
  ⟨le_rfl, id, rfl, rfl, rfl, rfl, rfl⟩

theorem Thinned.trans (early : Thinned session next)
    (late : Thinned next final) : Thinned session final where
  grows := early.grows.trans late.grows
  held found := early.held (late.held found)
  roster := late.roster.trans early.roster
  length := late.length.trans early.length
  pending := late.pending.trans early.pending
  backwardComplete := late.backwardComplete.trans early.backwardComplete
  failed := late.failed.trans early.failed

theorem Thinned.of_grows (grows : Grows session next) :
    Thinned session next := by
  refine ⟨grows.grows, ?_, ?_, ?_, ?_, ?_, ?_⟩
  · rw [grows.runtime]
    exact id
  all_goals rw [grows.runtime]

theorem Tidy.thinned (tidy : session.Tidy) (thinned : Thinned session next) :
    next.Tidy where
  older held := (tidy.older (thinned.held held)).trans_le thinned.grows
  named owned other held same :=
    tidy.named owned other (thinned.held held) (thinned.held same)

theorem Graded.thinned (graded : session.Graded)
    (thinned : Thinned session next) : next.Graded where
  tidy := graded.tidy.thinned thinned
  trained held := by
    obtain ⟨entries, listed, member⟩ := graded.trained (thinned.held held)
    exact ⟨entries, thinned.roster.symm ▸ listed, member⟩
  apart held same := graded.apart (thinned.held held) (thinned.held same)

theorem held_of_clearGradients {runtime : Runtime γ} {index : Nat}
    {slot : Nat × Part} {handle : Handle}
    (held : (runtime.alter index Record.clearGradients).held slot =
      some handle) :
    runtime.held slot = some handle := by
  obtain ⟨place, part⟩ := slot
  rw [Runtime.held_alter] at held
  split at held
  · rename_i here
    obtain ⟨record, found, holds⟩ := Option.bind_eq_some_iff.mp held
    change place = index at here
    rw [← here] at found
    unfold Runtime.held
    rw [found]
    cases part with
    | weight name => exact holds
    | buffer name => exact holds
    | gradient name => cases holds
    | state name position => exact holds
  · exact held

theorem cleared_gradient (runtime : Runtime γ) (index : Nat)
    (name : ParameterName) :
    (runtime.alter index Record.clearGradients).held (index, .gradient name) =
      none := by
  rw [Runtime.held_alter, if_pos rfl]
  cases runtime.records[index]? with
  | none => rfl
  | some record => rfl

theorem zeroRecord_thinned (index : Nat) (session : Session τ γ) :
    (Sequential.zeroRecord index).Leads session (Ending
      (fun _ next => Thinned session next ∧
        ∀ name, next.runtime.held (index, .gradient name) = none)
      fun _ next => Thinned session next) := by
  apply leads_get_bind.mpr
  apply (each_grows free_grows _ session).bind
  · intro _ next grows
    have same : ∀ record : Record γ,
        (record.clearGradients.stage.weights.map fun weight =>
          (weight.name, weight.trainable)) =
        record.stage.weights.map fun weight =>
          (weight.name, weight.trainable) := fun _ => rfl
    have cleared : Thinned next { next with
        runtime := next.runtime.alter index Record.clearGradients } := by
      refine ⟨le_rfl, ?_, map_modify_same same index _,
        List.length_modify _ _ _, rfl, rfl, rfl⟩
      exact fun held => held_of_clearGradients held
    apply (change_leads _).mpr
    exact ⟨(Thinned.of_grows grows).trans cleared,
      cleared_gradient next.runtime index⟩
  · exact fun _ _ grows => .of_grows grows

theorem zeroRecords_thinned (indices : List Nat) (session : Session τ γ) :
    (each Sequential.zeroRecord indices).Leads session (Ending
      (fun _ next => Thinned session next ∧ ∀ index ∈ indices, ∀ name,
        next.runtime.held (index, .gradient name) = none)
      fun _ next => Thinned session next) := by
  induction indices generalizing session with
  | nil => exact ⟨.refl session, nofun⟩
  | cons index rest ih =>
      apply (zeroRecord_thinned index session).bind
      · intro _ next given
        obtain ⟨thinned, gone⟩ := given
        apply (ih next).mono
        intro result final given
        cases result with
        | ok _ =>
            obtain ⟨later, others⟩ := given
            refine ⟨thinned.trans later, ?_⟩
            intro place member name
            rcases List.mem_cons.mp member with rfl | member
            · cases held : final.runtime.held (place, .gradient name) with
              | none => rfl
              | some handle =>
                  have known := later.held held
                  rw [gone name] at known
                  cases known
            · exact others place member name
        | error raised => exact thinned.trans given
      · exact fun _ _ thinned => thinned

theorem zeroGrad_thinned (setToNone : Bool) (session : Session τ γ) :
    (Sequential.zeroGrad setToNone).Leads session (Ending
      (fun _ next => ∃ middle, Thinned session middle ∧
        (∀ index < session.runtime.stages.length, ∀ name,
          middle.runtime.held (index, .gradient name) = none) ∧
        next = { middle with runtime := { middle.runtime with
          pending := false, backwardComplete := false } })
      fun _ next => Thinned session next) := by
  apply leads_get_bind.mpr
  dsimp only
  split
  · exact Thinned.refl session
  · split
    · exact Thinned.refl session
    · apply (zeroRecords_thinned _ session).bind
      · intro _ middle given
        obtain ⟨thinned, gone⟩ := given
        exact (change_leads _).mpr ⟨middle, thinned, fun index bound name =>
          gone index (List.mem_range.mpr bound) name, rfl⟩
      · exact fun _ _ thinned => thinned

theorem zeroGrad_calm (setToNone : Bool) (calm : session.Calm) :
    (Sequential.zeroGrad setToNone).Leads session (Ending (fun _ _ => True)
      fun _ next => next = session) := by
  have records : ∀ indices : List Nat,
      (each Sequential.zeroRecord indices).Leads session (Ending
        (fun _ next => next.Calm) fun _ _ => False) := by
    intro indices
    apply Leads.each_until calm
    intro index _ next calm
    apply leads_get_bind.mpr
    apply (frees_calm (next.runtime.gradientsOf index) calm).bind
    · exact fun _ final given => (change_leads _).mpr given.2
    · exact fun _ _ impossible => impossible
  apply leads_get_bind.mpr
  dsimp only
  split
  · rfl
  · split
    · rfl
    · apply (records _).bind
      · exact fun _ _ _ => trivial
      · exact fun _ _ impossible => impossible.elim

theorem zeroGrad_refuses (setToNone : Bool)
    (pending : session.runtime.pending = true)
    (awaiting : session.runtime.backwardComplete = false) :
    (Sequential.zeroGrad setToNone).Leads session
      fun _ next => next = session := by
  apply leads_get_bind.mpr
  dsimp only
  rw [pending, awaiting]
  split
  · rfl
  · rfl

end Session

end TrainPool
