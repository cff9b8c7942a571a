import TrainPool.Torch.Phases

namespace TrainPool

open HandleStore Failing Training

/-! Whole runs of a graph runtime, whichever calls raise. -/

variable {τ γ σ : Type}

namespace GraphSession

open Session

section

variable {careful : Prop} {course next : GraphSession τ γ σ}
  (model : GraphModel τ γ σ)

/-! A backward. -/

theorem Ended.kept {position : Nat} {first : GraphContext τ γ σ}
    (sound : Sound careful course) (awaiting : Awaiting position first course)
    (fresh : first.completed = false)
    (others : ∀ index context, index ≠ position →
      course.contexts[index]? = some context → context.consumed = true)
    (pending : course.session.runtime.pending = true)
    (ended : Ended (begun position first course) position
      { first with consumed := true } next) :
    Kept careful next := by
  obtain ⟨now, reversing, flags⟩ := ended
  have contexts : next.contexts = course.contexts.set position now := by
    have same := reversing.contexts
    change _ = (course.contexts.set position _).set position now at same
    rwa [List.set_set] at same
  have bound := (List.getElem?_eq_some_iff.mp awaiting.found).1
  have found : next.contexts[position]? = some now := by
    rw [contexts, List.getElem?_set_self bound]
  -- Nothing of this backward has been applied yet.
  have unapplied : ∀ entry ∈ course.applied, entry.latest ≠ some position := by
    intro entry member latest
    obtain ⟨place, context, _, same, listed, completed, _⟩ :=
      sound.logged.produced entry member
    rw [latest] at same
    cases same
    rw [awaiting.found] at listed
    cases listed
    rw [fresh] at completed
    cases completed
  have applied : next.applied = course.applied := reversing.applied
  have logged : Logged careful next := by
    constructor
    · intro entry member
      rw [applied] at member
      obtain ⟨place, context, value, latest, listed, known⟩ :=
        sound.logged.produced entry member
      refine ⟨place, context, value, latest, ?_, known⟩
      rw [contexts, List.getElem?_set_ne, listed]
      rintro rfl
      exact unapplied entry member latest
    · rw [applied]
      exact sound.logged.once
  have consumed : AllConsumed next := by
    intro context member
    obtain ⟨index, listed⟩ := List.mem_iff_getElem?.mp member
    by_cases here : index = position
    · rw [here, found] at listed
      cases listed
      exact reversing.consumed
    · rw [contexts, List.getElem?_set_ne (Ne.symm here)] at listed
      exact others index context here listed
  refine ⟨⟨logged, ?_⟩, ?_⟩
  · intro context member
    obtain ⟨index, listed⟩ := List.mem_iff_getElem?.mp member
    by_cases here : index = position
    · rw [here, found] at listed
      cases listed
      rw [reversing.ran]
      exact reversing.reran
    · rw [contexts, List.getElem?_set_ne (Ne.symm here)] at listed
      exact sound.reran context (List.mem_of_getElem? listed)
  · rcases flags with failed | ⟨complete, completed⟩
    · exact .failed reversing.afloat.tidy failed consumed
    · refine .produced position now ⟨⟨reversing.afloat.tidy, ?_, ?_⟩,
        reversing.latest, found, completed, ?_, ?_, logged⟩ consumed
        (reversing.pending.trans pending) complete
      · intro index name handle held
        obtain ⟨_, _, stage, listed, trained⟩ := reversing.gradients held
        rw [← reversing.stages, List.getElem?_map] at listed
        obtain ⟨record, within, rfl⟩ := Option.map_eq_some_iff.mp listed
        obtain ⟨weight, owned, rfl⟩ := List.mem_map.mp trained
        obtain ⟨owned, trainable⟩ := List.mem_filter.mp owned
        refine ⟨record.stage.weights.map fun weight =>
          (weight.name, weight.trainable), ?_, ?_⟩
        · change (next.session.runtime.stages.map _)[index]? = _
          rw [List.getElem?_map, within]
          rfl
        · exact List.mem_map.mpr ⟨weight, owned, by rw [trainable]⟩
      · intro index name handle slot held same
        by_cases gradient : ∃ other, slot.2 = .gradient other
        · obtain ⟨place, part⟩ := slot
          obtain ⟨other, kind⟩ := gradient
          change part = _ at kind
          subst kind
          obtain ⟨rfl, rfl⟩ := reversing.distinct held same
          rfl
        · have newer := (reversing.gradients held).1
          rw [reversing.held slot fun other kind => gradient ⟨other, kind⟩]
            at same
          exact absurd (reversing.older.1.older same)
            (Nat.not_lt.mpr newer)
      · intro index name handle held
        obtain ⟨_, ⟨value, restored, listed⟩, _⟩ := reversing.gradients held
        exact ⟨value, listed, fun _ => restored⟩
      · intro entry member latest
        rw [applied] at member
        exact absurd latest (unapplied entry member)

theorem backward_kept (kept : Kept careful course) (position : Nat)
    (gradOutputs : List (Option τ)) :
    (backward model position gradOutputs).Leads course
      fun _ next => Kept careful next := by
  have refused : (∀ context, course.contexts[position]? = some context →
      context.consumed = true) →
      (backward model position gradOutputs).Leads course
        fun _ next => Kept careful next := by
    intro consumed
    apply leads_get_bind.mpr
    cases found : course.contexts[position]? with
    | none => exact kept
    | some context =>
        dsimp only
        rw [consumed context found, if_pos rfl]
        exact kept
  cases kept.phase with
  | failed tidy failed consumed =>
      exact refused fun context found =>
        consumed context (List.mem_of_getElem? found)
  | resting resting consumed =>
      exact refused fun context found =>
        consumed context (List.mem_of_getElem? found)
  | produced _ context produced consumed pending complete =>
      exact refused fun context found =>
        consumed context (List.mem_of_getElem? found)
  | awaiting last first awaiting fresh others pending incomplete unfailed =>
      by_cases here : position = last
      · subst here
        apply (backward_ended model gradOutputs awaiting fresh.1).mono
        exact fun _ next ended =>
          ended.kept kept.sound awaiting fresh.2 others pending
      · exact refused fun context found =>
          others position context here found

/-! A step. -/

theorem step_kept (kept : Kept careful course) :
    (step model).Leads course fun _ next => Kept careful next := by
  have refused : (course.session.runtime.failed ||
      !course.session.runtime.backwardComplete) = true →
      (step model).Leads course fun _ next => Kept careful next := by
    intro guarded
    apply leads_get_bind.mpr
    dsimp only
    rw [if_pos guarded]
    exact kept
  cases kept.phase with
  | failed tidy failed consumed => exact refused (by rw [failed, Bool.true_or])
  | resting resting consumed =>
      exact refused (by
        rw [resting.backwardComplete, Bool.not_false, Bool.or_true])
  | awaiting position first awaiting fresh others pending incomplete unfailed =>
      exact refused (by rw [incomplete, Bool.not_false, Bool.or_true])
  | produced position context produced consumed pending complete =>
      cases failed : course.session.runtime.failed with
      | true => exact refused (by rw [failed, Bool.true_or])
      | false =>
          apply (step_underway model produced failed complete).mono
          intro result next given
          cases result with
          | ok _ =>
              obtain ⟨resting, contexts, logged, _⟩ := given
              refine ⟨⟨logged, contexts ▸ kept.sound.reran⟩,
                .resting resting ?_⟩
              unfold AllConsumed
              rw [contexts]
              exact consumed
          | error raised =>
              obtain ⟨failed, tidy, contexts, logged⟩ := given
              refine ⟨⟨logged, contexts ▸ kept.sound.reran⟩,
                .failed tidy failed ?_⟩
              unfold AllConsumed
              rw [contexts]
              exact consumed

/-! A forward. -/

theorem Resting.recut (resting : Resting course) : Recut course course :=
  ⟨resting.tidy, resting.clear, rfl, rfl, rfl, rfl, rfl, rfl⟩

theorem Recut.kept (recut : Recut course next)
    (sound : Sound careful course) (resting : Resting course)
    (consumed : AllConsumed course) :
    Sound careful next ∧ Resting next ∧ AllConsumed next := by
  obtain ⟨tidy, clear, pending, complete, _, contexts, _, applied⟩ := recut
  refine ⟨⟨⟨?_, ?_⟩, ?_⟩, ⟨tidy, clear, pending.trans resting.pending,
    complete.trans resting.backwardComplete⟩, ?_⟩
  · rw [applied, contexts]
    exact sound.logged.produced
  · rw [applied]
    exact sound.logged.once
  · rw [contexts]
    exact sound.reran
  · unfold AllConsumed
    rw [contexts]
    exact consumed

theorem Executing.awaits (executing : Executing course
    course.ir.groups.length next) (clear : course.session.runtime.Clear)
    (leaves : Nat) :
    Awaiting course.contexts.length
      { clock := next.clock, leaves := leaves, tape := next.tape,
        ran := next.ran }
      { next with contexts := next.contexts ++
        [{ clock := next.clock, leaves := leaves, tape := next.tape,
           ran := next.ran }] } := by
  obtain ⟨tidy, values, snapshots, cotangents⟩ := executing.afloat
  refine ⟨⟨tidy, values, snapshots, cotangents⟩, ?_, ?_, ?_, nofun⟩
  · exact fun index name =>
      (executing.gradients index name).trans (clear index name)
  · dsimp only
    rw [executing.contexts, List.getElem?_append_right le_rfl, Nat.sub_self]
    rfl
  · intro index group stage within found
    dsimp only at within found ⊢
    rw [executing.ir] at within
    rw [List.getElem?_map] at found
    obtain ⟨new, after, rfl⟩ := Option.map_eq_some_iff.mp found
    obtain ⟨old, before⟩ := executing.stage after
    have bound := (List.getElem?_eq_some_iff.mp within).1
    rw [executing.ran index bound group old within before,
      ranWith_congr group before after executing.norms executing.fixed
        executing.contents]

theorem applyForward_kept (sound : Sound careful course)
    (tidy : course.session.Tidy) (clear : course.session.runtime.Clear)
    (consumed : AllConsumed course)
    (pending : course.session.runtime.pending = true)
    (incomplete : course.session.runtime.backwardComplete = false)
    (unfailed : course.session.runtime.failed = false)
    (inputs : List (Value τ γ σ)) :
    (tryCatch (applyForward model inputs) abandon).Leads course
      fun _ next => Kept careful next := by
  have applies : (applyForward model inputs).Leads course (Ending
      (fun _ next => Kept careful next)
      fun _ next => Stopped course next) := by
    apply (execute_executing model tidy true inputs).bind
    · intro _ next executing
      apply leads_modify.mpr
      obtain ⟨stages, runtime⟩ := executing.runtime
      have same := executing.contexts
      refine ⟨⟨⟨?_, ?_⟩, ?_⟩, .awaiting course.contexts.length _
        (executing.awaits clear _) ⟨rfl, rfl⟩ ?_ ?_ ?_ ?_⟩
      · intro entry member
        dsimp only at member
        rw [executing.applied] at member
        obtain ⟨place, context, value, latest, listed, known⟩ :=
          sound.logged.produced entry member
        refine ⟨place, context, value, latest, ?_, known⟩
        dsimp only
        rw [same, List.getElem?_append_left
          (List.getElem?_eq_some_iff.mp listed).1]
        exact listed
      · dsimp only
        rw [executing.applied]
        exact sound.logged.once
      · intro context member
        dsimp only at member
        rw [same] at member
        rcases List.mem_append.mp member with member | member
        · exact sound.reran context member
        · rw [List.mem_singleton.mp member]
          exact nofun
      · intro index context other listed
        dsimp only at listed
        rw [same] at listed
        rcases Nat.lt_or_gt_of_ne other with earlier | later
        · rw [List.getElem?_append_left earlier] at listed
          exact consumed context (List.mem_of_getElem? listed)
        · rw [List.getElem?_append_right (Nat.le_of_lt later)] at listed
          have bound := (List.getElem?_eq_some_iff.mp listed).1
          rw [List.length_singleton] at bound
          exact absurd (Nat.sub_eq_zero_iff_le.mp (Nat.lt_one_iff.mp bound))
            (Nat.not_le.mpr later)
      · dsimp only
        rw [runtime]
        exact pending
      · dsimp only
        rw [runtime]
        exact incomplete
      · dsimp only
        rw [runtime]
        exact unfailed
    · exact fun _ _ stopped => stopped
  apply applies.rescue
  · exact fun _ _ kept => kept
  · intro raised next stopped
    obtain ⟨done, executing⟩ := stopped
    obtain ⟨older, named⟩ := executing.afloat.tidy
    apply leads_changing_bind.mpr
    refine ⟨⟨⟨?_, ?_⟩, ?_⟩, .failed ⟨older, named⟩ rfl ?_⟩
    · dsimp only
      rw [executing.applied, executing.contexts]
      exact sound.logged.produced
    · dsimp only
      rw [executing.applied]
      exact sound.logged.once
    · dsimp only
      rw [executing.contexts]
      exact sound.reran
    · unfold AllConsumed
      dsimp only
      rw [executing.contexts]
      exact consumed

theorem evaluate_kept (sound : Sound careful course)
    (resting : Resting course) (consumed : AllConsumed course)
    (inputs : List (Value τ γ σ)) :
    (do
      execute model false inputs
      releaseTape : GraphStepping τ γ σ Unit).Leads course
        fun _ next => Kept careful next := by
  have rests : ∀ {done next}, Executing course done next →
      Kept careful next := by
    intro done next executing
    obtain ⟨stages, runtime⟩ := executing.runtime
    have recut : Recut course next := by
      refine ⟨executing.afloat.tidy, fun index name =>
        (executing.gradients index name).trans (resting.clear index name), ?_,
        ?_, ?_, executing.contexts, executing.latest, executing.applied⟩
      · rw [runtime]
      · rw [runtime]
      · rw [runtime]
    obtain ⟨sound, resting, consumed⟩ := recut.kept sound resting consumed
    exact ⟨sound, .resting resting consumed⟩
  apply (execute_executing model resting.tidy false inputs).bind
  · intro _ next executing
    exact (executing.respects releaseTape_drifts).mono
      fun _ _ executing => rests executing
  · intro raised next stopped
    obtain ⟨done, executing⟩ := stopped
    exact rests executing

theorem forward_kept (kept : Kept careful course)
    (inputs : List (Value τ γ σ)) (training autocast : Bool) :
    (forward model inputs training autocast).Leads course
      fun _ next => Kept careful next := by
  have refused : (refuseGraph course.session.runtime).isSome →
      (forward model inputs training autocast).Leads course
        fun _ next => Kept careful next := by
    intro refuses
    obtain ⟨message, same⟩ := Option.isSome_iff_exists.mp refuses
    apply leads_get_bind.mpr
    rw [same]
    exact kept
  cases kept.phase with
  | failed tidy failed consumed =>
      apply refused
      unfold refuseGraph
      rw [failed, Bool.true_or, if_pos rfl]
      rfl
  | awaiting position first awaiting fresh others pending incomplete unfailed =>
      apply refused
      unfold refuseGraph
      rw [pending, if_pos rfl]
      split
      · rfl
      · rfl
  | produced position context produced consumed pending complete =>
      apply refused
      unfold refuseGraph
      rw [pending, if_pos rfl]
      split
      · rfl
      · rfl
  | resting resting consumed =>
      apply leads_get_bind.mpr
      split
      · exact kept
      · rename_i accepted
        have unfailed : course.session.runtime.failed = false := by
          cases failed : course.session.runtime.failed with
          | false => rfl
          | true =>
              unfold refuseGraph at accepted
              rw [failed, Bool.true_or, if_pos rfl] at accepted
              cases accepted
        split
        · exact kept
        · split
          · exact kept
          · split
            · exact kept
            · apply leads_modify_bind.mpr
              let clocked : GraphSession τ γ σ :=
                { course with clock := course.clock + 1 }
              have recut : Recut course clocked :=
                ⟨resting.tidy, resting.clear, rfl, rfl, rfl, rfl, rfl, rfl⟩
              have rests : ∀ {next}, Recut course next →
                  Kept careful next := by
                intro next recut
                obtain ⟨sound, resting, consumed⟩ :=
                  recut.kept kept.sound resting consumed
                exact ⟨sound, .resting resting consumed⟩
              have modes : (syncModes model).Leads clocked
                  fun _ next => Recut course next := by
                apply leads_get_bind.mpr
                exact raising_leads _ fun _ => recut
              apply modes.bind
              · intro _ next recut
                apply (preflight_recut model inputs model.rounds recut).bind
                · intro _ next recut
                  obtain ⟨sound, resting, consumed⟩ :=
                    recut.kept kept.sound resting consumed
                  split
                  · apply leads_changing_bind.mpr
                    obtain ⟨⟨older, named⟩, clear, _, _⟩ := resting
                    let pending : Session τ γ := { next.session with
                      runtime := { next.session.runtime with
                        pending := true, backwardComplete := false } }
                    exact applyForward_kept model (sound.session pending)
                      ⟨older, named⟩ clear consumed rfl rfl
                      (recut.failed.trans unfailed) inputs
                  · exact evaluate_kept model sound resting consumed inputs
                · exact fun _ _ recut => rests recut
              · exact fun _ _ recut => rests recut

/-! Runs. -/

/-- No call raises where the gradients are zeroed. -/
def Careful (turns : List (Turn τ γ σ)) : Prop :=
  ∀ turn ∈ turns, ∀ setToNone, turn.1 = .zeroGrad setToNone →
    ∀ fault ∈ turn.2, fault = none

theorem perform_kept (kept : Kept careful course) (operation : Operation τ γ σ)
    (calm : ∀ setToNone, operation = .zeroGrad setToNone → careful →
      course.session.Calm) :
    (perform model operation).Leads course
      fun _ next => Kept careful next := by
  cases operation with
  | forward inputs training autocast =>
      exact forward_kept model kept inputs training autocast
  | backward position gradOutputs =>
      exact backward_kept model kept position gradOutputs
  | zeroGrad setToNone => exact zeroGrad_kept kept setToNone (calm _ rfl)
  | step => exact step_kept model kept
  | loadStateDict checkpoint strict assign =>
      apply (kept.exchanges (fun tidy => loadStateDict_exchanging model.kinds
        tidy checkpoint strict assign) fun pending =>
          loadStateDict_refuses model.kinds pending checkpoint _ _).bind
      · exact fun _ _ kept => kept
      · exact fun _ _ kept => kept
  | loadOptimizer checkpoint =>
      exact kept.exchanges (fun tidy => loadOptimizer_exchanging model.kinds
        model.attached tidy checkpoint) fun pending =>
          loadOptimizer_refuses model.kinds model.attached pending checkpoint
  | convertDtype dtype =>
      exact kept.exchanges (fun tidy =>
        convertDtype_exchanging model.kinds tidy dtype) fun pending =>
          convertDtype_refuses model.kinds pending dtype
  | stateDict =>
      exact (kept.spares fun _ => stateDict_spares).bind
        (fun _ _ kept => kept) fun _ _ kept => kept
  | optimizerStateDict =>
      exact (kept.spares fun _ => optimizerStateDict_spares).bind
        (fun _ _ kept => kept) fun _ _ kept => kept

theorem Kept.faults (kept : Kept careful course)
    (faults : List (Option Raised)) :
    Kept careful { course with
      session := { course.session with faults := faults } } :=
  kept.harmless ⟨⟨rfl, rfl, rfl, rfl, le_rfl⟩, fun _ _ _ => rfl⟩

theorem run_kept (kept : Kept careful course) (turns : List (Turn τ γ σ))
    (calm : careful → Careful turns) :
    Kept careful (run model turns course) := by
  induction turns generalizing course with
  | nil => exact kept
  | cons turn rest ih =>
      have performed := perform_kept model (kept.faults turn.2) turn.1
        fun setToNone same careful =>
          calm careful turn List.mem_cons_self setToNone same
      exact ih performed fun careful other member =>
        calm careful other (List.mem_cons_of_mem _ member)

end

end GraphSession

end TrainPool
