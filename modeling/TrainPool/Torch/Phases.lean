import TrainPool.Torch.Zeroing

namespace TrainPool

open HandleStore Failing Training

/-! What every run of a graph runtime keeps, whichever calls raise. -/

variable {τ γ σ : Type}

namespace GraphSession

open Session

def AllConsumed (course : GraphSession τ γ σ) : Prop :=
  ∀ context ∈ course.contexts, context.consumed = true

/-- Every backward has run its groups again with what they ran with, and the
steps have applied what backwards have produced. -/
structure Sound (careful : Prop) (course : GraphSession τ γ σ) : Prop where
  logged : Logged careful course
  reran : ∀ context ∈ course.contexts, ∀ entry ∈ context.reran,
    context.ran[entry.1]? = some entry.2

/-- Between two operations a runtime has failed, or waits for a forward, for a
backward or for a step. -/
inductive Phase (careful : Prop) (course : GraphSession τ γ σ) : Prop
  | failed (tidy : course.session.Tidy)
      (failed : course.session.runtime.failed = true)
      (consumed : AllConsumed course)
  | resting (resting : Resting course) (consumed : AllConsumed course)
  | awaiting (position : Nat) (first : GraphContext τ γ σ)
      (awaiting : Awaiting position first course)
      (fresh : first.consumed = false ∧ first.completed = false)
      (others : ∀ index context, index ≠ position →
        course.contexts[index]? = some context → context.consumed = true)
      (pending : course.session.runtime.pending = true)
      (incomplete : course.session.runtime.backwardComplete = false)
      (unfailed : course.session.runtime.failed = false)
  | produced (position : Nat) (context : GraphContext τ γ σ)
      (produced : Produced careful position context course)
      (consumed : AllConsumed course)
      (pending : course.session.runtime.pending = true)
      (complete : course.session.runtime.backwardComplete = true)

structure Kept (careful : Prop) (course : GraphSession τ γ σ) : Prop where
  sound : Sound careful course
  phase : Phase careful course

section

variable {careful : Prop} {course next : GraphSession τ γ σ}

/-! What leaves the records and their tensors alone. -/

theorem Matches.harmless {session next : Session τ γ} {ir : GraphIR γ σ}
    {ran : List (Ran τ)} (known : Matches session ir ran)
    (tidy : session.Tidy) (harmless : session.Harmless next) :
    Matches next ir ran := by
  intro index group stage within found
  rw [harmless.runtime] at found
  rw [known index group stage within found]
  rw [List.getElem?_map] at found
  obtain ⟨record, before, rfl⟩ := Option.map_eq_some_iff.mp found
  have after : next.runtime.stages[index]? = some record := by
    rw [harmless.runtime]
    exact before
  have contents : ∀ handle, session.runtime.FixedHandle handle →
      next.store.restore handle = session.store.restore handle := by
    intro handle fixed
    obtain ⟨place, part, held, _⟩ := fixed.held
    have holds : session.Holds handle := ⟨(place, part), held⟩
    exact harmless.spares handle holds (tidy.below holds)
  have same := ranWith_congr group before after (by rw [harmless.runtime])
    (by rw [harmless.runtime]) contents
  rw [same]

theorem Phase.harmless (phase : Phase careful course) {session : Session τ γ}
    (harmless : course.session.Harmless session) :
    Phase careful { course with session := session } := by
  have runtime := harmless.runtime
  cases phase with
  | failed tidy failed consumed =>
      exact .failed (tidy.grows harmless.toGrows) (runtime ▸ failed) consumed
  | resting resting consumed =>
      obtain ⟨tidy, clear, pending, complete⟩ := resting
      exact .resting ⟨tidy.grows harmless.toGrows, runtime ▸ clear,
        runtime ▸ pending, runtime ▸ complete⟩ consumed
  | awaiting position first awaiting fresh others pending incomplete unfailed =>
      obtain ⟨afloat, clear, found, known, reran⟩ := awaiting
      exact .awaiting position first ⟨afloat.within harmless.toGrows,
        runtime ▸ clear, found, known.harmless afloat.tidy harmless, reran⟩
        fresh others (runtime ▸ pending) (runtime ▸ incomplete)
        (runtime ▸ unfailed)
  | produced position context produced consumed pending complete =>
      obtain ⟨graded, latest, found, completed, gradients, unapplied, logged⟩ :=
        produced
      refine .produced position context ⟨graded.grows harmless.toGrows, latest,
        found, completed, ?_, ?_, ⟨logged.produced, logged.once⟩⟩ consumed
        (runtime ▸ pending) (runtime ▸ complete)
      · intro index name handle held
        dsimp only at held
        rw [runtime] at held
        obtain ⟨value, listed, restored⟩ := gradients held
        have holds : course.session.Holds handle := ⟨_, held⟩
        refine ⟨value, listed, fun calm => ?_⟩
        exact (harmless.spares handle holds (graded.tidy.below holds)).trans
          (restored calm)
      · dsimp only
        rw [runtime]
        exact unapplied

theorem Sound.session (sound : Sound careful course) (session : Session τ γ) :
    Sound careful { course with session := session } :=
  ⟨⟨sound.logged.produced, sound.logged.once⟩, sound.reran⟩

theorem Kept.harmless (kept : Kept careful course) {session : Session τ γ}
    (harmless : course.session.Harmless session) :
    Kept careful { course with session := session } :=
  ⟨kept.sound.session session, kept.phase.harmless harmless⟩

theorem Kept.spares {α : Type} (kept : Kept careful course)
    {program : Stepping τ γ α}
    (spares : ∀ kept, program.Respects (Spares kept)) :
    (inside program).Leads course fun _ next => Kept careful next := by
  apply leads_within.mpr
  exact (spares course.session.Holds course.session).mono
    fun _ _ harmless => kept.harmless harmless

theorem Phase.exchanging (phase : Phase careful course)
    (unpending : course.session.runtime.pending = false)
    {session : Session τ γ}
    (exchanging : Exchanging course.session session) :
    Phase careful { course with session := session } := by
  cases phase with
  | failed tidy failed consumed =>
      exact .failed exchanging.tidy (exchanging.failed failed) consumed
  | resting resting consumed =>
      refine .resting ⟨exchanging.tidy, ?_, ?_, ?_⟩ consumed
      · intro index name
        exact (exchanging.gradients index name).trans (resting.clear index name)
      · exact exchanging.pending.trans resting.pending
      · exact exchanging.backwardComplete.trans resting.backwardComplete
  | awaiting position first awaiting fresh others pending incomplete unfailed =>
      rw [unpending] at pending
      cases pending
  | produced position context produced consumed pending complete =>
      rw [unpending] at pending
      cases pending

theorem Phase.tidy (phase : Phase careful course) : course.session.Tidy := by
  cases phase with
  | failed tidy failed consumed => exact tidy
  | resting resting consumed => exact resting.tidy
  | awaiting position first awaiting fresh others pending incomplete unfailed =>
      exact awaiting.afloat.tidy
  | produced position context produced consumed pending complete =>
      exact produced.graded.tidy

/-! The operations. -/

theorem Kept.exchanges {α : Type} (kept : Kept careful course)
    {program : Stepping τ γ α}
    (exchanging : course.session.Tidy → program.Leads course.session
      fun _ next => Exchanging course.session next)
    (refuses : course.session.runtime.pending = true →
      program.Leads course.session fun _ next => next = course.session) :
    (inside program).Leads course fun _ next => Kept careful next := by
  apply leads_within.mpr
  cases pending : course.session.runtime.pending with
  | false =>
      apply (exchanging kept.phase.tidy).mono
      exact fun _ session exchanging => ⟨kept.sound.session session,
        kept.phase.exchanging pending exchanging⟩
  | true =>
      apply (refuses pending).mono
      intro _ session same
      rw [same]
      exact kept

/-! What a pending forward refuses. -/

theorem loadStateDict_refuses (kinds : Kinds τ γ) {session : Session τ γ}
    (pending : session.runtime.pending = true)
    (checkpoint : List (Nat × Leaf τ γ)) (strict assign : Bool) :
    (loadStateDict kinds checkpoint strict assign).Leads session
      fun _ next => next = session := by
  apply leads_get_bind.mpr
  apply Leads.across (Ending (fun _ _ => False) fun _ next => next = session)
  · apply leads_get_bind.mpr
    dsimp only
    rw [pending, Bool.true_or, if_pos rfl]
    rfl
  · exact fun _ _ impossible => impossible.elim
  · exact fun _ _ same => same

theorem loadOptimizer_refuses (kinds : Kinds τ γ) (attached : Attached γ)
    {session : Session τ γ} (pending : session.runtime.pending = true)
    (checkpoint : SavedOptimizer τ γ) :
    (loadOptimizer kinds attached checkpoint).Leads session
      fun _ next => next = session := by
  have refused : checkOptimizer attached session.runtime checkpoint =
      .error (.error
        "TRAINPOOL_CHECKPOINT_UNSUPPORTED: pending training step") := by
    unfold checkOptimizer
    rw [pending, if_pos rfl]
  apply Leads.across (Ending (fun _ _ => False) fun _ next => next = session)
  · apply leads_get_bind.mpr
    rw [refused]
    rfl
  · exact fun _ _ impossible => impossible.elim
  · exact fun _ _ same => same

theorem convertDtype_refuses (kinds : Kinds τ γ) {session : Session τ γ}
    (pending : session.runtime.pending = true) (dtype : Nat) :
    (convertDtype kinds dtype).Leads session
      fun _ next => next = session := by
  apply leads_get_bind.mpr
  dsimp only
  rw [pending, if_pos rfl]
  rfl

theorem zeroGrad_kept (kept : Kept careful course) (setToNone : Bool)
    (calm : careful → course.session.Calm) :
    (inside (Sequential.zeroGrad setToNone)).Leads course
      fun _ next => Kept careful next := by
  apply leads_within.mpr
  suffices phase : (Sequential.zeroGrad setToNone).Leads course.session
      fun _ session => Phase careful { course with session := session } by
    exact phase.mono fun _ session phase => ⟨kept.sound.session session, phase⟩
  have thins := zeroGrad_thinned setToNone course.session
  -- What the records hold once all gradients of the stages are gone.
  have rests : ∀ middle, Thinned course.session middle →
      (∀ index < course.session.runtime.stages.length, ∀ name,
        middle.runtime.held (index, .gradient name) = none) →
      (∀ index name handle,
        course.session.runtime.held (index, .gradient name) = some handle →
          index < course.session.runtime.stages.length) →
      Resting { course with session := { middle with
        runtime := { middle.runtime with
          pending := false, backwardComplete := false } } } := by
    intro middle thinned gone bound
    have tidy := kept.phase.tidy.thinned thinned
    refine ⟨⟨tidy.older, tidy.named⟩, ?_, rfl, rfl⟩
    intro index name
    cases held : middle.runtime.held (index, .gradient name) with
    | none => exact held
    | some handle =>
        have inside := bound index name handle (thinned.held held)
        rw [gone index inside name] at held
        cases held
  cases kept.phase with
  | failed tidy failed consumed =>
      apply thins.mono
      intro result next given
      cases result with
      | ok _ =>
          obtain ⟨middle, thinned, _, rfl⟩ := given
          have tidy := tidy.thinned thinned
          exact .failed ⟨tidy.older, tidy.named⟩ (thinned.failed.trans failed)
            consumed
      | error raised =>
          exact .failed (tidy.thinned given) (given.failed.trans failed)
            consumed
  | resting resting consumed =>
      have absent : ∀ index name handle,
          course.session.runtime.held (index, .gradient name) ≠
            some handle := by
        intro index name handle held
        rw [resting.clear index name] at held
        cases held
      apply thins.mono
      intro result next given
      cases result with
      | ok _ =>
          obtain ⟨middle, thinned, gone, rfl⟩ := given
          exact .resting (rests middle thinned gone fun index name handle held =>
            absurd held (absent index name handle)) consumed
      | error raised =>
          refine .resting ⟨resting.tidy.thinned given, ?_,
            given.pending.trans resting.pending,
            given.backwardComplete.trans resting.backwardComplete⟩ consumed
          intro index name
          cases held : next.runtime.held (index, .gradient name) with
          | none => rfl
          | some handle =>
              exact absurd (given.held held) (absent index name handle)
  | awaiting position first awaiting fresh others pending incomplete unfailed =>
      apply (zeroGrad_refuses setToNone pending incomplete).mono
      intro _ next same
      rw [same]
      exact kept.phase
  | produced position context produced consumed pending complete =>
      obtain ⟨graded, latest, found, completed, gradients, unapplied, logged⟩ :=
        produced
      have unchanged : careful → (Sequential.zeroGrad setToNone).Leads
          course.session (Ending (fun _ _ => True)
            fun _ next => next = course.session) :=
        fun careful => zeroGrad_calm setToNone (calm careful)
      unfold Leads at thins unchanged ⊢
      generalize (Sequential.zeroGrad setToNone).run course.session = ended
        at thins unchanged ⊢
      obtain ⟨result, next⟩ := ended
      cases result with
      | ok _ =>
          obtain ⟨middle, thinned, gone, rfl⟩ := thins
          refine .resting (rests middle thinned gone ?_) consumed
          intro index name handle held
          obtain ⟨entries, listed, _⟩ := graded.trained held
          have inside := (List.getElem?_eq_some_iff.mp listed).1
          unfold Runtime.roster at inside
          rwa [List.length_map] at inside
      | error raised =>
          refine .produced position context ⟨graded.thinned thins, latest,
            found, completed, ?_, ?_, ⟨logged.produced, logged.once⟩⟩ consumed
            (thins.pending.trans pending)
            (thins.backwardComplete.trans complete)
          · intro index name handle held
            obtain ⟨value, listed, restored⟩ := gradients (thins.held held)
            refine ⟨value, listed, fun careful => ?_⟩
            rw [show next = course.session from unchanged careful]
            exact restored careful
          · intro entry member same
            have absent := unapplied entry member same
            dsimp only
            cases held : next.runtime.held
                (entry.key.1, .gradient entry.key.2) with
            | none => rfl
            | some handle =>
                have known := thins.held held
                rw [absent] at known
                cases known

end

end GraphSession

end TrainPool
