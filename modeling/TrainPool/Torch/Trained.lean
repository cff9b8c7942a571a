import TrainPool.Torch.Constructing

namespace TrainPool

open HandleStore Failing Training

/-! What can be said of a graph runtime after any operations, whichever calls
of the store have raised. -/

variable {τ γ σ : Type}

namespace GraphSession

open Session

/-- What a runtime that has been constructed comes to. -/
def Reaches (model : GraphModel τ γ σ) (prepared : Prepared τ γ)
    (turns : List (Turn τ γ σ)) (course : GraphSession τ γ σ) : Prop :=
  ∃ session ir start, (construct model prepared).run
    { session := session, ir := ir } = (.ok (), start) ∧
      course = run model turns start

section

variable {model : GraphModel τ γ σ} {prepared : Prepared τ γ}
  {turns : List (Turn τ γ σ)} {course next : GraphSession τ γ σ}

theorem Reaches.kept (reaches : Reaches model prepared turns course) :
    Kept (Careful turns) course := by
  obtain ⟨session, ir, start, constructed, rfl⟩ := reaches
  have kept := @construct_kept _ _ _ ir model prepared (Careful turns) session
  unfold Leads at kept
  rw [constructed] at kept
  exact run_kept model kept turns id

/-! Between a forward and its backward. -/

theorem awaiting_harmless (pending : course.session.runtime.pending = true)
    (incomplete : course.session.runtime.backwardComplete = false)
    (operation : Operation τ γ σ)
    (other : ∀ position gradOutputs,
      operation ≠ .backward position gradOutputs) :
    (perform model operation).Leads course fun _ next => ∃ session,
      course.session.Harmless session ∧
        next = { course with session := session } := by
  have stays : ∃ session, course.session.Harmless session ∧
      course = { course with session := session } :=
    ⟨course.session, .refl _, rfl⟩
  have refuses : ∀ {α : Type} {program : Stepping τ γ α},
      (program.Leads course.session fun _ next => next = course.session) →
      (inside program).Leads course fun _ next => ∃ session,
        course.session.Harmless session ∧
          next = { course with session := session } := by
    intro α program refuses
    apply leads_within.mpr
    apply refuses.mono
    intro _ next same
    rw [same]
    exact stays
  have reads : ∀ {α : Type} {program : Stepping τ γ α},
      (∀ kept, program.Respects (Spares kept)) →
      (inside program).Leads course fun _ next => ∃ session,
        course.session.Harmless session ∧
          next = { course with session := session } := by
    intro α program spares
    apply leads_within.mpr
    apply (spares course.session.Holds course.session).mono
    exact fun _ session harmless => ⟨session, harmless, rfl⟩
  cases operation with
  | forward inputs training autocast =>
      have refused : ∃ message,
          refuseGraph course.session.runtime = some message := by
        unfold refuseGraph
        rw [pending, if_pos rfl]
        split
        · exact ⟨_, rfl⟩
        · exact ⟨_, rfl⟩
      obtain ⟨message, refused⟩ := refused
      apply leads_get_bind.mpr
      rw [refused]
      exact stays
  | backward position gradOutputs => exact absurd rfl (other _ _)
  | zeroGrad setToNone =>
      exact refuses (zeroGrad_refuses setToNone pending incomplete)
  | step =>
      apply leads_get_bind.mpr
      dsimp only
      rw [incomplete, Bool.not_false, Bool.or_true, if_pos rfl]
      exact stays
  | loadStateDict checkpoint strict assign =>
      apply (refuses (loadStateDict_refuses model.kinds pending checkpoint
        strict assign)).bind
      · exact fun _ _ same => same
      · exact fun _ _ same => same
  | loadOptimizer checkpoint =>
      exact refuses (loadOptimizer_refuses model.kinds model.attached pending
        checkpoint)
  | convertDtype dtype =>
      exact refuses (convertDtype_refuses model.kinds pending dtype)
  | stateDict =>
      apply (reads fun _ => stateDict_spares).bind
      · exact fun _ _ same => same
      · exact fun _ _ same => same
  | optimizerStateDict =>
      apply (reads fun _ => optimizerStateDict_spares).bind
      · exact fun _ _ same => same
      · exact fun _ _ same => same

theorem awaiting_run (tidy : course.session.Tidy)
    (pending : course.session.runtime.pending = true)
    (incomplete : course.session.runtime.backwardComplete = false)
    (later : List (Turn τ γ σ)) (others : ∀ turn ∈ later,
      ∀ position gradOutputs, turn.1 ≠ .backward position gradOutputs) :
    ∃ session, course.session.Harmless session ∧
      run model later course = { course with session := session } := by
  induction later generalizing course with
  | nil => exact ⟨course.session, .refl _, rfl⟩
  | cons turn rest ih =>
      have quiet : course.session.Harmless
          { course.session with faults := turn.2 } :=
        ⟨⟨rfl, rfl, rfl, rfl, le_rfl⟩, fun _ _ _ => rfl⟩
      have performed := @awaiting_harmless _ _ _ model { course with
        session := { course.session with faults := turn.2 } } pending incomplete
        turn.1 (others turn List.mem_cons_self)
      obtain ⟨session, harmless, same⟩ := performed
      have harmless := quiet.trans harmless
      have runtime := harmless.runtime
      have ends := @ih { course with session := session }
        (tidy.grows harmless.toGrows) (runtime ▸ pending) (runtime ▸ incomplete)
        fun other member => others other (List.mem_cons_of_mem _ member)
      obtain ⟨final, later, ended⟩ := ends
      refine ⟨final, harmless.trans later, ?_⟩
      change run model rest (GraphSession.turn model course turn) = _
      unfold GraphSession.turn
      rw [same]
      exact ended

/-! After a failure. -/

def Inert (course next : GraphSession τ γ σ) : Prop :=
  next.session.runtime.failed = true ∧ next.contexts = course.contexts ∧
    next.applied = course.applied

theorem perform_inert {careful : Prop} (kept : Kept careful course)
    (failed : course.session.runtime.failed = true)
    (operation : Operation τ γ σ) :
    (perform model operation).Leads course
      fun _ next => Inert course next := by
  have stays : Inert course course := ⟨failed, rfl, rfl⟩
  have beside : ∀ {α : Type} {program : Stepping τ γ α},
      (program.Leads course.session fun _ next =>
        next.runtime.failed = true) →
      (inside program).Leads course fun _ next => Inert course next := by
    intro α program leads
    apply leads_within.mpr
    exact leads.mono fun _ _ failed => ⟨failed, rfl, rfl⟩
  have consumed : AllConsumed course := by
    cases kept.phase with
    | failed tidy failed consumed => exact consumed
    | resting resting consumed => exact consumed
    | awaiting position first awaiting fresh others pending _ unfailed =>
        rw [failed] at unfailed
        cases unfailed
    | produced position context produced consumed pending complete =>
        exact consumed
  have tidy := kept.phase.tidy
  cases operation with
  | forward inputs training autocast =>
      apply leads_get_bind.mpr
      unfold refuseGraph
      rw [failed, Bool.true_or, if_pos rfl]
      exact stays
  | backward position gradOutputs =>
      apply leads_get_bind.mpr
      cases found : course.contexts[position]? with
      | none => exact stays
      | some context =>
          dsimp only
          rw [consumed context (List.mem_of_getElem? found), if_pos rfl]
          exact stays
  | zeroGrad setToNone =>
      apply beside
      apply (zeroGrad_thinned setToNone course.session).mono
      intro result next given
      cases result with
      | ok _ =>
          obtain ⟨middle, thinned, _, rfl⟩ := given
          exact thinned.failed.trans failed
      | error raised => exact given.failed.trans failed
  | step =>
      apply leads_get_bind.mpr
      dsimp only
      rw [failed, Bool.true_or, if_pos rfl]
      exact stays
  | loadStateDict checkpoint strict assign =>
      apply (beside ((loadStateDict_exchanging model.kinds tidy checkpoint
        strict assign).mono fun _ _ exchanging =>
          exchanging.failed failed)).bind
      · exact fun _ _ inert => inert
      · exact fun _ _ inert => inert
  | loadOptimizer checkpoint =>
      exact beside ((loadOptimizer_exchanging model.kinds model.attached tidy
        checkpoint).mono fun _ _ exchanging => exchanging.failed failed)
  | convertDtype dtype =>
      exact beside ((convertDtype_exchanging model.kinds tidy dtype).mono
        fun _ _ exchanging => exchanging.failed failed)
  | stateDict =>
      have reads : (stateDict : Stepping τ γ _).Leads course.session
          fun _ next => next.runtime.failed = true :=
        (@stateDict_spares _ _ (fun _ => False) course.session).mono
          fun _ _ spares => spares.runtime ▸ failed
      apply (beside reads).bind
      · exact fun _ _ inert => inert
      · exact fun _ _ inert => inert
  | optimizerStateDict =>
      have reads : (optimizerStateDict : Stepping τ γ _).Leads course.session
          fun _ next => next.runtime.failed = true :=
        (@optimizerStateDict_spares _ _ (fun _ => False) course.session).mono
          fun _ _ spares => spares.runtime ▸ failed
      apply (beside reads).bind
      · exact fun _ _ inert => inert
      · exact fun _ _ inert => inert

theorem run_inert (kept : Kept False course)
    (failed : course.session.runtime.failed = true)
    (later : List (Turn τ γ σ)) :
    Inert course (run model later course) := by
  induction later generalizing course with
  | nil => exact ⟨failed, rfl, rfl⟩
  | cons turn rest ih =>
      have quiet := kept.faults turn.2
      have performed := @perform_inert _ _ _ model _ False quiet failed turn.1
      have next := perform_kept model quiet turn.1 fun _ _ impossible =>
        impossible.elim
      obtain ⟨failed, contexts, applied⟩ := performed
      have ends := ih next failed
      exact ⟨ends.1, ends.2.1.trans contexts, ends.2.2.trans applied⟩

end

/-! Two modules, one after the other, each with one parameter. -/

theorem line_ordered : Dataflow.Ordered FxNode.name FxNode.inputs [0]
    [⟨1, [0], 0⟩, ⟨2, [1], 0⟩] := by
  decide

theorem line_distinct : ([0] : List NodeName).Nodup := by decide

theorem line_known : ∀ leaf ∈ ([.node 2] : List (OutputLeaf Nat)), ∀ name,
    leaf = .node name → name ∈ [0, 1, 2] := by
  intro leaf member name same
  cases List.mem_singleton.mp member
  cases same
  decide

def lineGraph : FxGraph Nat Unit where
  placeholders := [0]
  nodes := [⟨1, [0], 0⟩, ⟨2, [1], 0⟩]
  output := ⟨[.node 2], ()⟩
  distinct := line_distinct
  ordered := line_ordered
  known := line_known

def lineApply (_ : Nat) (state : ModuleState Nat) (node : FxNode)
    (arguments : List (Value Nat Nat Unit)) : Value Nat Nat Unit :=
  ⟨arguments.flatMap fun value => value.leaves.map fun
    | .tensor tensor => .tensor (tensor + (state.lookup node.name).getD 0)
    | leaf => leaf, ()⟩

def lineModel : GraphModel Nat Nat Unit where
  device := "cpu"
  onDevice _ := true
  operators _ := ⟨lineApply, fun _ _ _ _ => 0⟩
  autograd _ := {
    isFloatingPoint := fun _ => true
    requiresGrad := fun _ _ _ _ _ _ => true
    grad := fun _ _ _ outputs _ => some (outputs.map Prod.snd).sum
    add := Nat.add }
  declares nodes := ⟨(nodes.map FxNode.name).eraseDups, [], List.nodup_nil⟩
  named _ := Dataflow.nodup_eraseDups _
  syncModes _ := .ok ()
  exceeds _ _ _ := .ok false
  budget _ _ := .ok ()
  rounds := 1
  kinds := {
    shape := fun _ => []
    dtype := fun _ => 0
    floating := fun _ => true
    cast := fun _ value => value
    number := fun _ => none
    same := fun _ => rfl }
  attached := { sgd := true, check := fun _ => .ok () }
  optimizer := descent

def linePrepared : Prepared Nat Nat where
  parameter name := (10 * name, true)
  buffer _ := 0
  dormant := ⟨[], [], List.nodup_nil⟩
  named := List.nodup_nil
  parameterOrder := [1, 2]
  stateNames := [1, 2]
  options := ∅
  groupSize := 2

def lineFounded : GraphSession Nat Nat Unit where
  session := {
    runtime := { stages := [], dormant := .empty }
    store := storeOf []
    unread := fun _ => 0 }
  ir := lineGraph.makeIr (lineGraph.nodes.map fun node => [node])

def lineStart : GraphSession Nat Nat Unit :=
  ((construct lineModel linePrepared).run lineFounded).2

def lineForward : Turn Nat Nat Unit :=
  (.forward [⟨[.tensor 5], ()⟩] true false, [])

def lineBackward (position : Nat) : Turn Nat Nat Unit :=
  (.backward position [some 3], [])

theorem line_reaches (turns : List (Turn Nat Nat Unit)) :
    Reaches lineModel linePrepared turns (run lineModel turns lineStart) :=
  ⟨lineFounded.session, lineFounded.ir, lineStart, rfl, rfl⟩

def lineTurns : List (Turn Nat Nat Unit) :=
  [lineForward, lineBackward 0, (.step, []), lineForward, lineBackward 1]

section

variable {model : GraphModel τ γ σ} {prepared : Prepared τ γ}
  {turns : List (Turn τ γ σ)} {course next : GraphSession τ γ σ}

/-- No gradient is applied twice, none that no backward has produced, and none
of a backward that has not been through all groups.  Its value is the one that
was produced, where no call has raised that zeroes gradients. -/
theorem step_applies_once (reaches : Reaches model prepared turns course) :
    (course.applied.map fun entry => (entry.latest, entry.key)).Nodup ∧
      ∀ entry ∈ course.applied, ∃ position context value,
        entry.latest = some position ∧
          course.contexts[position]? = some context ∧
          context.completed = true ∧ (entry.key, value) ∈ context.produced ∧
            (Careful turns → entry.value = value) :=
  ⟨reaches.kept.sound.logged.once, reaches.kept.sound.logged.produced⟩

theorem step_applies_once_line :
    (((run lineModel lineTurns lineStart).applied.map
        fun entry => (entry.latest, entry.key)).Nodup ∧
      ∀ entry ∈ (run lineModel lineTurns lineStart).applied,
        ∃ position context value, entry.latest = some position ∧
          (run lineModel lineTurns lineStart).contexts[position]? =
            some context ∧
          context.completed = true ∧ (entry.key, value) ∈ context.produced ∧
            (Careful lineTurns → entry.value = value)) ∧
    (run lineModel lineTurns lineStart).applied =
      [⟨some 0, (0, 1), 3⟩, ⟨some 0, (1, 2), 3⟩] :=
  ⟨step_applies_once (line_reaches lineTurns), rfl⟩

/-- A step that returns leaves no gradient behind, and has applied each with
the value that the store held. -/
theorem step_applies_all (reaches : Reaches model prepared turns course)
    (faults : List (Option Raised))
    (returns : (step model).run { course with
      session := { course.session with faults := faults } } =
        (.ok (), next)) :
    Resting next ∧ AllApplied course next := by
  have kept := reaches.kept.faults faults
  have refused : (course.session.runtime.failed ||
      !course.session.runtime.backwardComplete) = false := by
    cases guarded : course.session.runtime.failed ||
        !course.session.runtime.backwardComplete with
    | false => rfl
    | true =>
        have raises : ((step model).run { course with
            session := { course.session with faults := faults } }).1 =
              .error (.error
                "Complete a successful backward before optimizer.step") := by
          unfold step
          rw [run_get_bind]
          dsimp only
          rw [if_pos guarded]
          rfl
        rw [returns] at raises
        cases raises
  obtain ⟨unfailed, complete⟩ := Bool.or_eq_false_iff.mp refused
  rw [Bool.not_eq_false'] at complete
  cases kept.phase with
  | failed tidy failed consumed =>
      rw [unfailed] at failed
      cases failed
  | resting resting consumed =>
      have incomplete := resting.backwardComplete
      rw [complete] at incomplete
      cases incomplete
  | awaiting position first awaiting fresh others pending incomplete _ =>
      rw [complete] at incomplete
      cases incomplete
  | produced position context produced consumed pending complete =>
      have steps := step_underway model produced unfailed complete
      unfold Leads at steps
      rw [returns] at steps
      exact ⟨steps.1, steps.2.2.2⟩

def lineStepped : GraphSession Nat Nat Unit :=
  ((step lineModel).run { run lineModel lineTurns lineStart with
    session := { (run lineModel lineTurns lineStart).session with
      faults := [] } }).2

theorem step_applies_all_line :
    Resting lineStepped ∧
      AllApplied (run lineModel lineTurns lineStart) lineStepped ∧
      lineStepped.applied.length = 4 := by
  obtain ⟨resting, all⟩ :=
    @step_applies_all _ _ _ _ _ _ _ lineStepped (line_reaches lineTurns) [] rfl
  exact ⟨resting, all, rfl⟩

/-- While a forward awaits its backward, nothing else that is asked of the
runtime changes what the records hold. -/
theorem awaiting_unchanged (reaches : Reaches model prepared turns course)
    (pending : course.session.runtime.pending = true)
    (incomplete : course.session.runtime.backwardComplete = false)
    (later : List (Turn τ γ σ)) (others : ∀ turn ∈ later,
      ∀ position gradOutputs, turn.1 ≠ .backward position gradOutputs) :
    (run model later course).session.runtime = course.session.runtime ∧
      (run model later course).contexts = course.contexts ∧
      ∀ slot handle, course.session.runtime.held slot = some handle →
        (run model later course).session.store.restore handle =
          course.session.store.restore handle := by
  have tidy := reaches.kept.phase.tidy
  obtain ⟨session, harmless, ended⟩ :=
    @awaiting_run _ _ _ model course tidy pending incomplete later others
  rw [ended]
  refine ⟨harmless.runtime, rfl, ?_⟩
  intro slot handle held
  exact harmless.spares handle ⟨slot, held⟩ (tidy.below ⟨slot, held⟩)

theorem awaiting_unchanged_line :
    (run lineModel [(.zeroGrad true, []), lineForward, (.step, []),
        (.convertDtype 16, [])] (run lineModel [lineForward]
          lineStart)).session.runtime =
      (run lineModel [lineForward] lineStart).session.runtime := by
  refine (awaiting_unchanged (line_reaches [lineForward]) rfl rfl _ ?_).1
  intro turn member position gradOutputs
  simp only [List.mem_cons, List.not_mem_nil, or_false] at member
  rcases member with rfl | rfl | rfl | rfl
  · exact nofun
  · exact nofun
  · exact nofun
  · exact nofun

/-- A runtime that has failed trains no more, whatever is asked of it. -/
theorem failed_inert (reaches : Reaches model prepared turns course)
    (failed : course.session.runtime.failed = true)
    (later : List (Turn τ γ σ)) :
    (run model later course).session.runtime.failed = true ∧
      (run model later course).contexts = course.contexts ∧
      (run model later course).applied = course.applied := by
  obtain ⟨session, ir, start, constructed, rfl⟩ := reaches
  have kept := @construct_kept _ _ _ ir model prepared False session
  unfold Leads at kept
  rw [constructed] at kept
  exact run_inert (run_kept model kept turns False.elim) failed later

/-- The second call of the forward runs out of memory. -/
theorem failed_inert_line :
    (run lineModel [lineForward, lineBackward 0, (.step, [])]
        (run lineModel [(lineForward.1, [none, some .outOfMemory])]
          lineStart)).applied =
      (run lineModel [(lineForward.1, [none, some .outOfMemory])]
        lineStart).applied :=
  (failed_inert (line_reaches [(lineForward.1, [none, some .outOfMemory])])
    rfl [lineForward, lineBackward 0, (.step, [])]).2.2

end

end GraphSession

end TrainPool
