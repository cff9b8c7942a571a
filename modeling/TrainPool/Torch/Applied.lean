import TrainPool.Torch.Applying

namespace TrainPool

open HandleStore Failing Training

/-! Which gradients the steps of a graph runtime apply. -/

variable {τ γ σ : Type}

namespace GraphSession

open Session

/-! But for its log, the step is the one of the optimizer. -/

section

variable (model : GraphModel τ γ σ)

theorem inside_projects {α : Type} (program : Stepping τ γ α) :
    Projects GraphSession.session
      (inside program : GraphStepping τ γ σ α) program :=
  projects_within (fun _ _ => rfl) program

theorem applyParameter_projects (index : Nat) (name : ParameterName) :
    Projects GraphSession.session (applyParameter model index name)
      (stepParameter model.optimizer index name) := by
  apply Projects.noted
  · intro whole
    cases applicable whole.session index name with
    | none => rfl
    | some value => rfl
  · exact inside_projects _

theorem applyRecord_projects (index : Nat) :
    Projects GraphSession.session (applyRecord model index)
      (stepRecord model.optimizer index) := by
  apply Projects.get
  intro whole
  cases whole.session.runtime.stages[index]? with
  | none => exact fun _ => ⟨rfl, rfl⟩
  | some record =>
      dsimp only
      split
      · exact .each (applyParameter_projects model index) _
      · exact fun _ => ⟨rfl, rfl⟩

theorem step_projects :
    Projects GraphSession.session (step model)
      (Training.step model.optimizer) := by
  apply Projects.get
  intro whole
  dsimp only
  split
  · exact fun _ => ⟨rfl, rfl⟩
  · apply (inside_projects _).bind
    intro _
    apply Projects.rescue
    · apply (Projects.each (applyRecord_projects model) _).bind
      intro _
      apply Projects.bind
      · exact inside_projects _
      · exact fun _ => inside_projects _
    · exact fun raised => inside_projects _

end

/-- A step applies what a backward has produced that has been through all
groups, and nothing of it twice.  Its values are those that were produced where
`careful` holds. -/
structure Logged (careful : Prop) (course : GraphSession τ γ σ) : Prop where
  produced : ∀ entry ∈ course.applied, ∃ position context value,
    entry.latest = some position ∧
      course.contexts[position]? = some context ∧ context.completed = true ∧
        (entry.key, value) ∈ context.produced ∧
          (careful → entry.value = value)
  once : (course.applied.map fun entry => (entry.latest, entry.key)).Nodup

/-- A backward has been through all groups, and what it has produced is still
to be applied. -/
structure Produced (careful : Prop) (position : Nat)
    (context : GraphContext τ γ σ) (course : GraphSession τ γ σ) : Prop where
  graded : course.session.Graded
  latest : course.latest = some position
  found : course.contexts[position]? = some context
  completed : context.completed = true
  gradients : ∀ {index name handle},
    course.session.runtime.held (index, .gradient name) = some handle →
      ∃ value, ((index, name), value) ∈ context.produced ∧
        (careful → course.session.store.restore handle = some value)
  unapplied : ∀ entry ∈ course.applied, entry.latest = some position →
    course.session.runtime.held (entry.key.1, .gradient entry.key.2) = none
  logged : Logged careful course

/-- A step has come to some point; what it began with is applied or still
there. -/
structure Underway (careful : Prop) (start : GraphSession τ γ σ)
    (position : Nat) (context : GraphContext τ γ σ)
    (course : GraphSession τ γ σ) : Prop
    extends Produced careful position context course where
  contexts : course.contexts = start.contexts
  applied : ∀ {index name handle},
    start.session.runtime.held (index, .gradient name) = some handle →
      (course.session.runtime.held (index, .gradient name) = some handle ∧
        course.session.store.restore handle =
          start.session.store.restore handle) ∨
      ∃ value, ⟨some position, (index, name), value⟩ ∈ course.applied ∧
        ∀ known, start.session.store.restore handle = some known →
          value = known

structure Halted (careful : Prop) (start course : GraphSession τ γ σ) :
    Prop where
  tidy : course.session.Tidy
  contexts : course.contexts = start.contexts
  logged : Logged careful course

def Fewer (course next : GraphSession τ γ σ) : Prop :=
  ∀ index name, course.session.runtime.held (index, .gradient name) = none →
    next.session.runtime.held (index, .gradient name) = none

section

variable {careful : Prop} {start course : GraphSession τ γ σ} {position : Nat}
  {context : GraphContext τ γ σ}

theorem applicable_eq {session : Session τ γ} (graded : session.Graded)
    (index : Nat) (name : ParameterName) :
    applicable session index name =
      (session.runtime.held (index, .gradient name)).map session.read := by
  unfold applicable
  cases found : session.runtime.stages[index]? with
  | none =>
      cases held : session.runtime.held (index, .gradient name) with
      | none => rfl
      | some gradient =>
          obtain ⟨entries, listed, _⟩ := graded.trained held
          change (session.runtime.stages.map _)[index]? = _ at listed
          rw [List.getElem?_map, found] at listed
          cases listed
  | some record =>
      rw [Runtime.held_of_stage found]
      change ((record.stage.weightOf name).bind fun _ => _) =
        (record.gradients.lookup name).map _
      cases grad : record.gradients.lookup name with
      | none => cases record.stage.weightOf name <;> rfl
      | some gradient =>
          have held := Runtime.held_of_stage found (.gradient name)
          change _ = record.gradients.lookup name at held
          rw [grad] at held
          obtain ⟨⟨weight, owned⟩, trains⟩ := (graded.trained held).weight found
          rw [owned]
          simp [trains]

def logOf (position : Nat) (key : Nat × ParameterName)
    (course : GraphSession τ γ σ) : List (Application τ) :=
  ((course.session.runtime.held (key.1, .gradient key.2)).map fun handle =>
    ⟨some position, key, course.session.read handle⟩).toList

theorem Produced.log (produced : Produced careful position context course)
    (key : Nat × ParameterName) (session : Session τ γ) :
    Logged careful { course with
      applied := course.applied ++ logOf position key course
      session := session } := by
  obtain ⟨index, name⟩ := key
  unfold logOf
  cases held : course.session.runtime.held (index, .gradient name) with
  | none =>
      rw [Option.map_none, Option.toList_none, List.append_nil]
      exact ⟨produced.logged.produced, produced.logged.once⟩
  | some handle =>
      rw [Option.map_some, Option.toList_some]
      constructor
      · intro entry member
        rcases List.mem_append.mp member with member | member
        · exact produced.logged.produced entry member
        · rw [List.mem_singleton.mp member]
          obtain ⟨value, listed, known⟩ := produced.gradients held
          refine ⟨position, context, value, rfl, produced.found,
            produced.completed, listed, ?_⟩
          intro calm
          change (course.session.store.restore handle).getD _ = value
          rw [known calm]
          rfl
      · rw [List.map_append]
        apply List.Nodup.append produced.logged.once (List.nodup_singleton _)
        intro key member here
        obtain ⟨entry, listed, rfl⟩ := List.mem_map.mp member
        obtain ⟨latest, same⟩ := Prod.mk.inj (List.mem_singleton.mp here)
        have gone := produced.unapplied entry listed latest
        rw [same, held] at gone
        cases gone

theorem Underway.advances
    (underway : Underway careful start position context course)
    {index : Nat} {name : ParameterName} {session : Session τ γ}
    (advanced : Advanced (index, name) course.session session) :
    Underway careful start position context { course with
      applied := course.applied ++ logOf position (index, name) course
      session := session } := by
  have held := advanced.held
  have but : ∀ {place other handle}, session.runtime.held
      (place, .gradient other) = some handle →
        course.session.runtime.held (place, .gradient other) = some handle ∧
          session.store.restore handle =
            course.session.store.restore handle := by
    intro place other handle holds
    rw [held] at holds
    split at holds
    · cases holds
    · rename_i different
      exact ⟨holds, advanced.contents handle ⟨place, other, different, holds⟩⟩
  refine ⟨⟨advanced.graded, underway.latest, underway.found,
    underway.completed, ?_, ?_, underway.log (index, name) session⟩,
    underway.contexts, ?_⟩
  · intro place other handle holds
    obtain ⟨before, contents⟩ := but holds
    obtain ⟨value, listed, known⟩ := underway.gradients before
    exact ⟨value, listed, fun calm => contents.trans (known calm)⟩
  · intro entry member latest
    dsimp only at member ⊢
    rw [held]
    split
    · rfl
    · rename_i different
      rcases List.mem_append.mp member with member | member
      · exact underway.unapplied entry member latest
      · obtain ⟨handle, _, rfl⟩ :=
          Option.map_eq_some_iff.mp (Option.mem_toList.mp member)
        exact absurd rfl different
  · intro place other handle holds
    dsimp only
    rcases underway.applied holds with ⟨here, contents⟩ | ⟨value, listed, read⟩
    · by_cases key : (place, other) = (index, name)
      · obtain ⟨rfl, rfl⟩ := Prod.mk.inj key
        refine .inr ⟨course.session.read handle, ?_, ?_⟩
        · unfold logOf
          rw [here]
          exact List.mem_append_right _ (List.mem_singleton_self _)
        · intro known before
          change (course.session.store.restore handle).getD _ = known
          rw [contents, before]
          rfl
      · left
        have later := advanced.contents handle ⟨place, other, key, here⟩
        rw [held, if_neg key]
        exact ⟨here, later.trans contents⟩
    · exact .inr ⟨value, List.mem_append_left _ listed, read⟩

variable (model : GraphModel τ γ σ)

theorem applyParameter_underway
    (underway : Underway careful start position context course)
    (index : Nat) (name : ParameterName) :
    (applyParameter model index name).Leads course (Ending
      (fun _ next => Underway careful start position context next ∧
        Fewer course next ∧
          next.session.runtime.held (index, .gradient name) = none)
      fun _ next => Halted careful start next) := by
  have noted : ((applicable course.session index name).elim course fun value =>
      { course with applied := course.applied ++
          [⟨course.latest, (index, name), value⟩] }) =
      { course with
        applied := course.applied ++ logOf position (index, name) course } := by
    unfold logOf
    rw [applicable_eq underway.graded]
    cases course.session.runtime.held (index, .gradient name) with
    | none =>
        rw [Option.map_none, Option.map_none, Option.toList_none,
          List.append_nil]
        rfl
    | some handle =>
        rw [Option.map_some, Option.map_some, Option.toList_some,
          ← underway.latest]
        rfl
  apply leads_modify_bind.mpr
  rw [noted]
  apply leads_within.mpr
  apply (stepParameter_advanced model.optimizer underway.graded index
    name).mono
  intro result next given
  cases result with
  | ok _ =>
      refine ⟨underway.advances given, ?_, ?_⟩
      · intro place other gone
        dsimp only
        rw [given.held]
        split
        · rfl
        · exact gone
      · dsimp only
        rw [given.held, if_pos rfl]
  | error raised =>
      exact ⟨given, underway.contexts, underway.log (index, name) next⟩

theorem applyParameters_underway
    (underway : Underway careful start position context course) (index : Nat)
    (names : List ParameterName) :
    (each (applyParameter model index) names).Leads course (Ending
      (fun _ next => Underway careful start position context next ∧
        Fewer course next ∧ ∀ name ∈ names,
          next.session.runtime.held (index, .gradient name) = none)
      fun _ next => Halted careful start next) := by
  induction names generalizing course with
  | nil => exact ⟨underway, fun _ _ gone => gone, nofun⟩
  | cons name rest ih =>
      apply (applyParameter_underway model underway index name).bind
      · intro _ next given
        obtain ⟨underway, fewer, gone⟩ := given
        apply (ih underway).mono
        intro result final given
        cases result with
        | ok _ =>
            obtain ⟨underway, fewer', others⟩ := given
            refine ⟨underway, fun place other gone =>
              fewer' place other (fewer place other gone), ?_⟩
            intro other member
            rcases List.mem_cons.mp member with rfl | member
            · exact fewer' index other gone
            · exact others other member
        | error raised => exact given
      · exact fun _ _ halted => halted

theorem applyRecord_underway
    (underway : Underway careful start position context course)
    (index : Nat) :
    (applyRecord model index).Leads course (Ending
      (fun _ next => Underway careful start position context next ∧
        Fewer course next ∧ ∀ name,
          next.session.runtime.held (index, .gradient name) = none)
      fun _ next => Halted careful start next) := by
  have none_of : (∀ name, ¬course.session.runtime.Trains (index, name)) →
      ∀ name, course.session.runtime.held (index, .gradient name) = none := by
    intro untrained name
    cases held : course.session.runtime.held (index, .gradient name) with
    | none => rfl
    | some handle =>
        exact absurd (underway.graded.trained held) (untrained name)
  apply leads_get_bind.mpr
  cases found : course.session.runtime.stages[index]? with
  | none =>
      refine ⟨underway, fun _ _ gone => gone, none_of ?_⟩
      rintro name ⟨entries, listed, _⟩
      change (course.session.runtime.stages.map _)[index]? = _ at listed
      rw [List.getElem?_map, found] at listed
      cases listed
  | some record =>
      dsimp only
      split
      · apply (applyParameters_underway model underway index
          (record.stage.weights.map Weight.name)).mono
        intro result next given
        cases result with
        | ok _ =>
            obtain ⟨underway', fewer, visited⟩ := given
            refine ⟨underway', fewer, ?_⟩
            intro name
            by_cases member : name ∈ record.stage.weights.map Weight.name
            · exact visited name member
            · apply fewer
              cases held : course.session.runtime.held
                  (index, .gradient name) with
              | none => rfl
              | some handle =>
                  obtain ⟨entries, listed, owned⟩ :=
                    underway.graded.trained held
                  change (course.session.runtime.stages.map _)[index]? = _
                    at listed
                  rw [List.getElem?_map, found] at listed
                  cases listed
                  obtain ⟨weight, within, same⟩ := List.mem_map.mp owned
                  exact absurd (List.mem_map.mpr ⟨weight, within,
                    congrArg Prod.fst same⟩) member
        | error raised => exact given
      · rename_i untrained
        refine ⟨underway, fun _ _ gone => gone, none_of ?_⟩
        rintro name ⟨entries, listed, owned⟩
        change (course.session.runtime.stages.map _)[index]? = _ at listed
        rw [List.getElem?_map, found] at listed
        cases listed
        obtain ⟨weight, within, same⟩ := List.mem_map.mp owned
        exact untrained (List.any_eq_true.mpr
          ⟨weight, within, congrArg Prod.snd same⟩)

theorem applyRecords_underway
    (underway : Underway careful start position context course)
    (indices : List Nat) :
    (each (applyRecord model) indices).Leads course (Ending
      (fun _ next => Underway careful start position context next ∧
        Fewer course next ∧ ∀ index ∈ indices, ∀ name,
          next.session.runtime.held (index, .gradient name) = none)
      fun _ next => Halted careful start next) := by
  induction indices generalizing course with
  | nil => exact ⟨underway, fun _ _ gone => gone, nofun⟩
  | cons index rest ih =>
      apply (applyRecord_underway model underway index).bind
      · intro _ next given
        obtain ⟨underway, fewer, gone⟩ := given
        apply (ih underway).mono
        intro result final given
        cases result with
        | ok _ =>
            obtain ⟨underway, fewer', others⟩ := given
            refine ⟨underway, fun place other gone =>
              fewer' place other (fewer place other gone), ?_⟩
            intro place member name
            rcases List.mem_cons.mp member with rfl | member
            · exact fewer' place name (gone name)
            · exact others place member name
        | error raised => exact given
      · exact fun _ _ halted => halted

structure Resting (course : GraphSession τ γ σ) : Prop where
  tidy : course.session.Tidy
  clear : course.session.runtime.Clear
  pending : course.session.runtime.pending = false
  backwardComplete : course.session.runtime.backwardComplete = false

/-- Each gradient that the records held has been applied. -/
def AllApplied (start course : GraphSession τ γ σ) : Prop :=
  ∀ index name handle,
    start.session.runtime.held (index, .gradient name) = some handle →
      ∃ value, ⟨start.latest, (index, name), value⟩ ∈ course.applied ∧
        ∀ known, start.session.store.restore handle = some known →
          value = known

theorem step_underway (produced : Produced careful position context course)
    (failed : course.session.runtime.failed = false)
    (complete : course.session.runtime.backwardComplete = true) :
    (step model).Leads course (Ending
      (fun _ next => Resting next ∧ next.contexts = course.contexts ∧
        Logged careful next ∧ AllApplied course next)
      fun _ next => next.session.runtime.failed = true ∧
        Halted careful course next) := by
  let ready : GraphSession τ γ σ := { course with
    session := { course.session with
      context := "optimizer admission did not start" } }
  have began : Underway careful course position context ready := by
    obtain ⟨⟨tidy, trained, apart⟩, latest, found, completed, gradients,
      unapplied, logged⟩ := produced
    exact ⟨⟨⟨⟨tidy.older, tidy.named⟩, trained, apart⟩, latest, found,
      completed, gradients, unapplied, ⟨logged.produced, logged.once⟩⟩, rfl,
      fun held => .inl ⟨held, rfl⟩⟩
  have body : (do
      each (applyRecord model)
        (List.range course.session.runtime.stages.length)
      changing ({ · with pending := false, backwardComplete := false })
      inside call : GraphStepping τ γ σ Unit).Leads ready (Ending
        (fun _ next => Resting next ∧ next.contexts = course.contexts ∧
          Logged careful next ∧ AllApplied course next)
        fun _ next => Halted careful course next) := by
    apply (applyRecords_underway model began _).bind
    · intro _ next given
      obtain ⟨underway, fewer, gone⟩ := given
      have clear : next.session.runtime.Clear := by
        intro index name
        by_cases bound : index < course.session.runtime.stages.length
        · exact gone index (List.mem_range.mpr bound) name
        · apply fewer
          cases held : course.session.runtime.held (index, .gradient name) with
          | none => rfl
          | some handle =>
              obtain ⟨entries, listed, _⟩ := produced.graded.trained held
              have inside := (List.getElem?_eq_some_iff.mp listed).1
              unfold Runtime.roster at inside
              rw [List.length_map] at inside
              exact absurd inside bound
      have all : AllApplied course next := by
        intro index name handle held
        rw [produced.latest]
        rcases underway.applied held with ⟨here, _⟩ | applied
        · rw [clear index name] at here
          cases here
        · exact applied
      apply leads_changing_bind.mpr
      apply leads_within.mpr
      let rested : Session τ γ := { next.session with
        runtime := { next.session.runtime with
          pending := false, backwardComplete := false } }
      have tidy : rested.Tidy :=
        ⟨underway.graded.tidy.older, underway.graded.tidy.named⟩
      apply (call_grows rested).mono
      intro result final grows
      have runtime := grows.runtime
      have logged : Logged careful { next with session := final } :=
        ⟨underway.logged.produced, underway.logged.once⟩
      cases result with
      | ok _ =>
          refine ⟨⟨tidy.grows grows, ?_, ?_, ?_⟩, underway.contexts, logged,
            all⟩
          · dsimp only
            rw [runtime]
            exact clear
          · dsimp only
            rw [runtime]
          · dsimp only
            rw [runtime]
      | error raised => exact ⟨tidy.grows grows, underway.contexts, logged⟩
    · exact fun _ _ halted => halted
  apply leads_get_bind.mpr
  dsimp only
  rw [failed, complete, if_neg (by decide)]
  apply leads_modify_bind.mpr
  apply body.rescue
  · exact fun _ _ given => given
  · intro raised next halted
    obtain ⟨tidy, contexts, logged⟩ := halted
    have fails : (failStep model raised : Stepping τ γ Unit).Leads
        next.session (Ending (fun _ _ => False) fun _ final =>
          final = { next.session with
            runtime := { next.session.runtime with failed := true } }) := by
      apply leads_modify_bind.mpr
      split
      · cases model.optimizer.snapshot with
        | error other => rfl
        | ok snapshot => rfl
      · rfl
    apply leads_within.mpr
    apply fails.mono
    intro result final given
    cases result with
    | ok _ => exact given.elim
    | error other =>
        rw [show final = _ from given]
        exact ⟨rfl, ⟨tidy.older, tidy.named⟩, contexts,
          ⟨logged.produced, logged.once⟩⟩

end

end GraphSession

end TrainPool
