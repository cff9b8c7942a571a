import TrainPool.Torch.Reversal

namespace TrainPool

open HandleStore Failing Training

/-! A backward of a graph runtime, from its start to its end. -/

variable {τ γ σ : Type}

namespace GraphSession

open Session

def Matches (session : Session τ γ) (ir : GraphIR γ σ) (ran : List (Ran τ)) :
    Prop :=
  ∀ (index : Nat) group stage, ir.groups[index]? = some group →
    (session.runtime.stages.map Record.stage)[index]? = some stage →
      ran[index]? = some (session.ranWith group stage)

def Rewound (start : GraphSession τ γ σ) (position : Nat)
    (first : GraphContext τ γ σ) (course : GraphSession τ γ σ) : Prop :=
  ∃ now, Reversing start position first now course

section

variable {start course next : GraphSession τ γ σ} {position : Nat}
  {first now : GraphContext τ γ σ}

theorem Rewound.drifts (rewound : Rewound start position first course)
    (clear : start.session.runtime.Clear) (drifts : Drifts course next) :
    Rewound start position first next := by
  obtain ⟨now, reversing⟩ := rewound
  exact ⟨now, reversing.drifts clear drifts⟩

theorem Rewound.respects {α : Type}
    (rewound : Rewound start position first course)
    (clear : start.session.runtime.Clear) {program : GraphStepping τ γ σ α}
    (respects : program.Respects Drifts) :
    program.Leads course fun _ next => Rewound start position first next :=
  (respects course).mono fun _ _ drifts => rewound.drifts clear drifts

theorem Rewound.bind {α β : Type}
    (rewound : Rewound start position first course)
    (clear : start.session.runtime.Clear) {program : GraphStepping τ γ σ α}
    (respects : program.Respects Drifts)
    {second : α → GraphStepping τ γ σ β}
    (late : ∀ value next, Rewound start position first next →
      (second value).Leads next
        fun _ final => Rewound start position first final) :
    (program >>= second).Leads course
      fun _ final => Rewound start position first final := by
  apply (rewound.respects clear respects).bind
  · exact late
  · exact fun _ _ rewound => rewound

theorem Reversing.again
    (reversing : Reversing start position first now course)
    (known : Matches start.session start.ir first.ran) {index : Nat}
    {group : Group} {stage : ModuleStage}
    (within : start.ir.groups[index]? = some group)
    (found : (start.session.runtime.stages.map Record.stage)[index]? =
      some stage) :
    first.ran[index]? = some (course.session.ranWith group stage) := by
  have later := found
  rw [← reversing.stages] at later
  rw [List.getElem?_map] at found later
  obtain ⟨old, before, rfl⟩ := Option.map_eq_some_iff.mp found
  obtain ⟨new, after, same⟩ := Option.map_eq_some_iff.mp later
  have contents : ∀ handle, start.session.runtime.FixedHandle handle →
      course.session.store.restore handle =
        start.session.store.restore handle := by
    intro handle fixed
    obtain ⟨index, part, held, _⟩ := fixed.held
    exact reversing.contents handle ⟨(index, part), held⟩
  have again := ranWith_congr group before after
    (Runtime.norms_congr reversing.stages)
    (Runtime.fixed_congr reversing.stages) contents
  rw [← same, again]
  apply known index group old.stage within
  rw [List.getElem?_map, before]
  rfl

theorem storeGradient_rewound
    (rewound : Rewound start position first course)
    (clear : start.session.runtime.Clear) {index : Nat} {stage : ModuleStage}
    (found : (start.session.runtime.stages.map Record.stage)[index]? =
      some stage) {name : ParameterName}
    (trained : name ∈ GraphRuntime.trainableNames stage)
    (derivative : Target → Option τ) :
    (storeGradient position index derivative name).Leads course
      fun _ next => Rewound start position first next := by
  obtain ⟨now, reversing⟩ := rewound
  exact storeGradient_reversing reversing clear found trained derivative

theorem reverseGroup_rewound (operators : Operators τ γ σ)
    (autograd : Autograd τ γ σ)
    (rewound : Rewound start position first course)
    (clear : start.session.runtime.Clear)
    (known : Matches start.session start.ir first.ran) {index : Nat}
    {group : Group} {stage : ModuleStage}
    (within : start.ir.groups[index]? = some group)
    (found : (start.session.runtime.stages.map Record.stage)[index]? =
      some stage) :
    (reverseGroup operators autograd position index group stage).Leads course
      fun _ next => Rewound start position first next := by
  apply rewound.bind clear (collect_drifts readValue_drifts group.inputs)
  intro arguments next rewound
  obtain ⟨now, reversing⟩ := rewound
  have again := reversing.again known within found
  apply leads_get_bind.mpr
  apply leads_modify_bind.mpr
  have noted : Rewound start position first { next with
      contexts := next.contexts.modify position fun context => { context with
        reran := context.reran ++
          [(index, next.session.ranWith group stage)] } } := by
    refine ⟨_, reversing.noted rfl rfl ?_ rfl⟩
    intro entry member
    rcases List.mem_append.mp member with member | member
    · exact .inl member
    · rw [List.mem_singleton.mp member]
      exact .inr again
  apply noted.bind clear
    (inside_drifts fun _ => collect_spares restoreNamed_spares _)
  intro state next rewound
  apply rewound.bind clear (inside_drifts fun _ => call_spares)
  intro _ next rewound
  split
  · exact rewound
  · rename_i results _
    apply rewound.bind clear
      (collect_drifts (fun entry => collectOutput_drifts _ entry) _)
    intro outputs next rewound
    apply rewound.bind clear
      (each_drifts fun entry _ => accumulate_drifts autograd.add entry)
    intro _ next rewound
    have stores := Leads.each (Rewound start position first) rewound
      fun name (trained : name ∈ GraphRuntime.trainableNames stage) _ rewound =>
        storeGradient_rewound rewound clear found trained
          (GraphRuntime.derivatives autograd index state arguments
            (GraphRuntime.argumentTargets autograd.isFloatingPoint
                (group.inputs.zip arguments) ++
              (GraphRuntime.trainableNames stage).map .parameter)
            outputs.flatten)
    apply stores.bind
    · exact fun _ next rewound =>
        rewound.respects clear (each_drifts fun name _ => dropValue_drifts name)
    · exact fun _ _ rewound => rewound

variable (model : GraphModel τ γ σ)

theorem reverseStep_rewound (clock : Nat)
    (rewound : Rewound start position first course)
    (clear : start.session.runtime.Clear)
    (known : Matches start.session start.ir first.ran) {entry : Group × Nat}
    (within : start.ir.groups[entry.2]? = some entry.1) :
    (reverseStep model position clock entry).Leads course
      fun _ next => Rewound start position first next := by
  apply leads_get_bind.mpr
  split
  · split
    · exact rewound
    · rename_i record listed
      have found : (start.session.runtime.stages.map Record.stage)[entry.2]? =
          some record.stage := by
        obtain ⟨now, reversing⟩ := rewound
        rw [← reversing.stages, List.getElem?_map, listed]
        rfl
      apply rewound.bind clear (checkBudget_drifts model entry.1.nodes)
      intro _ next rewound
      exact reverseGroup_rewound _ _ rewound clear known within found
  · exact rewound

theorem reverse_rewound (clock : Nat) (gradOutputs : List (Option τ))
    (rewound : Rewound start position first course)
    (clear : start.session.runtime.Clear)
    (known : Matches start.session start.ir first.ran) :
    (reverse model position clock gradOutputs).Leads course
      fun _ next => Rewound start position first next := by
  have ir : course.ir = start.ir := by
    obtain ⟨now, reversing⟩ := rewound
    exact reversing.ir
  have emptied : Drifts course { course with gradients := ∅ } := by
    intro afloat
    exact ⟨⟨afloat.tidy, afloat.values, afloat.snapshots, nofun⟩, .refl _, rfl,
      rfl, rfl, rfl, rfl, rfl⟩
  have steps : ∀ next, Rewound start position first next →
      (each (reverseStep model position clock)
        course.ir.groups.zipIdx.reverse).Leads next
          fun _ final => Rewound start position first final := by
    intro next rewound
    apply Leads.each (Rewound start position first) rewound
    intro entry member state rewound
    have listed := List.mem_zipIdx_iff_getElem?.mp (List.mem_reverse.mp member)
    exact reverseStep_rewound model clock rewound clear known (ir ▸ listed)
  apply leads_get_bind.mpr
  apply leads_modify_bind.mpr
  apply (rewound.drifts clear emptied).bind clear (seed_drifts _ _ _)
  intro _ next rewound
  have body : (do
      each (reverseStep model position clock) course.ir.groups.zipIdx.reverse
      let leaves ← collect readGradient course.ir.frontend.placeholders
      inside call
      pure leaves.sum : GraphStepping τ γ σ Nat).Leads next
        fun _ final => Rewound start position first final := by
    apply (steps next rewound).bind
    · intro _ next rewound
      apply rewound.bind clear (collect_drifts readGradient_drifts _)
      intro leaves next rewound
      apply rewound.bind clear (inside_drifts fun _ => call_spares)
      exact fun _ _ rewound => rewound
    · exact fun _ _ rewound => rewound
  apply body.ensuring
  intro result final rewound
  apply (rewound.respects clear freeGradients_drifts).mono
  intro ended last rewound
  cases ended with
  | ok _ => exact rewound
  | error _ => exact rewound

/-! The backward that a forward awaits. -/

theorem Reversing.flagged
    (reversing : Reversing start position first now course)
    {runtime : Runtime γ}
    (stages : runtime.stages = course.session.runtime.stages)
    (dormant : runtime.dormant = course.session.runtime.dormant)
    (pending : runtime.pending = course.session.runtime.pending) :
    Reversing start position first now { course with
      session := { course.session with runtime := runtime } } := by
  have held : runtime.held = course.session.runtime.held := by
    funext slot
    unfold Runtime.held Runtime.records
    rw [stages, dormant]
  have loose : ∀ {handle}, course.session.Loose handle →
      Loose { course.session with runtime := runtime } handle :=
    fun loose => ⟨loose.older, fun slot => by
      change runtime.held slot ≠ _
      rw [held]
      exact loose.unheld slot⟩
  obtain ⟨⟨tidy, values, snapshots, cotangents⟩, ir, latest, applied, contexts,
    ran, consumed, reran, pending', stages', dormant', held', contents, older,
    gradients, distinct⟩ := reversing
  refine ⟨⟨?_, fun found handle member => loose (values found handle member),
      fun snapshot listed entry member =>
        loose (snapshots snapshot listed entry member),
      fun found handle member => loose (cotangents found handle member)⟩,
    ir, latest, applied, contexts, ran, consumed, reran, pending.trans pending',
    ?_, dormant.trans dormant', ?_, contents, older, ?_, ?_⟩
  · apply tidy.same
    · exact fun slot _ => congrFun held slot
    · intro slot handle found
      rw [held] at found
      exact tidy.older found
  · change runtime.stages.map Record.stage = _
    rw [stages, stages']
  · intro slot other
    change runtime.held slot = _
    rw [held, held' slot other]
  · dsimp only
    rw [held]
    exact gradients
  · dsimp only
    rw [held]
    exact distinct

def Ended (start : GraphSession τ γ σ) (position : Nat)
    (first : GraphContext τ γ σ) (course : GraphSession τ γ σ) : Prop :=
  ∃ now, Reversing start position first now course ∧
    (course.session.runtime.failed = true ∨
      (course.session.runtime.backwardComplete = true ∧ now.completed = true))

theorem backwardOf_ended {context : GraphContext τ γ σ}
    (gradOutputs : List (Option τ))
    (rewound : Rewound start position first course)
    (clear : start.session.runtime.Clear)
    (known : Matches start.session start.ir first.ran) :
    (backwardOf model position context gradOutputs).Leads course (Ending
      (fun _ next => Ended start position first next)
      fun _ next => Rewound start position first next) := by
  apply (reverse_rewound model _ gradOutputs rewound clear known).bind
  · intro leaves next rewound
    obtain ⟨now, reversing⟩ := rewound
    apply leads_changing_bind.mpr
    apply leads_modify_bind.mpr
    have flagged : Reversing start position first now { next with
        session := { next.session with
          runtime := { next.session.runtime with
            backwardComplete := true } } } :=
      reversing.flagged rfl rfl rfl
    have noted : Reversing start position first
        { now with completed := true } { next with
          session := { next.session with
            runtime := { next.session.runtime with backwardComplete := true } }
          contexts := next.contexts.modify position
            ({ · with completed := true }) } :=
      @Reversing.noted _ _ _ _ _ _ _ _ flagged ({ · with completed := true })
        rfl rfl (fun _ member => .inl member) rfl
    split
    · exact ⟨_, noted⟩
    · exact ⟨_, noted, .inr ⟨rfl, rfl⟩⟩
  · exact fun _ _ rewound => rewound

structure Awaiting (position : Nat) (first : GraphContext τ γ σ)
    (course : GraphSession τ γ σ) : Prop where
  afloat : Afloat { course with tape := first.tape }
  clear : course.session.runtime.Clear
  found : course.contexts[position]? = some first
  known : Matches course.session course.ir first.ran
  reran : ∀ entry ∈ first.reran, first.ran[entry.1]? = some entry.2

def begun (position : Nat) (first : GraphContext τ γ σ)
    (course : GraphSession τ γ σ) : GraphSession τ γ σ :=
  { course with
    contexts := course.contexts.set position { first with consumed := true }
    latest := some position
    tape := first.tape }

theorem Awaiting.reversing (awaiting : Awaiting position first course) :
    Reversing (begun position first course) position
      { first with consumed := true } { first with consumed := true }
      (begun position first course) := by
  obtain ⟨⟨tidy, values, snapshots, cotangents⟩, clear, found, known, reran⟩ :=
    awaiting
  refine ⟨⟨tidy, values, snapshots, cotangents⟩, rfl, rfl, rfl, ?_, rfl, rfl,
    reran, rfl, rfl, rfl, fun _ _ => rfl, fun _ _ => rfl, ⟨tidy, le_rfl⟩, ?_,
    ?_⟩
  · exact (List.set_set _).symm
  · intro index name handle held
    have none : course.session.runtime.held (index, .gradient name) =
        some handle := held
    rw [clear index name] at none
    cases none
  · intro index name place other handle held
    have none : course.session.runtime.held (index, .gradient name) =
        some handle := held
    rw [clear index name] at none
    cases none

theorem backward_ended (gradOutputs : List (Option τ))
    (awaiting : Awaiting position first course)
    (unconsumed : first.consumed = false) :
    (backward model position gradOutputs).Leads course fun _ next =>
      Ended (begun position first course) position
        { first with consumed := true } next := by
  have set : course.contexts.modify position
      (fun context => { context with consumed := true }) =
        course.contexts.set position { first with consumed := true } := by
    apply List.ext_getElem?
    intro index
    rw [List.getElem?_modify, List.getElem?_set]
    split
    · rename_i same
      subst same
      rw [if_pos (List.getElem?_eq_some_iff.mp awaiting.found).1,
        awaiting.found]
      rfl
    · cases course.contexts[index]? with
      | none => rfl
      | some context => rfl
  have body : (tryCatch (backwardOf model position first gradOutputs)
      failBackward).Leads (begun position first course) fun _ next =>
        Ended (begun position first course) position
          { first with consumed := true } next := by
    apply (backwardOf_ended model gradOutputs
      ⟨_, awaiting.reversing⟩ awaiting.clear awaiting.known).rescue
    · exact fun _ _ ended => ended
    · intro raised next rewound
      obtain ⟨now, reversing⟩ := rewound
      apply leads_changing_bind.mpr
      exact ⟨now, reversing.flagged rfl rfl rfl, .inl rfl⟩
  unfold backward
  apply leads_get_bind.mpr
  rw [awaiting.found]
  dsimp only
  rw [unconsumed, if_neg Bool.false_ne_true]
  apply leads_modify_bind.mpr
  apply leads_modify_bind.mpr
  rw [set]
  apply body.ensuring
  intro result next ended
  obtain ⟨now, reversing, flags⟩ := ended
  apply (releaseTape_drifts next).mono
  intro ending last drifts
  have runtime := (drifts reversing.afloat).2.harmless.runtime
  have ended : Ended (begun position first course) position
      { first with consumed := true } last := by
    refine ⟨now, reversing.drifts awaiting.clear drifts, ?_⟩
    rw [runtime]
    exact flags
  cases ending with
  | ok _ => exact ended
  | error _ => exact ended

end

end GraphSession

end TrainPool
