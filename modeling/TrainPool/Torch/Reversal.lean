import TrainPool.Torch.Executing
import TrainPool.Torch.Recut

namespace TrainPool

open HandleStore Failing Training

/-! A backward of a graph runtime, up to where it ends or raises. -/

variable {τ γ σ : Type}

namespace Record

theorem held_setGradient (record : Record γ) (name : ParameterName)
    (handle : Handle) (part : Part) :
    (record.setGradient name handle).held part =
      if part = .gradient name then some handle else record.held part := by
  cases part with
  | weight other => rfl
  | buffer other => rfl
  | gradient other =>
      simp only [held, setGradient, Table.lookup_insert_eq,
        Part.gradient.injEq]
  | state other position => rfl

end Record

namespace Runtime

variable {runtime other : Runtime γ}

theorem held_setGradient {index : Nat}
    (bound : index < runtime.stages.length) (name : ParameterName)
    (handle : Handle) (slot : Nat × Part) :
    (runtime.alter index (Record.setGradient name handle)).held slot =
      if slot = (index, .gradient name) then some handle
      else runtime.held slot := by
  obtain ⟨place, part⟩ := slot
  rw [held_alter]
  have found := List.getElem?_eq_getElem bound
  by_cases here : place = index
  · subst here
    have held := held_of_stage found part
    unfold Runtime.held at held ⊢
    have record : runtime.records[place]? = some runtime.stages[place] := by
      unfold records
      rw [List.getElem?_append_left bound, found]
    rw [if_pos rfl, record]
    change (runtime.stages[place].setGradient name handle).held part = _
    rw [Record.held_setGradient]
    simp only [Prod.mk.injEq, true_and]
    split
    · rfl
    · rfl
  · rw [if_neg here, if_neg fun same => here (Prod.mk.inj same).1]

theorem norms_congr
    (same : other.stages.map Record.stage = runtime.stages.map Record.stage) :
    other.norms = runtime.norms := by
  have named : ∀ stages : List (Record γ),
      (stages.flatMap fun record => (record.stage.buffers.filter
        Buffer.batchNorm).map Buffer.name) =
      (stages.map Record.stage).flatMap fun stage =>
        (stage.buffers.filter Buffer.batchNorm).map Buffer.name := by
    intro stages
    rw [List.flatMap_map]
  unfold norms
  rw [named, same, ← named]

theorem fixed_congr
    (same : other.stages.map Record.stage = runtime.stages.map Record.stage) :
    other.fixed = runtime.fixed := by
  have tabled : ∀ (norms : List Nat) (stages : List (Record γ)),
      (stages.map fun record => (record.stage.weights,
        record.stage.buffers.filter (·.name ∉ norms))) =
      (stages.map Record.stage).map fun stage =>
        (stage.weights, stage.buffers.filter (·.name ∉ norms)) := by
    intro norms stages
    rw [List.map_map]
    rfl
  unfold fixed
  rw [norms_congr same, tabled, same, ← tabled]

end Runtime

namespace GraphSession

open Session

theorem set_modify {α : Type} (items : List α) (position : Nat) (item : α)
    (change : α → α) : (items.set position item).modify position change =
      items.set position (change item) := by
  apply List.ext_getElem?
  intro index
  rw [List.getElem?_modify, List.getElem?_set, List.getElem?_set]
  split
  · split
    · rfl
    · rfl
  · cases items[index]? with
    | none => rfl
    | some other => rfl

/-- A backward changes no record but for its gradients, and runs every group
again with what it ran with before. -/
structure Reversing (start : GraphSession τ γ σ) (position : Nat)
    (first now : GraphContext τ γ σ) (course : GraphSession τ γ σ) : Prop where
  afloat : Afloat course
  ir : course.ir = start.ir
  latest : course.latest = start.latest
  applied : course.applied = start.applied
  contexts : course.contexts = start.contexts.set position now
  ran : now.ran = first.ran
  consumed : now.consumed = true
  reran : ∀ entry ∈ now.reran, first.ran[entry.1]? = some entry.2
  pending : course.session.runtime.pending = start.session.runtime.pending
  stages : course.session.runtime.stages.map Record.stage =
    start.session.runtime.stages.map Record.stage
  dormant : course.session.runtime.dormant = start.session.runtime.dormant
  held : ∀ slot : Nat × Part, (∀ name, slot.2 ≠ .gradient name) →
    course.session.runtime.held slot = start.session.runtime.held slot
  contents : ∀ handle, start.session.Holds handle →
    course.session.store.restore handle = start.session.store.restore handle
  older : start.session.Tidy ∧
    start.session.store.next ≤ course.session.store.next
  gradients : ∀ {index name handle},
    course.session.runtime.held (index, .gradient name) = some handle →
      start.session.store.next ≤ handle ∧
        (∃ value, course.session.store.restore handle = some value ∧
          ((index, name), value) ∈ now.produced) ∧
        ∃ stage, (start.session.runtime.stages.map Record.stage)[index]? =
          some stage ∧ name ∈ GraphRuntime.trainableNames stage
  distinct : ∀ {index name place other handle},
    course.session.runtime.held (index, .gradient name) = some handle →
      course.session.runtime.held (place, .gradient other) = some handle →
        index = place ∧ name = other

section

variable {start course next : GraphSession τ γ σ} {position : Nat}
  {first now : GraphContext τ γ σ}

theorem Reversing.holds (reversing : Reversing start position first now course)
    (clear : start.session.runtime.Clear) {handle : Handle}
    (holds : start.session.Holds handle) : course.session.Holds handle := by
  obtain ⟨⟨index, part⟩, held⟩ := holds
  refine ⟨(index, part), ?_⟩
  rw [reversing.held]
  · exact held
  · rintro name same
    change part = .gradient name at same
    rw [same, clear index name] at held
    cases held

theorem Reversing.drifts (reversing : Reversing start position first now course)
    (clear : start.session.runtime.Clear)
    (drifts : Drifts course next) :
    Reversing start position first now next := by
  obtain ⟨afloat, carries⟩ := drifts reversing.afloat
  have runtime := carries.harmless.runtime
  have stays : ∀ handle, course.session.Holds handle →
      next.session.store.restore handle =
        course.session.store.restore handle :=
    fun handle holds => carries.harmless.spares handle holds
      (reversing.afloat.tidy.below holds)
  refine ⟨afloat, carries.ir.trans reversing.ir,
    carries.latest.trans reversing.latest,
    carries.applied.trans reversing.applied,
    carries.contexts.trans reversing.contexts, reversing.ran,
    reversing.consumed, reversing.reran, ?_, ?_, ?_, ?_, ?_,
    ⟨reversing.older.1, reversing.older.2.trans carries.harmless.grows⟩,
    ?_, ?_⟩
  · rw [runtime]
    exact reversing.pending
  · rw [runtime]
    exact reversing.stages
  · rw [runtime]
    exact reversing.dormant
  · rw [runtime]
    exact reversing.held
  · intro handle holds
    rw [stays handle (reversing.holds clear holds)]
    exact reversing.contents handle holds
  · intro index name handle held
    rw [runtime] at held
    obtain ⟨newer, found, trained⟩ := reversing.gradients held
    rw [stays handle ⟨_, held⟩]
    exact ⟨newer, found, trained⟩
  · rw [runtime]
    exact reversing.distinct

theorem Reversing.noted (reversing : Reversing start position first now course)
    {change : GraphContext τ γ σ → GraphContext τ γ σ}
    (ran : (change now).ran = now.ran)
    (consumed : (change now).consumed = now.consumed)
    (reran : ∀ entry ∈ (change now).reran,
      entry ∈ now.reran ∨ first.ran[entry.1]? = some entry.2)
    (produced : (change now).produced = now.produced) :
    Reversing start position first (change now) { course with
      contexts := course.contexts.modify position change } := by
  obtain ⟨⟨tidy, values, snapshots, cotangents⟩, ir, latest, applied, contexts,
    ran', consumed', reran', pending, stages, dormant, held, contents, older,
    gradients, distinct⟩ := reversing
  refine ⟨⟨tidy, values, snapshots, cotangents⟩, ir, latest, applied, ?_,
    ran.trans ran', consumed.trans consumed', ?_, pending, stages, dormant,
    held, contents, older, ?_, distinct⟩
  · rw [← set_modify, ← contexts]
  · intro entry member
    rcases reran entry member with member | known
    · exact reran' entry member
    · exact known
  · intro index name handle found
    obtain ⟨newer, known, trained⟩ := gradients found
    rw [produced]
    exact ⟨newer, known, trained⟩

theorem Afloat.graded (afloat : Afloat course) {session : Session τ γ}
    (grows : Grows course.session session) {handle : Handle}
    (newer : course.session.store.next ≤ handle)
    (older : handle < session.store.next) {runtime : Runtime γ} {index : Nat}
    {name : ParameterName}
    (graded : ∀ slot, runtime.held slot =
      if slot = (index, .gradient name) then some handle
      else session.runtime.held slot) :
    Afloat { course with
      session := { session with runtime := runtime } } := by
  have tidy := afloat.tidy.grows grows
  have loose : ∀ {one}, course.session.Loose one →
      Loose { session with runtime := runtime } one := by
    intro one loose
    refine ⟨(loose.grows grows).older, ?_⟩
    intro slot held
    change runtime.held slot = some one at held
    rw [graded] at held
    split at held
    · cases held
      exact absurd loose.older (Nat.not_lt.mpr newer)
    · exact (loose.grows grows).unheld slot held
  refine ⟨?_, ?_, ?_, ?_⟩
  · apply tidy.same
    · intro slot persistent
      rw [graded, if_neg]
      rintro rfl
      cases persistent
    · intro slot one held
      rw [graded] at held
      split at held
      · cases held
        exact older
      · exact tidy.older held
  · exact fun found one member => loose (afloat.values found one member)
  · exact fun snapshot listed entry member =>
      loose (afloat.snapshots snapshot listed entry member)
  · exact fun found one member => loose (afloat.cotangents found one member)

theorem Reversing.stored
    (reversing : Reversing start position first now course)
    (clear : start.session.runtime.Clear) {index : Nat} {stage : ModuleStage}
    (found : (start.session.runtime.stages.map Record.stage)[index]? =
      some stage) {name : ParameterName}
    (trained : name ∈ GraphRuntime.trainableNames stage)
    {handle : Handle} {value : τ} {session : Session τ γ}
    (offloaded : Offloaded course.session.Holds value course.session handle
      session) :
    Reversing start position first
      { now with produced := now.produced ++ [((index, name), value)] }
      { course with
        session := { session with
          runtime := session.runtime.alter index
            (Record.setGradient name handle) }
        contexts := course.contexts.modify position fun context =>
          { context with
            produced := context.produced ++ [((index, name), value)] } } := by
  have runtime := offloaded.runtime
  have bound : index < session.runtime.stages.length := by
    have length := congrArg List.length reversing.stages
    rw [List.length_map, List.length_map] at length
    have bound := (List.getElem?_eq_some_iff.mp found).1
    rw [List.length_map] at bound
    rw [runtime, length]
    exact bound
  have graded := Runtime.held_setGradient bound name handle
  have stays : ∀ one, course.session.Holds one →
      session.store.restore one = course.session.store.restore one :=
    fun one holds => offloaded.spares one holds
      (reversing.afloat.tidy.below holds)
  have below : ∀ {slot one}, session.runtime.held slot = some one →
      one ≠ handle := by
    intro slot one held
    rw [runtime] at held
    exact ((reversing.afloat.tidy.older held).trans_le offloaded.newer).ne
  obtain ⟨tidy, values, snapshots, cotangents⟩ := reversing.afloat.graded
    offloaded.toGrows offloaded.newer offloaded.older graded
  refine ⟨⟨tidy, values, snapshots, cotangents⟩, reversing.ir,
    reversing.latest, reversing.applied, ?_, reversing.ran,
    reversing.consumed, reversing.reran, ?_, ?_, ?_, ?_, ?_,
    ⟨reversing.older.1, reversing.older.2.trans offloaded.grows⟩, ?_, ?_⟩
  · rw [reversing.contexts]
    exact set_modify _ _ _ _
  · change session.runtime.pending = _
    rw [runtime]
    exact reversing.pending
  · have graded : ∀ record : Record γ,
        (record.setGradient name handle).stage = record.stage := fun _ => rfl
    refine (map_modify_same graded index _).trans ?_
    rw [runtime]
    exact reversing.stages
  · change (if index = session.runtime.stages.length then _
      else session.runtime.dormant) = _
    rw [if_neg bound.ne, runtime]
    exact reversing.dormant
  · intro slot other
    dsimp only
    rw [graded, if_neg fun same => other name (congrArg Prod.snd same), runtime]
    exact reversing.held slot other
  · intro one holds
    exact (stays one (reversing.holds clear holds)).trans
      (reversing.contents one holds)
  · intro place other one held
    dsimp only at held
    rw [graded] at held
    split at held
    · rename_i same
      cases same
      cases held
      exact ⟨reversing.older.2.trans offloaded.newer,
        ⟨value, offloaded.found, List.mem_append_right _ (by simp)⟩, stage,
        found, trained⟩
    · rw [runtime] at held
      obtain ⟨newer, ⟨value, known, listed⟩, trained⟩ :=
        reversing.gradients held
      exact ⟨newer, ⟨value, (stays one ⟨_, held⟩).trans known,
        List.mem_append_left _ listed⟩, trained⟩
  · intro place other place' other' one held same
    dsimp only at held same
    rw [graded] at held same
    split at held
    · rename_i here
      split at same
      · rename_i there
        have both := here.trans there.symm
        exact ⟨(Prod.mk.inj both).1,
          Part.gradient.inj (Prod.mk.inj both).2⟩
      · cases held
        exact absurd rfl (below same)
    · split at same
      · cases same
        exact absurd rfl (below held)
      · rw [runtime] at held same
        exact reversing.distinct held same

theorem storeGradient_reversing
    (reversing : Reversing start position first now course)
    (clear : start.session.runtime.Clear) {index : Nat} {stage : ModuleStage}
    (found : (start.session.runtime.stages.map Record.stage)[index]? =
      some stage) {name : ParameterName}
    (trained : name ∈ GraphRuntime.trainableNames stage)
    (derivative : Target → Option τ) :
    (storeGradient position index derivative name).Leads course
      fun _ next => ∃ now, Reversing start position first now next := by
  unfold storeGradient
  split
  · exact ⟨now, reversing⟩
  · rename_i value _
    have offloads : (do
        let handle ← Training.offload value
        alter index (Record.setGradient name handle) :
          Stepping τ γ Unit).Leads course.session (Ending
        (fun _ next => ∃ handle session,
          Offloaded course.session.Holds value course.session handle session ∧
          next = { session with
            runtime := session.runtime.alter index
              (Record.setGradient name handle) })
        fun _ next => course.session.Harmless next) := by
      apply (offload_spares value course.session).bind
      · exact fun handle session offloaded =>
          (change_leads _).mpr ⟨handle, session, offloaded, rfl⟩
      · exact fun _ _ spares => spares
    have stored : (inside do
        let handle ← Training.offload value
        alter index (Record.setGradient name handle) :
          GraphStepping τ γ σ Unit).Leads course (Ending
        (fun _ next => ∃ handle session,
          Offloaded course.session.Holds value course.session handle session ∧
          next = { course with
            session := { session with
              runtime := session.runtime.alter index
                (Record.setGradient name handle) } })
        fun _ next => Drifts course next) := by
      apply leads_within.mpr
      apply offloads.mono
      intro result next given
      cases result with
      | ok _ =>
          obtain ⟨handle, session, offloaded, rfl⟩ := given
          exact ⟨handle, session, offloaded, rfl⟩
      | error raised =>
          exact fun afloat =>
            ⟨afloat.within given.toGrows, .of_harmless given⟩
    apply stored.bind
    · intro _ next given
      obtain ⟨handle, session, offloaded, rfl⟩ := given
      exact ⟨_, reversing.stored clear found trained offloaded⟩
    · exact fun _ _ drifts => ⟨now, reversing.drifts clear drifts⟩

end

end GraphSession

end TrainPool
