import TrainPool.Torch.Exchanging
import TrainPool.Torch.GraphSession

namespace TrainPool

open HandleStore Failing Training

/-! The groups of a runtime are cut again before a forward. -/

variable {τ γ σ : Type}

namespace Runtime

def Inherits (old new : Runtime γ) : Prop :=
  ∀ record ∈ new.records, ∀ part handle, record.held part = some handle →
    ∃ before ∈ old.records, before.held part = some handle

def Clear (runtime : Runtime γ) : Prop :=
  ∀ index name, runtime.held (index, .gradient name) = none

variable {old new : Runtime γ}

theorem Inherits.held (inherits : Inherits old new) {slot : Nat × Part}
    {handle : Handle} (held : new.held slot = some handle) :
    ∃ index, old.held (index, slot.2) = some handle := by
  obtain ⟨record, found, held⟩ := Option.bind_eq_some_iff.mp held
  obtain ⟨before, listed, same⟩ :=
    inherits record (List.mem_of_getElem? found) slot.2 handle held
  obtain ⟨index, found⟩ := List.mem_iff_getElem?.mp listed
  refine ⟨index, ?_⟩
  unfold Runtime.held
  rw [found]
  exact same

theorem Inherits.clear (inherits : Inherits old new) (clear : old.Clear) :
    new.Clear := by
  intro index name
  cases held : new.held (index, .gradient name) with
  | none => rfl
  | some handle =>
      obtain ⟨place, same⟩ := inherits.held held
      rw [clear place name] at same
      cases same

end Runtime

theorem Session.Tidy.inherits {session : Session τ γ} (tidy : session.Tidy)
    {runtime : Runtime γ} (inherits : session.runtime.Inherits runtime) :
    Session.Tidy { session with runtime := runtime } where
  older held := by
    obtain ⟨index, same⟩ := inherits.held held
    exact tidy.older same
  named owned other held same := by
    obtain ⟨index, before⟩ := inherits.held held
    obtain ⟨place, before'⟩ := inherits.held same
    exact @Session.Tidy.named _ _ _ tidy (index, _) (place, _) _ owned other
      before before'

namespace GraphSession

/-! What a record is rebuilt from. -/

theorem lookup_tableOf {ν : Type} {found : ParameterName → Option ν}
    {names : List ParameterName} {name : ParameterName} {value : ν}
    (listed : (tableOf found names).lookup name = some value) :
    found name = some value := by
  have built : ∀ (names : List ParameterName) (table : Table ParameterName ν),
      (∀ value, table.lookup name = some value → found name = some value) →
      ∀ value, (names.foldl (fun table name =>
        (found name).elim table (table.insert name)) table).lookup name =
          some value → found name = some value := by
    intro names
    induction names with
    | nil => exact fun _ known => known
    | cons first rest ih =>
        intro table known
        apply ih
        intro value listed
        dsimp only at listed
        cases kind : found first with
        | none =>
            rw [kind] at listed
            exact known value listed
        | some one =>
            rw [kind] at listed
            change (table.insert first one).lookup name = some value at listed
            rw [Table.lookup_insert_eq] at listed
            split at listed
            · rename_i same
              rw [same, kind]
              exact listed
            · exact known value listed
  exact built names ∅ nofun value listed

theorem weightHandle_held {stages : List (Record γ)} {name : ParameterName}
    {handle : Handle}
    (found : GraphRuntime.weightHandle (stages.map Record.stage) name =
      some handle) :
    ∃ record ∈ stages, record.held (.weight name) = some handle := by
  obtain ⟨weight, listed, rfl⟩ := Option.map_eq_some_iff.mp found
  have named : weight.name = name := by simpa using List.find?_some listed
  subst named
  obtain ⟨stage, within, owned⟩ := List.mem_flatMap.mp
    (List.mem_reverse.mp (List.mem_of_find?_eq_some listed))
  obtain ⟨record, member, rfl⟩ := List.mem_map.mp within
  have entry : (⟨0, .weight weight.name, weight.name, weight.handle⟩ :
      Entry) ∈ record.entries 0 :=
    List.mem_append_left _ (List.mem_map_of_mem owned)
  exact ⟨record, member, (record.held_of_entry 0 entry).2.2⟩

theorem bufferHandle_held {stages : List (Record γ)} {name : Nat}
    {handle : Handle}
    (found : GraphRuntime.bufferHandle (stages.map Record.stage) name =
      some handle) :
    ∃ record ∈ stages, record.held (.buffer name) = some handle := by
  obtain ⟨buffer, listed, rfl⟩ := Option.map_eq_some_iff.mp found
  have named : buffer.name = name := by simpa using List.find?_some listed
  subst named
  obtain ⟨stage, within, owned⟩ := List.mem_flatMap.mp
    (List.mem_reverse.mp (List.mem_of_find?_eq_some listed))
  obtain ⟨record, member, rfl⟩ := List.mem_map.mp within
  have entry : (⟨0, .buffer buffer.name, buffer.name, buffer.handle⟩ :
      Entry) ∈ record.entries 0 :=
    List.mem_append_right _ (List.mem_map_of_mem owned)
  exact ⟨record, member, (record.held_of_entry 0 entry).2.2⟩

theorem rebuild_handles {stages : List ModuleStage} {declared : Declared}
    {stage : ModuleStage}
    (rebuilt : GraphRuntime.rebuild stages declared = some stage) :
    (∀ weight ∈ stage.weights,
      GraphRuntime.weightHandle stages weight.name = some weight.handle) ∧
    ∀ buffer ∈ stage.buffers,
      GraphRuntime.bufferHandle stages buffer.name = some buffer.handle := by
  unfold GraphRuntime.rebuild at rebuilt
  simp only [Option.bind_eq_bind, Option.bind_eq_some_iff, Option.some.injEq]
    at rebuilt
  obtain ⟨weights, listed, _, present, rfl⟩ := rebuilt
  have related := Dataflow.mapM_eq_some.mp listed
  constructor
  · intro weight member
    obtain ⟨name, _, same⟩ := Dataflow.exists_left_of_forall₂ related member
    obtain ⟨handle, found, rfl⟩ := Option.map_eq_some_iff.mp same
    exact found
  · intro buffer member
    obtain ⟨entry, listed, rfl⟩ := List.mem_map.mp member
    have known : (declared.buffers.all fun buffer =>
        (GraphRuntime.bufferHandle stages buffer.1).isSome) = true := by
      by_contra missing
      rw [guard, if_neg missing] at present
      cases present
    have present := List.all_eq_true.mp known entry listed
    obtain ⟨handle, found⟩ := Option.isSome_iff_exists.mp present
    rw [found]
    rfl

theorem rebuildRecord_held {stages : List (Record γ)} {declared : Declared}
    {named : declared.parameters.Nodup} {record : Record γ}
    (rebuilt : rebuildRecord stages declared named = some record)
    {part : Part} {handle : Handle}
    (held : record.held part = some handle) :
    ∃ before ∈ stages, before.held part = some handle := by
  unfold rebuildRecord at rebuilt
  split at rebuilt
  · cases rebuilt
  · rename_i stage found
    cases rebuilt
    obtain ⟨weights, buffers⟩ := rebuild_handles found
    cases part with
    | weight name =>
        obtain ⟨weight, listed, rfl⟩ := Option.map_eq_some_iff.mp held
        have known := weights weight (List.mem_of_find?_eq_some listed)
        have same : weight.name = name := by simpa using List.find?_some listed
        exact weightHandle_held (same ▸ known)
    | buffer name =>
        obtain ⟨buffer, listed, rfl⟩ := Option.map_eq_some_iff.mp held
        have known := buffers buffer (List.mem_of_find?_eq_some listed)
        have same : buffer.name = name := by simpa using List.find?_some listed
        exact bufferHandle_held (same ▸ known)
    | gradient name =>
        obtain ⟨record, listed, same⟩ :=
          List.exists_of_findSome?_eq_some (lookup_tableOf held)
        exact ⟨record, List.mem_reverse.mp listed, same⟩
    | state name position =>
        obtain ⟨state, listed, held⟩ := Option.bind_eq_some_iff.mp held
        obtain ⟨record, listed, same⟩ :=
          List.exists_of_findSome?_eq_some (lookup_tableOf listed)
        refine ⟨record, List.mem_reverse.mp listed, ?_⟩
        change (record.optimizerState.lookup name).bind _ = _
        rw [same]
        exact held

structure Recut (start course : GraphSession τ γ σ) : Prop where
  tidy : course.session.Tidy
  clear : course.session.runtime.Clear
  pending : course.session.runtime.pending = start.session.runtime.pending
  backwardComplete : course.session.runtime.backwardComplete =
    start.session.runtime.backwardComplete
  failed : course.session.runtime.failed = start.session.runtime.failed
  contexts : course.contexts = start.contexts
  latest : course.latest = start.latest
  applied : course.applied = start.applied

section

variable {start course : GraphSession τ γ σ}

theorem Recut.grows (recut : Recut start course) {session : Session τ γ}
    (grows : Session.Grows course.session session) :
    Recut start { course with session := session } := by
  obtain ⟨tidy, clear, pending, complete, failed, contexts, latest, applied⟩ :=
    recut
  refine ⟨tidy.grows grows, ?_, ?_, ?_, ?_, contexts, latest, applied⟩
  all_goals
    dsimp only
    rw [grows.runtime]
    assumption

theorem raising_leads {α : Type} (result : Except Raised α)
    {post : Except Raised α → GraphSession τ γ σ → Prop}
    (both : ∀ ended, post ended course) :
    (raising result : GraphStepping τ γ σ α).Leads course post := by
  cases result with
  | ok value => exact both _
  | error raised => exact both _

theorem checkBudget_recut (model : GraphModel τ γ σ) (nodes : List FxNode)
    (recut : Recut start course) :
    (checkBudget model nodes).Leads course fun _ next => Recut start next := by
  have checked : (raising (model.budget course.clock nodes) :
      GraphStepping τ γ σ Unit).Leads course fun _ next => Recut start next :=
    raising_leads _ fun _ => recut
  apply leads_get_bind.mpr
  apply checked.bind
  · intro _ next recut
    apply leads_within.mpr
    exact (call_grows next.session).mono fun _ _ grows => recut.grows grows
  · exact fun _ _ recut => recut

structure Rebuilding (old : Runtime γ) (start course : GraphSession τ γ σ) :
    Prop where
  inherits : old.Inherits course.session.runtime
  session : course.session = { start.session with
    runtime := { old with stages := course.session.runtime.stages } }
  contexts : course.contexts = start.contexts
  latest : course.latest = start.latest
  applied : course.applied = start.applied

theorem addRecord_rebuilding (model : GraphModel τ γ σ) {old : Runtime γ}
    (rebuilding : Rebuilding old start course) (chunk : List FxNode) :
    (addRecord model old.stages chunk).Leads course
      fun _ next => Rebuilding old start next := by
  unfold addRecord
  split
  · exact rebuilding
  · rename_i record rebuilt
    obtain ⟨inherits, session, contexts, latest, applied⟩ := rebuilding
    apply leads_changing.mpr
    refine ⟨?_, ?_, contexts, latest, applied⟩
    · intro one listed part handle held
      rcases List.mem_append.mp listed with listed | listed
      · rcases List.mem_append.mp listed with listed | listed
        · exact inherits one (List.mem_append_left _ listed) part handle held
        · rw [List.mem_singleton.mp listed] at held
          obtain ⟨before, within, same⟩ := rebuildRecord_held rebuilt held
          exact ⟨before, List.mem_append_left _ within, same⟩
      · exact inherits one (List.mem_append_right _ listed) part handle held
    · rw [session]

theorem repartition_recut (model : GraphModel τ γ σ)
    (chunks : List (List FxNode)) (recut : Recut start course) :
    (repartition model chunks).Leads course
      fun _ next => Recut start next := by
  have cut : ∀ next, Rebuilding course.session.runtime course next →
      Recut start next := by
    intro next rebuilding
    obtain ⟨inherits, session, contexts, latest, applied⟩ := rebuilding
    obtain ⟨tidy, clear, pending, complete, failed, contexts', latest',
      applied'⟩ := recut
    have runtime := congrArg Session.runtime session
    refine ⟨?_, inherits.clear clear, ?_, ?_, ?_, contexts.trans contexts',
      latest.trans latest', applied.trans applied'⟩
    · rw [session]
      rw [runtime] at inherits
      exact tidy.inherits inherits
    · rw [runtime]
      exact pending
    · rw [runtime]
      exact complete
    · rw [runtime]
      exact failed
  let emptied : GraphSession τ γ σ := { course with
    ir := course.ir.frontend.makeIr chunks
    session := { course.session with
      runtime := { course.session.runtime with stages := [] } } }
  have rebuilding : Rebuilding course.session.runtime course emptied :=
    ⟨fun record listed _ _ held =>
      ⟨record, List.mem_append_right _ listed, held⟩, rfl, rfl, rfl, rfl⟩
  have adds : (each (addRecord model course.session.runtime.stages)
      chunks).Leads emptied fun _ next =>
        Rebuilding course.session.runtime course next :=
    Leads.each _ rebuilding fun chunk _ _ rebuilding =>
      addRecord_rebuilding model rebuilding chunk
  apply leads_get_bind.mpr
  apply leads_modify_bind.mpr
  apply leads_changing_bind.mpr
  apply adds.bind
  · intro _ next rebuilding
    apply leads_get_bind.mpr
    exact raising_leads _ fun _ => cut next rebuilding
  · exact fun _ next rebuilding => cut next rebuilding

theorem preflight_recut (model : GraphModel τ γ σ)
    (inputs : List (Value τ γ σ)) (rounds : Nat)
    (recut : Recut start course) :
    (preflight model inputs rounds).Leads course
      fun _ next => Recut start next := by
  induction rounds generalizing course with
  | zero => exact recut
  | succ rounds ih =>
      have cuts : ∀ index next, Recut start next → (do
          repartition model (FxGraph.splitChunk
            (course.ir.groups.map Group.nodes) index)
          preflight model inputs rounds : GraphStepping τ γ σ Unit).Leads next
            fun _ final => Recut start final := by
        intro index next recut
        apply (repartition_recut model _ recut).bind
        · exact fun _ _ recut => ih recut
        · exact fun _ _ recut => recut
      have searched : (raising (firstExceeding model inputs course.clock 0
          course.ir.groups) : GraphStepping τ γ σ (Option Nat)).Leads course
            fun _ next => Recut start next :=
        raising_leads _ fun _ => recut
      apply leads_get_bind.mpr
      apply searched.bind
      · intro found next recut
        cases found with
        | none => exact recut
        | some index =>
            dsimp only
            split
            · apply (checkBudget_recut model _ recut).bind
              · exact fun _ final recut => cuts index final recut
              · exact fun _ _ recut => recut
            · exact cuts index next recut
      · exact fun _ _ recut => recut

end

end GraphSession

end TrainPool
