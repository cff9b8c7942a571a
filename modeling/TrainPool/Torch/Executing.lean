import TrainPool.Torch.Atomic
import TrainPool.Torch.Drifting

namespace TrainPool

open HandleStore Failing Training

/-! A forward of a graph runtime, up to where it ends or raises. -/

variable {τ γ σ : Type}

/-! The weights, and the buffers of no BatchNorm module, keep their handles. -/

theorem map_modify_same {α β : Type} {value : α → β} {change : α → α}
    (same : ∀ item, value (change item) = value item) (index : Nat)
    (items : List α) : (items.modify index change).map value =
      items.map value := by
  apply List.ext_getElem?
  intro position
  rw [List.getElem?_map, List.getElem?_map, List.getElem?_modify]
  cases items[position]? with
  | none => rfl
  | some item =>
      change some (value (if index = position then change item else item)) = _
      split
      · rw [same]
        rfl
      · rfl

namespace ModuleStage

theorem norms_setBuffer (stage : ModuleStage) (name : Nat) (handle : Handle) :
    ((stage.setBuffer name handle).buffers.filter Buffer.batchNorm).map
      Buffer.name = (stage.buffers.filter Buffer.batchNorm).map
        Buffer.name := by
  change ((stage.buffers.map fun buffer => if buffer.name = name then
    { buffer with handle := handle } else buffer).filter _).map _ = _
  induction stage.buffers with
  | nil => rfl
  | cons buffer rest ih =>
      simp only [List.map_cons]
      by_cases norm : buffer.batchNorm = true
      · by_cases here : buffer.name = name
        · simpa [here, norm] using ih
        · simpa [here, norm] using ih
      · by_cases here : buffer.name = name
        · simpa [here, norm] using ih
        · simpa [here, norm] using ih

theorem steady_setBuffer (stage : ModuleStage) {norms : List Nat} {name : Nat}
    (norm : name ∈ norms) (handle : Handle) :
    (stage.setBuffer name handle).buffers.filter (·.name ∉ norms) =
      stage.buffers.filter (·.name ∉ norms) := by
  change (stage.buffers.map fun buffer => if buffer.name = name then
    { buffer with handle := handle } else buffer).filter _ = _
  induction stage.buffers with
  | nil => rfl
  | cons buffer rest ih =>
      simp only [List.map_cons]
      by_cases here : buffer.name = name
      · rw [if_pos here]
        have filtered : buffer.name ∈ norms := here ▸ norm
        simpa [filtered] using ih
      · rw [if_neg here, List.filter_cons, List.filter_cons, ih]

end ModuleStage

namespace Runtime

variable {runtime : Runtime γ}

def fixed (runtime : Runtime γ) : List (List Weight × List Buffer) :=
  runtime.stages.map fun record => (record.stage.weights,
    record.stage.buffers.filter (·.name ∉ runtime.norms))

def FixedHandle (runtime : Runtime γ) (handle : Handle) : Prop :=
  ∃ tables ∈ runtime.fixed, handle ∈ tables.1.map Weight.handle ∨
    handle ∈ tables.2.map Buffer.handle

theorem norms_setBuffer (index name : Nat) (handle : Handle) :
    (runtime.alter index (Record.setBuffer name handle)).norms =
      runtime.norms := by
  unfold norms alter
  rw [List.flatMap_def, List.flatMap_def]
  congr 1
  exact map_modify_same (fun record =>
    record.stage.norms_setBuffer name handle) index runtime.stages

theorem fixed_setBuffer {name : Nat} (norm : name ∈ runtime.norms)
    (index : Nat) (handle : Handle) :
    (runtime.alter index (Record.setBuffer name handle)).fixed =
      runtime.fixed := by
  unfold fixed
  rw [norms_setBuffer]
  apply map_modify_same
  intro record
  exact congrArg (Prod.mk _) (record.stage.steady_setBuffer norm handle)

theorem norm_of_buffer {index : Nat} {record : Record γ} {buffer : Buffer}
    (found : runtime.stages[index]? = some record)
    (member : buffer ∈ record.stage.buffers.filter Buffer.batchNorm) :
    buffer.name ∈ runtime.norms :=
  List.mem_flatMap.mpr ⟨record, List.mem_of_getElem? found,
    List.mem_map_of_mem member⟩

/-- What a forward leaves alone is held as a weight or under a name that no
BatchNorm module uses. -/
theorem FixedHandle.held {handle : Handle}
    (fixed : runtime.FixedHandle handle) :
    ∃ index part, runtime.held (index, part) = some handle ∧
      part.persistent ∧ ∀ name ∈ runtime.norms, part ≠ .buffer name := by
  obtain ⟨tables, listed, member⟩ := fixed
  obtain ⟨record, within, rfl⟩ := List.mem_map.mp listed
  obtain ⟨index, found⟩ := List.mem_iff_getElem?.mp within
  rcases member with member | member
  · obtain ⟨weight, owned, rfl⟩ := List.mem_map.mp member
    refine ⟨index, .weight weight.name, ?_, rfl, nofun⟩
    have entry : (⟨index, .weight weight.name, weight.name, weight.handle⟩ :
        Entry) ∈ record.entries index :=
      List.mem_append_left _ (List.mem_map_of_mem owned)
    rw [held_of_stage found]
    exact (record.held_of_entry index entry).2.2
  · obtain ⟨buffer, owned, rfl⟩ := List.mem_map.mp member
    obtain ⟨owned, steady⟩ := List.mem_filter.mp owned
    refine ⟨index, .buffer buffer.name, ?_, rfl, ?_⟩
    · have entry : (⟨index, .buffer buffer.name, buffer.name,
          buffer.handle⟩ : Entry) ∈ record.entries index :=
        List.mem_append_right _ (List.mem_map_of_mem owned)
      rw [held_of_stage found]
      exact (record.held_of_entry index entry).2.2
    · rintro name norm same
      cases same
      exact of_decide_eq_true steady norm

end Runtime

namespace Session

variable {session next : Session τ γ}

theorem ranWith_congr {index : Nat} {old new : Record γ} (group : Group)
    (before : session.runtime.stages[index]? = some old)
    (after : next.runtime.stages[index]? = some new)
    (norms : next.runtime.norms = session.runtime.norms)
    (fixed : next.runtime.fixed = session.runtime.fixed)
    (contents : ∀ handle, session.runtime.FixedHandle handle →
      next.store.restore handle = session.store.restore handle) :
    next.ranWith group new.stage = session.ranWith group old.stage := by
  have same := congrArg (·[index]?) fixed
  simp only [Runtime.fixed, List.getElem?_map, before, after, Option.map_some,
    norms, Option.some.injEq, Prod.mk.injEq] at same
  obtain ⟨weights, buffers⟩ := same
  have known : (old.stage.weights,
      old.stage.buffers.filter (·.name ∉ session.runtime.norms)) ∈
        session.runtime.fixed :=
    List.mem_map.mpr ⟨old, List.mem_of_getElem? before, rfl⟩
  unfold ranWith
  rw [norms, weights, buffers]
  congr 1
  · apply List.map_congr_left
    intro weight member
    rw [contents weight.handle
      ⟨_, known, .inl (List.mem_map_of_mem member)⟩]
  · apply List.map_congr_left
    intro buffer member
    rw [contents buffer.handle
      ⟨_, known, .inr (List.mem_map_of_mem member)⟩]

end Session

namespace GraphSession

open Session

/-- The groups that have been run by then ran with what the records held at the
start, and BatchNorm buffers are all that a forward has replaced. -/
structure Executing (start : GraphSession τ γ σ) (done : Nat)
    (course : GraphSession τ γ σ) : Prop where
  afloat : Afloat course
  ir : course.ir = start.ir
  contexts : course.contexts = start.contexts
  latest : course.latest = start.latest
  applied : course.applied = start.applied
  runtime : ∃ stages, course.session.runtime =
    { start.session.runtime with stages := stages }
  gradients : ∀ index name,
    course.session.runtime.held (index, .gradient name) =
      start.session.runtime.held (index, .gradient name)
  norms : course.session.runtime.norms = start.session.runtime.norms
  fixed : course.session.runtime.fixed = start.session.runtime.fixed
  contents : ∀ handle, start.session.runtime.FixedHandle handle →
    course.session.store.restore handle =
      start.session.store.restore handle
  older : start.session.Tidy ∧
    start.session.store.next ≤ course.session.store.next
  length : course.ran.length = done
  ran : ∀ index < done, ∀ group record, start.ir.groups[index]? = some group →
    start.session.runtime.stages[index]? = some record →
      course.ran[index]? = some (start.session.ranWith group record.stage)

section

variable {start course next : GraphSession τ γ σ} {done : Nat}

theorem Executing.spared (executing : Executing start done course)
    {session : Session τ γ}
    (spares : Spares start.session.runtime.FixedHandle course.session session)
    {handle : Handle} (fixed : start.session.runtime.FixedHandle handle) :
    session.store.restore handle = start.session.store.restore handle := by
  obtain ⟨index, part, held, _⟩ := fixed.held
  have older := executing.older.1.older held
  rw [spares.spares handle fixed (older.trans_le executing.older.2)]
  exact executing.contents handle fixed

theorem Executing.holds (executing : Executing start done course)
    {handle : Handle} (fixed : start.session.runtime.FixedHandle handle) :
    course.session.Holds handle := by
  unfold Runtime.FixedHandle at fixed
  rw [← executing.fixed] at fixed
  obtain ⟨index, part, held, _⟩ := Runtime.FixedHandle.held fixed
  exact ⟨_, held⟩

theorem Executing.drifts (executing : Executing start done course)
    (drifts : Drifts course next) : Executing start done next := by
  obtain ⟨afloat, carries⟩ := drifts executing.afloat
  have runtime := carries.harmless.runtime
  refine ⟨afloat, carries.ir.trans executing.ir,
    carries.contexts.trans executing.contexts,
    carries.latest.trans executing.latest,
    carries.applied.trans executing.applied, ?_, ?_, ?_, ?_, ?_,
    ⟨executing.older.1, executing.older.2.trans carries.harmless.grows⟩,
    ?_, ?_⟩
  · rw [runtime]
    exact executing.runtime
  · rw [runtime]
    exact executing.gradients
  · rw [runtime]
    exact executing.norms
  · rw [runtime]
    exact executing.fixed
  · intro handle fixed
    exact executing.spared (carries.harmless.mono fun _ fixed =>
      executing.holds fixed) fixed
  · rw [carries.ran]
    exact executing.length
  · rw [carries.ran]
    exact executing.ran

theorem Executing.respects {α : Type} (executing : Executing start done course)
    {program : GraphStepping τ γ σ α} (respects : program.Respects Drifts) :
    program.Leads course fun _ next => Executing start done next :=
  (respects course).mono fun _ _ drifts => executing.drifts drifts

theorem Executing.stages_length (executing : Executing start done course) :
    course.session.runtime.stages.length =
      start.session.runtime.stages.length := by
  have same := congrArg List.length executing.fixed
  rwa [Runtime.fixed, Runtime.fixed, List.length_map, List.length_map] at same

theorem Executing.stage (executing : Executing start done course)
    {index : Nat} {record : Record γ}
    (found : course.session.runtime.stages[index]? = some record) :
    ∃ old, start.session.runtime.stages[index]? = some old := by
  have bound := (List.getElem?_eq_some_iff.mp found).1
  rw [executing.stages_length] at bound
  exact ⟨_, List.getElem?_eq_getElem bound⟩

theorem Executing.noted (executing : Executing start done course)
    {group : Group} {record : Record γ}
    (within : start.ir.groups[done]? = some group)
    (found : course.session.runtime.stages[done]? = some record) :
    Executing start (done + 1) { course with
      ran := course.ran ++
        [course.session.ranWith group record.stage] } := by
  obtain ⟨old, before⟩ := executing.stage found
  have noted := ranWith_congr group before found executing.norms
    executing.fixed executing.contents
  obtain ⟨afloat, ir, contexts, latest, applied, runtime, gradients, norms,
    fixed, stays, older, length, ran⟩ := executing
  refine ⟨⟨afloat.tidy, afloat.values, afloat.snapshots, afloat.cotangents⟩,
    ir, contexts, latest, applied, runtime, gradients, norms, fixed, stays,
    older, ?_, ?_⟩
  · simp [length]
  · intro index bound one other listed listed'
    rw [noted]
    rcases Nat.lt_succ_iff_lt_or_eq.mp bound with earlier | rfl
    · rw [List.getElem?_append_left (length ▸ earlier)]
      exact ran index earlier one other listed listed'
    · rw [List.getElem?_append_right length.le, length, Nat.sub_self]
      rw [within] at listed
      rw [before] at listed'
      cases listed
      cases listed'
      rfl

theorem Executing.within (executing : Executing start done course)
    {session : Session τ γ}
    (spares : Spares start.session.runtime.FixedHandle course.session
      session) :
    Executing start done { course with session := session } := by
  have stays : ∀ handle, start.session.runtime.FixedHandle handle →
      session.store.restore handle =
        start.session.store.restore handle :=
    fun _ fixed => executing.spared spares fixed
  obtain ⟨afloat, ir, contexts, latest, applied, runtime, gradients, norms,
    fixed, _, older, length, ran⟩ := executing
  refine ⟨afloat.within spares.toGrows, ir, contexts, latest, applied, ?_, ?_,
    ?_, ?_, stays, ⟨older.1, older.2.trans spares.grows⟩, length, ran⟩
  all_goals
    dsimp only
    rw [spares.runtime]
    assumption

theorem Afloat.exchange (afloat : Afloat course) {session : Session τ γ}
    (grows : Grows course.session session) {handle : Handle}
    (newer : course.session.store.next ≤ handle)
    (older : handle < session.store.next) {runtime : Runtime γ}
    {place : Nat × Part}
    (swapped : ∀ slot, runtime.held slot =
      if slot = place then (session.runtime.held slot).map fun _ => handle
      else session.runtime.held slot) :
    Afloat { course with
      session := { session with runtime := runtime } } where
  tidy := (afloat.tidy.grows grows).swap (afloat.tidy.loose grows newer older)
    swapped
  values found one member :=
    have loose := afloat.values found one member
    (loose.grows grows).swap (loose.older.trans_le newer).ne swapped
  snapshots snapshot listed entry member :=
    have loose := afloat.snapshots snapshot listed entry member
    (loose.grows grows).swap (loose.older.trans_le newer).ne swapped
  cotangents found one member :=
    have loose := afloat.cotangents found one member
    (loose.grows grows).swap (loose.older.trans_le newer).ne swapped

theorem held_setBuffer (runtime : Runtime γ) (index name : Nat)
    (handle : Handle) (slot : Nat × Part) :
    (runtime.alter index (Record.setBuffer name handle)).held slot =
      if slot = (index, .buffer name) then
        (runtime.held slot).map fun _ => handle
      else runtime.held slot :=
  Runtime.held_alter_of
    (fun record other => record.held_setBuffer name handle other) rfl slot

theorem replaceBuffer_executing (executing : Executing start done course)
    {index : Nat} (bound : index < start.session.runtime.stages.length)
    {buffer : Buffer} (norm : buffer.name ∈ start.session.runtime.norms)
    (other : ¬start.session.runtime.FixedHandle buffer.handle)
    (mutated : Nat → τ) :
    (inside (replaceBuffer index mutated buffer)).Leads course
      fun _ next => Executing start done next := by
  have offloads : (Training.offload (mutated buffer.name)).Leads course.session
      (Ending (fun handle next => Offloaded start.session.runtime.FixedHandle
          (mutated buffer.name) course.session handle next)
        fun _ next => Spares start.session.runtime.FixedHandle course.session
          next) :=
    offload_spares _ _
  apply leads_within.mpr
  apply offloads.bind
  · intro handle session offloaded
    apply (free_spares other session).bind
    · intro _ freed later
      apply (change_leads _).mpr
      have spares := offloaded.toSpares.trans later
      have spared := executing.within spares
      have swapped :=
        held_setBuffer freed.runtime index buffer.name handle
      have older := offloaded.older.trans_le later.grows
      refine ⟨executing.afloat.exchange spares.toGrows offloaded.newer older
        swapped, spared.ir, spared.contexts, spared.latest, spared.applied, ?_,
        ?_, ?_, ?_, spared.contents, spared.older, spared.length, spared.ran⟩
      · obtain ⟨stages, same⟩ := spared.runtime
        have length := spared.stages_length
        change freed.runtime = _ at same
        change freed.runtime.stages.length = _ at length
        refine ⟨stages.modify index (Record.setBuffer buffer.name handle), ?_⟩
        change freed.runtime.alter index _ = _
        unfold Runtime.alter
        rw [length, if_neg bound.ne, same]
      · intro place name
        dsimp only
        rw [swapped, if_neg nofun]
        exact spared.gradients place name
      · exact (Runtime.norms_setBuffer index buffer.name handle).trans
          spared.norms
      · exact (Runtime.fixed_setBuffer (spared.norms ▸ norm) index
          handle).trans spared.fixed
    · intro raised freed spares
      exact executing.within (offloaded.toSpares.trans spares)
  · exact fun _ session spares => executing.within spares

def Stopped (start course : GraphSession τ γ σ) : Prop :=
  ∃ done, Executing start done course

theorem Executing.bind {α β : Type} {first : GraphStepping τ γ σ α}
    {second : α → GraphStepping τ γ σ β}
    {returns : β → GraphSession τ γ σ → Prop}
    (executing : Executing start done course) (drifts : Drifts course next)
    (respects : first.Respects Drifts)
    (late : ∀ value final, Drifts course final → (second value).Leads final
      (Ending returns fun _ last => Stopped start last)) :
    (first >>= second).Leads next
      (Ending returns fun _ last => Stopped start last) := by
  apply (respects next).bind
  · exact fun value final later => late value final (drifts.trans later)
  · exact fun _ _ later => ⟨done, executing.drifts (drifts.trans later)⟩

theorem replaceBuffers_executing (executing : Executing start done course)
    {index : Nat} (bound : index < start.session.runtime.stages.length)
    {buffers : List Buffer}
    (norms : ∀ buffer ∈ buffers,
      buffer.name ∈ start.session.runtime.norms)
    (others : ∀ buffer ∈ buffers,
      ¬start.session.runtime.FixedHandle buffer.handle)
    (mutated : Nat → τ) :
    (inside (each (replaceBuffer index mutated) buffers)).Leads course
      fun _ next => Executing start done next := by
  apply leads_within.mpr
  apply Leads.each
    (fun session => Executing start done { course with session := session })
    executing
  intro buffer member session executing
  exact replaceBuffer_executing executing bound (norms buffer member)
    (others buffer member) mutated

theorem norm_not_fixed {session : Session τ γ} (tidy : session.Tidy)
    {index : Nat} {record : Record γ}
    (found : session.runtime.stages[index]? = some record) {buffer : Buffer}
    (member : buffer ∈ record.stage.buffers.filter Buffer.batchNorm) :
    ¬session.runtime.FixedHandle buffer.handle := by
  intro fixed
  obtain ⟨place, part, held, persistent, other⟩ := fixed.held
  have entry : (⟨index, .buffer buffer.name, buffer.name, buffer.handle⟩ :
      Entry) ∈ record.entries index :=
    List.mem_append_right _
      (List.mem_map_of_mem (List.mem_of_mem_filter member))
  have own : session.runtime.held (index, .buffer buffer.name) =
      some buffer.handle := by
    rw [Runtime.held_of_stage found]
    exact (record.held_of_entry index entry).2.2
  exact other _ (Runtime.norm_of_buffer found member)
    (tidy.named persistent rfl held own)

theorem openSnapshot_drifts (course : GraphSession τ γ σ) :
    Drifts course { course with tape := { course.tape with
      buffers := course.tape.buffers ++ [[]] } } := by
  intro afloat
  refine ⟨⟨afloat.tidy, afloat.values, ?_, afloat.cotangents⟩, .refl _, rfl,
    rfl, rfl, rfl, rfl, rfl⟩
  intro snapshot listed entry member
  rcases List.mem_append.mp listed with listed | listed
  · exact afloat.snapshots snapshot listed entry member
  · rw [List.mem_singleton.mp listed] at member
    cases member

variable (model : GraphModel τ γ σ)

theorem callGroup_executing (save : Bool) {index : Nat}
    (executing : Executing start index course) {group : Group}
    {record : Record γ} (within : start.ir.groups[index]? = some group)
    (found : course.session.runtime.stages[index]? = some record)
    (arguments : List (Value τ γ σ)) :
    (callGroup model save index group record.stage arguments).Leads course
      (Ending (fun _ next => Executing start (index + 1) next)
        fun _ next => Stopped start next) := by
  have bound := (List.getElem?_eq_some_iff.mp found).1
  rw [executing.stages_length] at bound
  have names : ∀ buffer ∈ record.stage.buffers.filter Buffer.batchNorm,
      buffer.name ∈ start.session.runtime.norms := by
    intro buffer member
    rw [← executing.norms]
    exact Runtime.norm_of_buffer found member
  have others : ∀ buffer ∈ record.stage.buffers.filter Buffer.batchNorm,
      ¬start.session.runtime.FixedHandle buffer.handle := by
    intro buffer member
    unfold Runtime.FixedHandle
    rw [← executing.fixed]
    exact norm_not_fixed executing.afloat.tidy found member
  have noted := executing.noted within found
  apply leads_modify_bind.mpr
  apply noted.bind (.refl _)
    (inside_drifts fun _ => collect_spares restoreNamed_spares _)
  intro state next drifts
  apply noted.bind drifts (inside_drifts fun _ => call_spares)
  intro _ next drifts
  apply noted.bind drifts (inside_drifts fun _ => call_spares)
  intro _ next drifts
  apply leads_get_bind.mpr
  dsimp only
  split
  · exact ⟨index + 1, noted.drifts drifts⟩
  · rename_i results _
    apply (replaceBuffers_executing (noted.drifts drifts) bound names others
      _).bind
    · intro _ next replaced
      apply replaced.bind (.refl next)
        (each_drifts fun entry _ => keepValue_drifts entry)
      intro _ final drifts
      apply ((each_drifts fun name _ => consume_drifts save name) final).mono
      intro result last later
      have executing := replaced.drifts (drifts.trans later)
      cases result with
      | ok _ => exact executing
      | error raised => exact ⟨index + 1, executing⟩
    · exact fun _ next replaced => ⟨index + 1, replaced⟩

theorem runGroup_executing (save : Bool) {index : Nat}
    (executing : Executing start index course) {group : Group}
    {record : Record γ} (within : start.ir.groups[index]? = some group)
    (found : course.session.runtime.stages[index]? = some record) :
    (runGroup model save index group record.stage).Leads course
      (Ending (fun _ next => Executing start (index + 1) next)
        fun _ next => Stopped start next) := by
  have calls : ∀ arguments next, Drifts course next →
      (callGroup model save index group record.stage arguments).Leads next
        (Ending (fun _ final => Executing start (index + 1) final)
          fun _ final => Stopped start final) := by
    intro arguments next drifts
    have runtime := (drifts executing.afloat).2.harmless.runtime
    exact callGroup_executing model save (executing.drifts drifts) within
      (runtime ▸ found) arguments
  unfold runGroup
  apply executing.bind (.refl course) (checkBudget_drifts model group.nodes)
  intro _ next drifts
  apply executing.bind drifts (collect_drifts readValue_drifts group.inputs)
  intro arguments next drifts
  apply leads_modify_bind.mpr
  have opened := drifts.trans (openSnapshot_drifts next)
  split
  · apply executing.bind opened
      (each_drifts fun buffer _ => snapshotBuffer_drifts buffer)
    exact fun _ final drifts => calls arguments final drifts
  · exact calls arguments _ opened

theorem executeGroups_executing (save : Bool) {groups : List Group}
    {index : Nat} (executing : Executing start index course)
    (within : start.ir.groups.drop index = groups) :
    (each (executeGroup model save) (groups.zipIdx index)).Leads course
      (Ending (fun _ next => Executing start (index + groups.length) next)
        fun _ next => Stopped start next) := by
  induction groups generalizing index course with
  | nil => exact executing
  | cons group rest ih =>
      have here : start.ir.groups[index]? = some group := by
        rw [← Nat.add_zero index, ← List.getElem?_drop, within]
        rfl
      have later : start.ir.groups.drop (index + 1) = rest := by
        rw [← List.drop_drop, within]
        rfl
      have group : (executeGroup model save (group, index)).Leads course
          (Ending (fun _ next => Executing start (index + 1) next)
            fun _ next => Stopped start next) := by
        apply leads_get_bind.mpr
        split
        · exact ⟨index, executing⟩
        · rename_i record found
          exact runGroup_executing model save executing here found
      apply group.bind
      · intro _ next executing
        apply (ih executing later).mono
        intro result final given
        rwa [List.length_cons, ← Nat.add_assoc, Nat.add_right_comm]
      · exact fun _ _ stopped => stopped

theorem execute_executing (tidy : course.session.Tidy) (save : Bool)
    (inputs : List (Value τ γ σ)) :
    (execute model save inputs).Leads course
      (Ending (fun _ next =>
          Executing course course.ir.groups.length next)
        fun _ next => Stopped course next) := by
  let begun : GraphSession τ γ σ := { course with
    tape := ⟨∅, []⟩
    gradients := ∅
    ran := []
    remaining := fun name => (course.ir.consumers name).length }
  have ready : Executing course 0 begun :=
    { afloat := ⟨tidy, nofun, nofun, nofun⟩
      ir := rfl
      contexts := rfl
      latest := rfl
      applied := rfl
      runtime := ⟨course.session.runtime.stages, rfl⟩
      gradients := fun _ _ => rfl
      norms := rfl
      fixed := rfl
      contents := fun _ _ => rfl
      older := ⟨tidy, le_rfl⟩
      length := rfl
      ran := nofun }
  let ir := course.ir
  have body : (do
      each keepValue (ir.frontend.placeholders.zip inputs)
      each (executeGroup model save) ir.groups.zipIdx
      each readOutput ir.frontend.output.leaves :
        GraphStepping τ γ σ Unit).Leads begun
      (Ending (fun _ next => Executing course course.ir.groups.length next)
        fun _ next => Stopped course next) := by
    apply ready.bind (.refl _)
      (each_drifts fun entry _ => keepValue_drifts entry)
    intro _ next drifts
    apply (executeGroups_executing model save (ready.drifts drifts) rfl).bind
    · intro _ final executing
      rw [Nat.zero_add] at executing
      apply (executing.respects
        (each_drifts fun leaf _ => readOutput_drifts leaf)).mono
      intro result last executing
      cases result with
      | ok _ => exact executing
      | error raised => exact ⟨_, executing⟩
    · exact fun _ _ stopped => stopped
  apply leads_get_bind.mpr
  apply leads_modify_bind.mpr
  apply body.rescue
  · exact fun _ _ executing => executing
  · intro raised next stopped
    obtain ⟨done, executing⟩ := stopped
    apply executing.bind (.refl next) releaseTape_drifts
    exact fun _ final drifts => ⟨done, executing.drifts drifts⟩

end

end GraphSession

end TrainPool
