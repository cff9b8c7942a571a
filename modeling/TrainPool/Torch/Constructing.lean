import TrainPool.Torch.GraphRuns

namespace TrainPool

open HandleStore Failing Training

/-! A graph runtime as it is constructed. -/

variable {τ γ σ : Type}

namespace GraphSession

open Session

structure Issued (session next : Session τ γ) (record : Record γ) : Prop where
  newer : ∀ {part handle}, record.held part = some handle →
    session.store.next ≤ handle
  older : ∀ {part handle}, record.held part = some handle →
    handle < next.store.next
  persistent : ∀ {part handle}, record.held part = some handle →
    part.persistent
  named : ∀ {part other handle}, record.held part = some handle →
    record.held other = some handle → part = other

theorem zip_right_unique {α β : Type} {first : List α} {second : List β}
    (distinct : second.Nodup) {one other : α} {item : β}
    (here : (one, item) ∈ first.zip second)
    (there : (other, item) ∈ first.zip second) : one = other := by
  induction first generalizing second with
  | nil => cases here
  | cons head rest ih =>
      cases second with
      | nil => cases here
      | cons value values =>
          obtain ⟨absent, distinct⟩ := List.nodup_cons.mp distinct
          rw [List.zip_cons_cons] at here there
          rcases List.mem_cons.mp here with same | left
          · obtain ⟨rfl, rfl⟩ := Prod.mk.inj same
            rcases List.mem_cons.mp there with same | right
            · exact (Prod.mk.inj same).1.symm
            · exact absurd (List.of_mem_zip right).2 absent
          · rcases List.mem_cons.mp there with same | right
            · obtain ⟨rfl, rfl⟩ := Prod.mk.inj same
              exact absurd (List.of_mem_zip left).2 absent
            · exact ih distinct left right

theorem uploaded_weight {prepared : Prepared τ γ} {declared : Declared}
    {named : declared.parameters.Nodup} {weights buffers : List Handle}
    {name : ParameterName} {handle : Handle}
    (held : (uploadedRecord prepared declared named weights buffers).held
      (.weight name) = some handle) :
    (name, handle) ∈ declared.parameters.zip weights := by
  obtain ⟨weight, listed, rfl⟩ := Option.map_eq_some_iff.mp held
  have same : weight.name = name := by simpa using List.find?_some listed
  obtain ⟨entry, member, rfl⟩ :=
    List.mem_map.mp (List.mem_of_find?_eq_some listed)
  subst same
  exact member

theorem uploaded_buffer {prepared : Prepared τ γ} {declared : Declared}
    {named : declared.parameters.Nodup} {weights buffers : List Handle}
    {name : Nat} {handle : Handle}
    (held : (uploadedRecord prepared declared named weights buffers).held
      (.buffer name) = some handle) :
    ∃ norm, ((name, norm), handle) ∈ declared.buffers.zip buffers := by
  obtain ⟨buffer, listed, rfl⟩ := Option.map_eq_some_iff.mp held
  have same : buffer.name = name := by simpa using List.find?_some listed
  obtain ⟨entry, member, rfl⟩ :=
    List.mem_map.mp (List.mem_of_find?_eq_some listed)
  subst same
  exact ⟨entry.1.2, member⟩

structure Handed (session next : Session τ γ) (handles : List Handle) :
    Prop where
  grows : Grows session next
  newer : ∀ handle ∈ handles, session.store.next ≤ handle
  older : ∀ handle ∈ handles, handle < next.store.next
  distinct : handles.Nodup

theorem offloads_handed {α : Type} (value : α → τ) (items : List α)
    (session : Session τ γ) :
    (collect (fun item => Training.offload (value item)) items).Leads session
      (Ending (fun handles next => Handed session next handles)
        fun _ _ => True) := by
  induction items generalizing session with
  | nil => exact ⟨.refl session, nofun, nofun, List.nodup_nil⟩
  | cons item rest ih =>
      apply (offload_grows (value item) session).bind
      · intro handle next given
        obtain ⟨newer, older, grows⟩ := given
        apply (ih next).bind
        · intro handles final handed
          refine leads_pure.mpr ⟨grows.trans handed.grows, ?_, ?_, ?_⟩
          · intro other member
            rcases List.mem_cons.mp member with rfl | member
            · exact newer
            · exact grows.grows.trans (handed.newer other member)
          · intro other member
            rcases List.mem_cons.mp member with rfl | member
            · exact older.trans_le handed.grows.grows
            · exact handed.older other member
          · refine List.nodup_cons.mpr ⟨?_, handed.distinct⟩
            intro member
            exact absurd older (Nat.not_lt.mpr (handed.newer handle member))
        · exact fun _ _ _ => trivial
      · exact fun _ _ _ => trivial

theorem uploadRecord_issued (prepared : Prepared τ γ) (declared : Declared)
    (named : declared.parameters.Nodup) (session : Session τ γ) :
    (uploadRecord prepared declared named).Leads session (Ending
      (fun record next => Grows session next ∧ Issued session next record)
      fun _ _ => True) := by
  apply (offloads_handed _ _ session).bind
  · intro weights middle first
    apply (offloads_handed _ _ middle).bind
    · intro buffers next second
      -- A weight and a buffer never have the same handle.
      have apart : ∀ {handle}, handle ∈ weights → handle ∉ buffers :=
        fun early late => absurd (first.older _ early)
          (Nat.not_lt.mpr (second.newer _ late))
      refine leads_pure.mpr ⟨first.grows.trans second.grows, ?_, ?_, ?_, ?_⟩
      · intro part handle held
        cases part with
        | weight name =>
            exact first.newer _ (List.of_mem_zip (uploaded_weight held)).2
        | buffer name =>
            obtain ⟨norm, member⟩ := uploaded_buffer held
            exact first.grows.grows.trans
              (second.newer _ (List.of_mem_zip member).2)
        | gradient name => cases held
        | state name position => cases held
      · intro part handle held
        cases part with
        | weight name =>
            exact (first.older _
              (List.of_mem_zip (uploaded_weight held)).2).trans_le
                second.grows.grows
        | buffer name =>
            obtain ⟨norm, member⟩ := uploaded_buffer held
            exact second.older _ (List.of_mem_zip member).2
        | gradient name => cases held
        | state name position => cases held
      · intro part handle held
        cases part with
        | weight name => rfl
        | buffer name => rfl
        | gradient name => cases held
        | state name position => cases held
      · intro part other handle held same
        cases part with
        | weight name =>
            have here := uploaded_weight held
            cases other with
            | weight other =>
                rw [zip_right_unique first.distinct here
                  (uploaded_weight same)]
            | buffer other =>
                obtain ⟨norm, member⟩ := uploaded_buffer same
                exact absurd (List.of_mem_zip member).2
                  (apart (List.of_mem_zip here).2)
            | gradient other => cases same
            | state other position => cases same
        | buffer name =>
            obtain ⟨norm, here⟩ := uploaded_buffer held
            cases other with
            | weight other =>
                exact absurd (List.of_mem_zip here).2
                  (apart (List.of_mem_zip (uploaded_weight same)).2)
            | buffer other =>
                obtain ⟨norm', there⟩ := uploaded_buffer same
                cases zip_right_unique second.distinct here there
                rfl
            | gradient other => cases same
            | state other position => cases same
        | gradient name => cases held
        | state name position => cases held
    · exact fun _ _ _ => trivial
  · exact fun _ _ _ => trivial

structure Built (session : Session τ γ) : Prop where
  older : ∀ record ∈ session.runtime.records, ∀ {part handle},
    record.held part = some handle → handle < session.store.next
  persistent : ∀ record ∈ session.runtime.records, ∀ {part handle},
    record.held part = some handle → part.persistent
  named : ∀ record ∈ session.runtime.records,
    ∀ other ∈ session.runtime.records, ∀ {part part' handle},
      record.held part = some handle → other.held part' = some handle →
        part = part'
  pending : session.runtime.pending = false
  backwardComplete : session.runtime.backwardComplete = false

section

variable {session next : Session τ γ} {record : Record γ}

theorem Built.add (built : Built session) (grows : Grows session next)
    (issued : Issued session next record) {runtime : Runtime γ}
    (records : ∀ one ∈ runtime.records,
      one ∈ session.runtime.records ∨ one = record)
    (pending : runtime.pending = false)
    (complete : runtime.backwardComplete = false) :
    Built { next with runtime := runtime } := by
  refine ⟨?_, ?_, ?_, pending, complete⟩
  · intro one member part handle held
    rcases records one member with member | rfl
    · exact (built.older one member held).trans_le grows.grows
    · exact issued.older held
  · intro one member part handle held
    rcases records one member with member | rfl
    · exact built.persistent one member held
    · exact issued.persistent held
  · intro one member other member' part part' handle held same
    rcases records one member with member | rfl
    · rcases records other member' with member' | rfl
      · exact built.named one member other member' held same
      · exact absurd (built.older one member held)
          (Nat.not_lt.mpr (issued.newer same))
    · rcases records other member' with member' | rfl
      · exact absurd (built.older other member' same)
          (Nat.not_lt.mpr (issued.newer held))
      · exact issued.named held same

theorem Built.tidy (built : Built session) : session.Tidy where
  older held := by
    obtain ⟨record, found, held⟩ := Option.bind_eq_some_iff.mp held
    exact built.older record (List.mem_of_getElem? found) held
  named _ _ held same := by
    obtain ⟨record, found, held⟩ := Option.bind_eq_some_iff.mp held
    obtain ⟨other, found', same⟩ := Option.bind_eq_some_iff.mp same
    exact built.named record (List.mem_of_getElem? found) other
      (List.mem_of_getElem? found') held same

theorem Built.clear (built : Built session) : session.runtime.Clear := by
  intro index name
  cases held : session.runtime.held (index, .gradient name) with
  | none => rfl
  | some handle =>
      obtain ⟨record, found, holds⟩ := Option.bind_eq_some_iff.mp held
      cases built.persistent record (List.mem_of_getElem? found) holds

end

theorem uploadRecord_inside (prepared : Prepared τ γ) (declared : Declared)
    (named : declared.parameters.Nodup) (course : GraphSession τ γ σ) :
    (inside (uploadRecord prepared declared named)).Leads course (Ending
      (fun record next => ∃ session, Grows course.session session ∧
        Issued course.session session record ∧
          next = { course with session := session })
      fun _ _ => True) := by
  apply leads_within.mpr
  apply (uploadRecord_issued prepared declared named course.session).mono
  intro result next given
  cases result with
  | ok record => exact ⟨next, given.1, given.2, rfl⟩
  | error raised => trivial

def Founded (ir : GraphIR γ σ) (course : GraphSession τ γ σ) : Prop :=
  Built course.session ∧ course = { session := course.session, ir := ir }

variable {ir : GraphIR γ σ}

theorem Founded.add {course : GraphSession τ γ σ} (founded : Founded ir course)
    {session : Session τ γ} {record : Record γ}
    (grows : Grows course.session session)
    (issued : Issued course.session session record) {runtime : Runtime γ}
    (records : ∀ one ∈ runtime.records,
      one ∈ session.runtime.records ∨ one = record)
    (pending : runtime.pending = session.runtime.pending)
    (complete : runtime.backwardComplete = session.runtime.backwardComplete) :
    Founded ir { course with
      session := { session with runtime := runtime } } := by
  obtain ⟨built, same⟩ := founded
  rw [grows.runtime] at records pending complete
  refine ⟨built.add grows issued records (pending.trans built.pending)
    (complete.trans built.backwardComplete), ?_⟩
  dsimp only
  rw [same]

variable (model : GraphModel τ γ σ) (prepared : Prepared τ γ)

theorem uploadGroup_founded (group : Group) (course : GraphSession τ γ σ)
    (founded : Founded ir course) :
    (uploadGroup model prepared group).Leads course
      (Ending (fun _ next => Founded ir next) fun _ _ => True) := by
  apply (uploadRecord_inside prepared _ _ course).bind
  · intro record next given
    obtain ⟨session, grows, issued, rfl⟩ := given
    apply leads_changing.mpr
    refine founded.add grows issued ?_ rfl rfl
    intro one member
    rcases List.mem_append.mp member with member | member
    · rcases List.mem_append.mp member with member | member
      · exact .inl (List.mem_append_left _ member)
      · exact .inr (List.mem_singleton.mp member)
    · exact .inl (List.mem_append_right _ member)
  · exact fun _ _ _ => trivial

theorem construct_kept {careful : Prop} (session : Session τ γ) :
    (construct model prepared).Leads { session := session, ir := ir } (Ending
      (fun _ next => Kept careful next) fun _ _ => True) := by
  let empty : Runtime γ := {
    stages := []
    dormant := Record.empty
    parameterOrder := some prepared.parameterOrder
    stateNames := prepared.stateNames
    options := prepared.options
    groupSize := prepared.groupSize }
  have nothing : ∀ record ∈ empty.records, ∀ part,
      record.held part = none := by
    intro record member part
    rw [List.mem_singleton.mp member]
    cases part with
    | weight name => rfl
    | buffer name => rfl
    | gradient name => rfl
    | state name position => rfl
  have started : Founded ir {
      session := { session with runtime := empty }, ir := ir } := by
    refine ⟨⟨?_, ?_, ?_, rfl, rfl⟩, rfl⟩
    · intro record member part handle held
      rw [nothing record member part] at held
      cases held
    · intro record member part handle held
      rw [nothing record member part] at held
      cases held
    · intro record member _ _ part _ handle held _
      rw [nothing record member part] at held
      cases held
  have groups : (each (uploadGroup model prepared) ir.groups).Leads
      { session := { session with runtime := empty }, ir := ir }
        (Ending (fun _ next => Founded ir next) fun _ _ => True) :=
    Leads.each_until started fun group _ course founded =>
      uploadGroup_founded model prepared group course founded
  apply leads_changing_bind.mpr
  apply leads_get_bind.mpr
  apply groups.bind
  · intro _ course founded
    apply (uploadRecord_inside prepared _ _ course).bind
    · intro dormant next given
      obtain ⟨session, grows, issued, rfl⟩ := given
      apply leads_changing.mpr
      have last : Founded ir { course with session := { session with
          runtime := { session.runtime with dormant := dormant } } } := by
        refine founded.add grows issued ?_ rfl rfl
        intro one member
        rcases List.mem_append.mp member with member | member
        · exact .inl (List.mem_append_left _ member)
        · exact .inr (List.mem_singleton.mp member)
      obtain ⟨built, same⟩ := last
      rw [same]
      exact ⟨⟨⟨nofun, List.nodup_nil⟩, nofun⟩, .resting ⟨built.tidy, built.clear,
        built.pending, built.backwardComplete⟩ nofun⟩
    · exact fun _ _ _ => trivial
  · exact fun _ _ _ => trivial

end GraphSession

end TrainPool
