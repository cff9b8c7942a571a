import TrainPool.Torch.Checkpoint
import TrainPool.Torch.Spares

namespace TrainPool

open HandleStore Failing Training

/-! What the records hold while handles are exchanged for others, between the
steps of the training. -/

variable {τ γ : Type}

namespace Session

variable {session next start : Session τ γ} {handle : Handle}

structure Loose (session : Session τ γ) (handle : Handle) : Prop where
  older : handle < session.store.next
  unheld : ∀ slot, session.runtime.held slot ≠ some handle

/-- What the records hold was handed out by the store, and no weight or buffer
has its handle under another name. -/
structure Tidy (session : Session τ γ) : Prop where
  older : ∀ {slot handle}, session.runtime.held slot = some handle →
    handle < session.store.next
  named : ∀ {slot other : Nat × Part} {handle}, slot.2.persistent →
    other.2.persistent → session.runtime.held slot = some handle →
      session.runtime.held other = some handle → slot.2 = other.2

theorem Loose.grows (loose : session.Loose handle)
    (grows : Grows session next) : next.Loose handle where
  older := loose.older.trans_le grows.grows
  unheld := by
    rw [grows.runtime]
    exact loose.unheld

theorem Tidy.grows (tidy : session.Tidy) (grows : Grows session next) :
    next.Tidy where
  older := by
    rw [grows.runtime]
    exact fun held => (tidy.older held).trans_le grows.grows
  named := by
    rw [grows.runtime]
    exact tidy.named

theorem Tidy.loose (tidy : session.Tidy) (grows : Grows session next)
    (newer : session.store.next ≤ handle) (older : handle < next.store.next) :
    next.Loose handle where
  older := older
  unheld slot held := by
    rw [grows.runtime] at held
    exact absurd (tidy.older held) (Nat.not_lt.mpr newer)

theorem Tidy.same (tidy : session.Tidy) {runtime : Runtime γ}
    (persistent : ∀ slot : Nat × Part, slot.2.persistent →
      runtime.held slot = session.runtime.held slot)
    (older : ∀ {slot handle}, runtime.held slot = some handle →
      handle < session.store.next) :
    Tidy { session with runtime := runtime } where
  older := older
  named owned other held same := by
    rw [persistent _ owned] at held
    rw [persistent _ other] at same
    exact tidy.named owned other held same

theorem Tidy.swap (tidy : session.Tidy) (loose : session.Loose handle)
    {runtime : Runtime γ} {place : Nat × Part}
    (swapped : ∀ slot, runtime.held slot =
      if slot = place then (session.runtime.held slot).map fun _ => handle
      else session.runtime.held slot) :
    Tidy { session with runtime := runtime } where
  older {slot one} held := by
    change runtime.held slot = some one at held
    rw [swapped] at held
    split at held
    · obtain ⟨_, _, rfl⟩ := Option.map_eq_some_iff.mp held
      exact loose.older
    · exact tidy.older held
  named {slot other one} owned owned' held same := by
    change runtime.held slot = some one at held
    change runtime.held other = some one at same
    rw [swapped] at held same
    split at held
    · rename_i here
      obtain ⟨_, _, rfl⟩ := Option.map_eq_some_iff.mp held
      split at same
      · rename_i there
        rw [here, there]
      · exact absurd same (loose.unheld other)
    · split at same
      · obtain ⟨_, _, rfl⟩ := Option.map_eq_some_iff.mp same
        exact absurd held (loose.unheld slot)
      · exact tidy.named owned owned' held same

theorem Loose.swap {other : Handle} (loose : session.Loose other)
    (distinct : other ≠ handle) {runtime : Runtime γ} {place : Nat × Part}
    (swapped : ∀ slot, runtime.held slot =
      if slot = place then (session.runtime.held slot).map fun _ => handle
      else session.runtime.held slot) :
    Loose { session with runtime := runtime } other where
  older := loose.older
  unheld slot held := by
    change runtime.held slot = some other at held
    rw [swapped] at held
    split at held
    · obtain ⟨_, _, same⟩ := Option.map_eq_some_iff.mp held
      exact distinct same.symm
    · exact loose.unheld slot held

structure Exchanging (start session : Session τ γ) : Prop where
  tidy : session.Tidy
  length : session.runtime.stages.length = start.runtime.stages.length
  gradients : ∀ index name, session.runtime.held (index, .gradient name) =
    start.runtime.held (index, .gradient name)
  pending : session.runtime.pending = start.runtime.pending
  backwardComplete : session.runtime.backwardComplete =
    start.runtime.backwardComplete
  failed : start.runtime.failed = true → session.runtime.failed = true

theorem Exchanging.refl (tidy : session.Tidy) : Exchanging session session :=
  ⟨tidy, rfl, fun _ _ => rfl, rfl, rfl, id⟩

theorem Exchanging.grows (exchanging : Exchanging start session)
    (grows : Grows session next) : Exchanging start next := by
  obtain ⟨tidy, length, gradients, pending, complete, failed⟩ := exchanging
  have runtime := grows.runtime
  refine ⟨tidy.grows grows, ?_, ?_, ?_, ?_, ?_⟩
  all_goals rw [runtime]
  · exact length
  · exact gradients
  · exact pending
  · exact complete
  · exact failed

theorem Exchanging.alter (exchanging : Exchanging start session) {index : Nat}
    {change : Record γ → Record γ}
    (tidy : Tidy { session with
      runtime := session.runtime.alter index change })
    (same : ∀ record name, (change record).held (.gradient name) =
      record.held (.gradient name)) :
    Exchanging start { session with
      runtime := session.runtime.alter index change } := by
  obtain ⟨_, length, gradients, pending, complete, failed⟩ := exchanging
  refine ⟨tidy, ?_, ?_, pending, complete, failed⟩
  · rw [← length]
    exact List.length_modify _ _ _
  · intro place name
    rw [← gradients]
    change (session.runtime.alter index change).held _ = _
    rw [Runtime.held_alter]
    split
    · rename_i here
      subst here
      unfold Runtime.held
      cases session.runtime.records[place]? with
      | none => rfl
      | some record => exact same record name
    · rfl

theorem held_put_gradient (part : Part) (handle : Handle) (record : Record γ)
    (name : ParameterName) : (record.put part handle).held (.gradient name) =
      record.held (.gradient name) := by
  cases part with
  | weight other => rfl
  | buffer other => rfl
  | gradient other => rfl
  | state other position => rfl

/-- Other tables are none that `put` writes to. -/
theorem alter_put_of_not {part : Part} (other : part.persistent = false)
    (handle : Handle) (runtime : Runtime γ) (index : Nat) :
    runtime.alter index (Record.put part handle) = runtime := by
  have same : (Record.put part handle : Record γ → Record γ) = id := by
    cases part with
    | weight name => cases other
    | buffer name => cases other
    | gradient name => rfl
    | state name position => rfl
  rw [same]
  cases runtime
  simp [Runtime.alter]

theorem Exchanging.put (exchanging : Exchanging start session) {index : Nat}
    {part : Part} (loose : session.Loose handle) :
    Exchanging start { session with
      runtime := session.runtime.alter index (Record.put part handle) } := by
  apply exchanging.alter ?_ (held_put_gradient part handle)
  cases kind : part.persistent with
  | true =>
      exact exchanging.tidy.swap loose fun slot =>
        @Runtime.held_alter_put _ _ ⟨index, part, 0, handle⟩ kind handle slot
  | false =>
      rw [alter_put_of_not kind]
      exact exchanging.tidy

theorem Loose.put {other : Handle} {index : Nat} {part : Part}
    (loose : session.Loose other) (distinct : other ≠ handle) :
    Loose { session with
      runtime := session.runtime.alter index (Record.put part handle) }
      other := by
  cases kind : part.persistent with
  | true =>
      exact loose.swap distinct fun slot =>
        @Runtime.held_alter_put _ _ ⟨index, part, 0, handle⟩ kind handle slot
  | false =>
      rw [alter_put_of_not kind]
      exact loose

theorem Exchanging.setState (exchanging : Exchanging start session)
    {index : Nat} {name : ParameterName} {state : StateDict Handle γ}
    (older : ∀ handle ∈ stateHandles state, handle < session.store.next) :
    Exchanging start { session with
      runtime := session.runtime.alter index (Record.setState name state) } := by
  apply exchanging.alter
  · apply exchanging.tidy.same
    · intro slot owned
      rw [Runtime.held_alter]
      split
      · rename_i here
        subst here
        unfold Runtime.held
        cases session.runtime.records[slot.1]? with
        | none => rfl
        | some record =>
            obtain ⟨place, part⟩ := slot
            cases part with
            | weight other => rfl
            | buffer other => rfl
            | gradient other => cases owned
            | state other position => cases owned
      · rfl
    · intro slot one held
      rw [Runtime.held_alter] at held
      split at held
      · rename_i here
        subst here
        obtain ⟨record, found, held⟩ := Option.bind_eq_some_iff.mp held
        have kept : record.held slot.2 = some one →
            one < session.store.next := by
          intro held
          have same : session.runtime.held slot = some one := by
            unfold Runtime.held
            rw [found]
            exact held
          exact exchanging.tidy.older same
        rw [Record.held_setState] at held
        split at held
        · split at held
          · obtain ⟨entry, listed, same⟩ := Option.bind_eq_some_iff.mp held
            exact older one
              (List.mem_filterMap.mpr ⟨entry, List.mem_of_getElem? listed, same⟩)
          · exact kept held
        · exact kept held
      · exact exchanging.tidy.older held
  · intro record other
    rfl

theorem Exchanging.change (exchanging : Exchanging start session)
    {runtime : Runtime γ} (stages : runtime.stages = session.runtime.stages)
    (dormant : runtime.dormant = session.runtime.dormant)
    (pending : runtime.pending = session.runtime.pending)
    (complete : runtime.backwardComplete = session.runtime.backwardComplete)
    (failed : session.runtime.failed = true → runtime.failed = true) :
    Exchanging start { session with runtime := runtime } := by
  have held : runtime.held = session.runtime.held := by
    funext slot
    unfold Runtime.held Runtime.records
    rw [stages, dormant]
  obtain ⟨⟨older, named⟩, length, gradients, pending', complete', failed'⟩ :=
    exchanging
  refine ⟨⟨?_, ?_⟩, ?_, ?_, pending.trans pending', complete.trans complete',
    fun start => failed (failed' start)⟩
  · simp only [held]
    exact older
  · simp only [held]
    exact named
  · change runtime.stages.length = _
    rw [stages, length]
  · simp only [held]
    exact gradients

end Session

namespace Training

open Session

variable {session start : Session τ γ}

section

variable (kinds : Kinds τ γ)

theorem convertEntry_exchanging (exchanging : Exchanging start session)
    (dtype : Nat) (entry : Entry) :
    (convertEntry kinds dtype entry).Leads session
      fun _ next => Exchanging start next := by
  apply (restore_grows entry.handle session).bind
  · intro value next grows
    have exchanging := exchanging.grows grows
    split
    · apply (offload_grows (kinds.cast dtype value) next).bind
      · intro replacement final given
        obtain ⟨newer, older, grows⟩ := given
        have loose := exchanging.tidy.loose grows newer older
        have exchanging := exchanging.grows grows
        apply (free_grows entry.handle final).bind
        · intro _ last grows
          apply (change_leads _).mpr
          exact (exchanging.grows grows).put (loose.grows grows)
        · exact fun _ last grows => exchanging.grows grows
      · exact fun _ final grows => exchanging.grows grows
    · exact exchanging
  · exact fun _ next grows => exchanging.grows grows

theorem convertDtype_exchanging (tidy : session.Tidy) (dtype : Nat) :
    (convertDtype kinds dtype).Leads session
      fun _ next => Exchanging session next := by
  apply leads_get_bind.mpr
  dsimp only
  split
  · exact .refl tidy
  · have records : (each (convertRecord kinds dtype)
        session.runtime.stateRecords).Leads session
          fun _ next => Exchanging session next := by
      apply Leads.each (Exchanging session) (.refl tidy)
      intro index _ next exchanging
      apply leads_get_bind.mpr
      cases next.runtime.records[index]? with
      | none => exact exchanging
      | some record =>
          apply (Leads.each (Exchanging session) exchanging
            fun entry _ state exchanging =>
              convertEntry_exchanging kinds exchanging dtype entry).bind
          · intro _ final exchanging
            exact (call_grows final).mono fun _ _ grows => exchanging.grows grows
          · exact fun _ _ exchanging => exchanging
    apply records.bind
    · intro _ next exchanging
      exact (call_grows next).mono fun _ _ grows => exchanging.grows grows
    · exact fun _ _ exchanging => exchanging

end

structure Uploaded {β : Type} (session next : Session τ γ)
    (staged : List (β × Handle)) : Prop where
  grows : Grows session next
  newer : ∀ item ∈ staged, session.store.next ≤ item.2
  older : ∀ item ∈ staged, item.2 < next.store.next
  distinct : (staged.map Prod.snd).Nodup

theorem stage_grows {β : Type} (items : List (β × Except Raised τ))
    (done : List Handle) (session : Session τ γ) :
    (stage done items).Leads session (Ending
      (fun staged next => Uploaded session next staged)
      fun _ next => Grows session next) := by
  induction items generalizing done session with
  | nil => exact ⟨.refl session, nofun, nofun, List.nodup_nil⟩
  | cons item rest ih =>
      obtain ⟨label, result⟩ := item
      cases result with
      | error raised =>
          apply (each_grows free_grows done session).bind
          · exact fun _ next grows => leads_throw.mpr grows
          · exact fun _ next grows => grows
      | ok value =>
          apply (publish_grows done value session).bind
          · intro handle next given
            obtain ⟨newer, older, grows⟩ := given
            apply (ih (done ++ [handle]) next).bind
            · intro others final uploaded
              obtain ⟨later, newer', older', distinct⟩ := uploaded
              refine leads_pure.mpr ⟨grows.trans later, ?_, ?_, ?_⟩
              · intro item member
                rcases List.mem_cons.mp member with rfl | member
                · exact newer
                · exact grows.grows.trans (newer' item member)
              · intro item member
                rcases List.mem_cons.mp member with rfl | member
                · exact older.trans_le later.grows
                · exact older' item member
              · refine List.nodup_cons.mpr ⟨?_, distinct⟩
                intro member
                obtain ⟨item, listed, same⟩ := List.mem_map.mp member
                exact absurd (newer' item listed)
                  (Nat.not_le.mpr (same ▸ older))
            · exact fun _ final later => grows.trans later
          · exact fun _ next grows => grows

theorem publishEntries_exchanging {staged : List (Entry × Handle)}
    (exchanging : Exchanging start session)
    (loose : ∀ item ∈ staged, session.Loose item.2)
    (distinct : (staged.map Prod.snd).Nodup) :
    (each publishEntry staged).Leads session
      fun _ next => Exchanging start next := by
  induction staged generalizing session with
  | nil => exact exchanging
  | cons item rest ih =>
      obtain ⟨absent, distinct⟩ := List.nodup_cons.mp distinct
      have here : (publishEntry item).Leads session (Ending
          (fun _ next => Exchanging start next ∧
            ∀ other ∈ rest, next.Loose other.2)
          fun _ next => Exchanging start next) := by
        apply leads_get_bind.mpr
        cases session.runtime.held item.1.slot with
        | none => exact exchanging
        | some old =>
            apply leads_modify_bind.mpr
            have put : Exchanging start { session with
                runtime := session.runtime.alter item.1.index
                  (Record.put item.1.part item.2) } :=
              exchanging.put (loose item List.mem_cons_self)
            apply (free_grows old _).mono
            intro result next grows
            cases result with
            | ok _ =>
                refine ⟨put.grows grows, ?_⟩
                intro other member
                have kept := loose other (List.mem_cons_of_mem _ member)
                refine (kept.put ?_).grows grows
                intro same
                exact absent (same ▸ List.mem_map_of_mem member)
            | error raised => exact put.grows grows
      apply here.bind
      · exact fun _ next given => ih given.1 given.2 distinct
      · exact fun _ next exchanging => exchanging

theorem stopAt_exchanging {α : Type} {body : Stepping τ γ α}
    (leads : body.Leads session fun _ next => Exchanging start next) :
    (stopAt body).Leads session fun _ next => Exchanging start next := by
  apply leads.rescue
  · exact fun _ _ exchanging => exchanging
  · intro raised next exchanging
    apply leads_modify_bind.mpr
    exact exchanging.change rfl rfl rfl rfl fun _ => rfl

theorem loadStateDict_exchanging (kinds : Kinds τ γ) (tidy : session.Tidy)
    (checkpoint : List (Nat × Leaf τ γ)) (strict assign : Bool) :
    (loadStateDict kinds checkpoint strict assign).Leads session
      fun _ next => Exchanging session next := by
  have prepared : (prepareModel kinds checkpoint strict assign).Leads session
      (Ending (fun staged next => Uploaded session next staged)
        fun _ next => Exchanging session next) := by
    apply leads_get_bind.mpr
    dsimp only
    split
    · exact .refl tidy
    · split
      · exact .refl tidy
      · apply (stage_grows (modelItems kinds session checkpoint) [] session).mono
        intro result next given
        cases result with
        | ok staged => exact given
        | error raised => exact (Exchanging.refl tidy).grows given
  apply leads_get_bind.mpr
  apply prepared.bind
  · intro staged next uploaded
    obtain ⟨grows, newer, older, distinct⟩ := uploaded
    have published := publishEntries_exchanging
      ((Exchanging.refl tidy).grows grows) (fun item member =>
        tidy.loose grows (newer item member) (older item member)) distinct
    apply (stopAt_exchanging published).bind
    · exact fun _ _ exchanging => exchanging
    · exact fun _ _ exchanging => exchanging
  · exact fun _ _ exchanging => exchanging

theorem publishParameter_exchanging
    {staged : List (((Nat × ParameterName) × String) × Handle)}
    (key : Nat × ParameterName) (exchanging : Exchanging start session)
    (older : ∀ item ∈ staged, item.2 < session.store.next) :
    (publishParameter staged key).Leads session fun _ next =>
      Exchanging start next ∧ session.store.next ≤ next.store.next := by
  apply leads_get_bind.mpr
  apply (each_grows free_grows _ session).bind
  · intro _ next grows
    apply (change_leads _).mpr
    refine ⟨(exchanging.grows grows).setState ?_, grows.grows⟩
    intro handle member
    obtain ⟨entry, listed, same⟩ := List.mem_filterMap.mp member
    obtain ⟨item, within, rfl⟩ := List.mem_map.mp listed
    cases same
    exact (older item (List.mem_of_mem_filter within)).trans_le grows.grows
  · exact fun _ next grows => ⟨exchanging.grows grows, grows.grows⟩

theorem loadOptimizer_exchanging (kinds : Kinds τ γ) (attached : Attached γ)
    (tidy : session.Tidy) (checkpoint : SavedOptimizer τ γ) :
    (loadOptimizer kinds attached checkpoint).Leads session
      fun _ next => Exchanging session next := by
  have prepared : (prepareOptimizer kinds attached checkpoint).Leads session
      (Ending (fun given next => Uploaded session next given.2.1)
        fun _ next => Exchanging session next) := by
    apply leads_get_bind.mpr
    split
    · exact .refl tidy
    · rename_i items options _
      apply (stage_grows _ [] session).bind
      · exact fun staged next uploaded => uploaded
      · exact fun _ next grows => (Exchanging.refl tidy).grows grows
  apply prepared.bind
  · intro given next uploaded
    obtain ⟨keys, staged, options⟩ := given
    have exchanging := (Exchanging.refl tidy).grows uploaded.grows
    have published : (each (publishParameter staged) keys).Leads next
        fun _ final => Exchanging session final ∧
          ∀ item ∈ staged, item.2 < final.store.next := by
      apply Leads.each (fun final => Exchanging session final ∧
        ∀ item ∈ staged, item.2 < final.store.next)
        ⟨exchanging, uploaded.older⟩
      intro key _ final given
      apply (publishParameter_exchanging key given.1 given.2).mono
      intro _ last later
      exact ⟨later.1, fun item member =>
        (given.2 item member).trans_le later.2⟩
    apply stopAt_exchanging
    apply published.bind
    · intro _ final given
      have changed : Exchanging session { final with
          runtime := { final.runtime with
            options := options ∪ final.runtime.options } } :=
        given.1.change rfl rfl rfl rfl id
      apply leads_modify_bind.mpr
      apply leads_get_bind.mpr
      split
      · exact changed
      · exact changed
    · exact fun _ final given => given.1
  · exact fun _ _ exchanging => exchanging

/-! What only reads. -/

section

variable {kept : Handle → Prop}

theorem restoreEntry_spares (entry : String × Leaf Handle γ) :
    (restoreEntry entry : Stepping τ γ (String × Leaf τ γ)).Respects
      (Spares kept) := by
  obtain ⟨key, leaf⟩ := entry
  cases leaf with
  | tensor handle =>
      exact spares_bind (restore_spares handle) fun _ => pure_spares _
  | constant value => exact pure_spares _
  | none => exact pure_spares _

theorem stateDict_spares :
    (stateDict : Stepping τ γ _).Respects (Spares kept) := by
  intro session
  refine collect_spares ?_ session.runtime.stateNames session
  intro name
  unfold stateEntry
  split
  · exact throw_spares _
  · exact spares_bind (restore_spares _) fun _ => pure_spares _

theorem restoreState_spares (runtime : Runtime γ)
    (item : (Nat × ParameterName) × Nat) :
    (restoreState runtime item : Stepping τ γ _).Respects (Spares kept) := by
  unfold restoreState
  dsimp only
  split
  · exact pure_spares none
  · exact spares_bind (collect_spares restoreEntry_spares _)
      fun _ => pure_spares _

theorem optimizerStateDict_spares :
    (optimizerStateDict : Stepping τ γ _).Respects (Spares kept) := by
  intro session
  apply leads_get_bind.mpr
  dsimp only
  split
  · exact Spares.refl session
  · exact spares_bind (collect_spares (restoreState_spares session.runtime) _)
      (fun _ => pure_spares _) session

end

end Training

end TrainPool
