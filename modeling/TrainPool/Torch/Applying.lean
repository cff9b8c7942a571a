import TrainPool.Torch.Rewinding

namespace TrainPool

open HandleStore Failing Training

/-! The step of the optimizer of a graph runtime, whichever call raises. -/

variable {τ γ σ : Type}

namespace Runtime

variable {runtime : Runtime γ}

def roster (runtime : Runtime γ) : List (List (ParameterName × Bool)) :=
  runtime.stages.map fun record => record.stage.weights.map fun weight =>
    (weight.name, weight.trainable)

def Trains (runtime : Runtime γ) (key : Nat × ParameterName) : Prop :=
  ∃ entries, runtime.roster[key.1]? = some entries ∧ (key.2, true) ∈ entries

theorem roster_setWeight (index : Nat) (name : ParameterName)
    (handle : Handle) :
    (runtime.alter index (Record.setWeight name handle)).roster =
      runtime.roster := by
  apply map_modify_same
  intro record
  change ((record.stage.weights.map fun weight => if weight.name = name then
    { weight with handle := handle } else weight).map _) = _
  rw [List.map_map]
  apply List.map_congr_left
  intro weight _
  simp only [Function.comp_apply]
  split
  · rfl
  · rfl

theorem roster_install (index : Nat) (name : ParameterName) (weight : Handle)
    (state : StateDict Handle γ) :
    (runtime.install index name weight state).roster = runtime.roster := by
  have same : ∀ record : Record γ,
      ((record.setState name state).stage.weights.map fun weight =>
        (weight.name, weight.trainable)) =
      record.stage.weights.map fun weight =>
        (weight.name, weight.trainable) := fun _ => rfl
  exact (map_modify_same same index _).trans (roster_setWeight index name _)

theorem roster_popGradient (index : Nat) (name : ParameterName) :
    (runtime.alter index (Record.popGradient name)).roster =
      runtime.roster := by
  have same : ∀ record : Record γ,
      ((record.popGradient name).stage.weights.map fun weight =>
        (weight.name, weight.trainable)) =
      record.stage.weights.map fun weight =>
        (weight.name, weight.trainable) := fun _ => rfl
  exact map_modify_same same index _

theorem Trains.weight {index : Nat} {name : ParameterName} {record : Record γ}
    (trains : runtime.Trains (index, name))
    (found : runtime.stages[index]? = some record) :
    (∃ handle, record.stage.weightOf name = some handle) ∧
      record.stage.trains name = true := by
  obtain ⟨entries, listed, member⟩ := trains
  change (runtime.stages.map _)[index]? = some entries at listed
  rw [List.getElem?_map, found] at listed
  cases listed
  obtain ⟨weight, owned, same⟩ := List.mem_map.mp member
  obtain ⟨rfl, trained⟩ := Prod.mk.inj same
  constructor
  · cases kind : record.stage.weights.find? (·.name = weight.name) with
    | none =>
        have other := List.find?_eq_none.mp kind weight owned
        exact absurd (decide_eq_true rfl) other
    | some found =>
        refine ⟨found.handle, ?_⟩
        unfold ModuleStage.weightOf
        rw [kind]
        rfl
  · exact List.any_eq_true.mpr ⟨weight, owned, by simp [trained]⟩

end Runtime

namespace Session

/-- Each gradient is that of a parameter that is trained, under a handle that
nothing else has. -/
structure Graded (session : Session τ γ) : Prop where
  tidy : session.Tidy
  trained : ∀ {index name handle},
    session.runtime.held (index, .gradient name) = some handle →
      session.runtime.Trains (index, name)
  apart : ∀ {index name handle slot},
    session.runtime.held (index, .gradient name) = some handle →
      session.runtime.held slot = some handle → slot = (index, .gradient name)

def GradientBut (session : Session τ γ) (key : Nat × ParameterName)
    (handle : Handle) : Prop :=
  ∃ index name, (index, name) ≠ key ∧
    session.runtime.held (index, .gradient name) = some handle

structure Advanced (key : Nat × ParameterName) (session next : Session τ γ) :
    Prop where
  graded : next.Graded
  roster : next.runtime.roster = session.runtime.roster
  held : ∀ index name, next.runtime.held (index, .gradient name) =
    if (index, name) = key then none
    else session.runtime.held (index, .gradient name)
  contents : ∀ handle, session.GradientBut key handle →
    next.store.restore handle = session.store.restore handle

theorem Graded.grows {session next : Session τ γ} (graded : session.Graded)
    (grows : Grows session next) : next.Graded where
  tidy := graded.tidy.grows grows
  trained := by
    rw [grows.runtime]
    exact graded.trained
  apart := by
    rw [grows.runtime]
    exact graded.apart

end Session

namespace Training

open Session GraphSession

variable {session : Session τ γ} {kept : Handle → Prop}

theorem publishState_spares {limit : Handle}
    (below : ∀ handle, kept handle → handle < limit) (state : StateDict τ γ)
    (replacements : List Handle)
    (newer : ∀ handle ∈ replacements, limit ≤ handle) (session : Session τ γ)
    (later : limit ≤ session.store.next) :
    (publishState replacements state).Leads session (Ending
      (fun result next => Saved kept session (stateHandles result) next)
      fun _ next => Spares kept session next) := by
  induction state generalizing replacements session with
  | nil => exact ⟨.refl session, nofun, nofun⟩
  | cons entry rest ih =>
      obtain ⟨key, leaf⟩ := entry
      cases leaf with
      | tensor value =>
          apply (publish_spares (fun handle member => new_not_kept below
            (newer handle member)) value session).bind
          · intro handle next offloaded
            have saves := ih (replacements ++ [handle]) (by
              intro other member
              rcases List.mem_append.mp member with member | member
              · exact newer other member
              · rw [List.mem_singleton.mp member]
                exact later.trans offloaded.newer) next
              (later.trans offloaded.grows)
            apply saves.bind
            · exact fun _ _ saved => Saved.cons offloaded saved
            · exact fun _ final spares => offloaded.toSpares.trans spares
          · exact fun _ _ spares => spares
      | constant value =>
          apply (ih replacements newer session later).bind
          · exact fun _ _ saved => saved
          · exact fun _ _ spares => spares
      | none =>
          apply (ih replacements newer session later).bind
          · exact fun _ _ saved => saved
          · exact fun _ _ spares => spares

theorem publishUpdate_spares
    (below : ∀ handle, kept handle → handle < session.store.next)
    (updated : τ × StateDict τ γ) :
    (publishUpdate updated).Leads session (Ending
      (fun published next =>
        Saved kept session (published.1 :: stateHandles published.2) next)
      fun _ next => Spares kept session next) := by
  have published : (publish [] updated.1).Leads session (Ending
      (fun handle next => Offloaded kept updated.1 session handle next)
      fun _ next => Spares kept session next) :=
    publish_spares nofun updated.1 session
  apply published.bind
  · intro weight next offloaded
    have saves := publishState_spares below updated.2 [weight] (by
      intro handle member
      rw [List.mem_singleton.mp member]
      exact offloaded.newer) next offloaded.grows
    apply saves.bind
    · exact fun _ _ saved => Saved.cons offloaded saved
    · exact fun _ final spares => offloaded.toSpares.trans spares
  · exact fun _ _ spares => spares

theorem compute_spares (optimizer : Optimizer τ γ) (name : ParameterName)
    (weight gradient : Handle) (oldState : StateDict Handle γ) :
    (compute optimizer name weight gradient oldState).Respects
      (Spares kept) := by
  apply spares_bind
  · exact fun session => ⟨⟨rfl, rfl, rfl, rfl, le_rfl⟩, fun _ _ _ => rfl⟩
  · intro _
    apply spares_bind (each_spares fun _ _ => call_spares)
    intro _
    apply spares_bind call_spares
    intro _
    apply spares_bind (restore_spares weight)
    intro parameter
    apply spares_bind (restore_spares gradient)
    intro grad
    apply spares_bind call_spares
    intro _
    exact spares_bind (collect_spares restoreEntry_spares oldState) fun _ =>
      spares_bind call_spares fun _ => pure_spares _

end Training

/-! One parameter is swapped for its update. -/

namespace Session

open Training GraphSession

variable {session : Session τ γ} {kept : Handle → Prop}

theorem Graded.installed {next : Session τ γ} (graded : session.Graded)
    {index : Nat} {name : ParameterName} {old weight : Handle}
    {state : StateDict Handle γ}
    (found : session.runtime.held (index, .weight name) = some old)
    (saved : Saved kept session (weight :: stateHandles state) next) :
    Graded { next with
      runtime := next.runtime.install index name weight state } ∧
    ∀ place other, (next.runtime.install index name weight state).held
        (place, .gradient other) =
      session.runtime.held (place, .gradient other) := by
  have grows := saved.toGrows
  have runtime := grows.runtime
  have gradients : ∀ place other,
      (next.runtime.install index name weight state).held
        (place, .gradient other) =
          session.runtime.held (place, .gradient other) := by
    intro place other
    have same := @Runtime.held_install_of_ne _ next.runtime index name
      (place, .gradient other) weight state nofun nofun
    rw [same, runtime]
  have first : weight ∈ weight :: stateHandles state := List.mem_cons_self
  have loose := graded.tidy.loose grows (saved.newer weight first)
    (saved.older weight first)
  have put : Exchanging next { next with
      runtime := next.runtime.alter index (Record.setWeight name weight) } :=
    @Exchanging.put _ _ _ _ _ (.refl (graded.tidy.grows grows)) index
      (.weight name) loose
  have set : Exchanging next { next with
      runtime := next.runtime.install index name weight state } :=
    put.setState fun handle member =>
      saved.older handle (List.mem_cons_of_mem _ member)
  have held : next.runtime.held (index, .weight name) = some old := by
    rw [runtime]
    exact found
  refine ⟨⟨set.tidy, ?_, ?_⟩, gradients⟩
  · intro place other handle holds
    change (next.runtime.install _ _ _ _).held _ = _ at holds
    rw [gradients] at holds
    obtain ⟨entries, listed, member⟩ := graded.trained holds
    refine ⟨entries, ?_, member⟩
    change (next.runtime.install _ _ _ _).roster[_]? = _
    rw [Runtime.roster_install, runtime]
    exact listed
  · intro place other handle slot holds same
    change (next.runtime.install _ _ _ _).held _ = _ at holds
    change (next.runtime.install _ _ _ _).held _ = _ at same
    rw [gradients] at holds
    have older := graded.tidy.older holds
    by_cases here : slot = (index, .weight name)
    · rw [here, Runtime.held_install_weight held] at same
      cases same
      exact absurd older (Nat.not_lt.mpr (saved.newer _ first))
    · by_cases there : ∃ position, slot = (index, .state name position)
      · obtain ⟨position, rfl⟩ := there
        have within := (Runtime.held_state (next.runtime.install index name
          weight state) (index, name) position).symm.trans same
        rw [Runtime.stateOf_install held] at within
        obtain ⟨entry, listed, kind⟩ := Option.bind_eq_some_iff.mp within
        have member : handle ∈ stateHandles state :=
          List.mem_filterMap.mpr ⟨entry, List.mem_of_getElem? listed, kind⟩
        exact absurd older (Nat.not_lt.mpr
          (saved.newer handle (List.mem_cons_of_mem _ member)))
      · rw [Runtime.held_install_of_ne here fun position same =>
          there ⟨position, same⟩, runtime] at same
        exact graded.apart holds same

theorem Graded.popped (graded : session.Graded) (index : Nat)
    (name : ParameterName) :
    Graded { session with
      runtime := session.runtime.alter index (Record.popGradient name) } := by
  have kept : ∀ {slot handle}, (session.runtime.alter index
      (Record.popGradient name)).held slot = some handle →
        session.runtime.held slot = some handle := by
    intro slot handle held
    rw [Runtime.held_pop] at held
    split at held
    · cases held
    · exact held
  refine ⟨?_, ?_, fun held same => graded.apart (kept held) (kept same)⟩
  · apply graded.tidy.same
    · intro slot persistent
      rw [Runtime.held_pop, if_neg]
      rintro rfl
      cases persistent
    · exact fun held => graded.tidy.older (kept held)
  · intro place other handle held
    obtain ⟨entries, listed, member⟩ := graded.trained (kept held)
    refine ⟨entries, ?_, member⟩
    change (session.runtime.alter _ _).roster[_]? = _
    rw [Runtime.roster_popGradient]
    exact listed

end Session

namespace Training

open Session GraphSession

variable {session : Session τ γ}

theorem install_advanced (graded : session.Graded) {index : Nat}
    {name : ParameterName} {weight gradient : Handle}
    {published : Handle × StateDict Handle γ} {next : Session τ γ}
    (weights : session.runtime.held (index, .weight name) = some weight)
    (gradients : session.runtime.held (index, .gradient name) = some gradient)
    (saved : Saved (session.GradientBut (index, name)) session
      (published.1 :: stateHandles published.2) next) :
    (install index name weight gradient
      (session.runtime.stateOf (index, name)) published).Leads next (Ending
        (fun _ final => Advanced (index, name) session final)
        fun _ final => final.Tidy) := by
  obtain ⟨installed, kept⟩ := Graded.installed graded weights saved
  let swapped : Session τ γ := { next with
    runtime := next.runtime.install index name published.1 published.2 }
  -- Nothing else has the handle of another gradient.
  have others : ∀ {handle part}, session.runtime.held (index, part) =
      some handle → (∀ other, part = .gradient other → other = name) →
        ¬session.GradientBut (index, name) handle := by
    intro handle part held own known
    obtain ⟨place, other, different, holds⟩ := known
    obtain ⟨rfl, gradient⟩ := Prod.mk.inj (graded.apart holds held)
    exact different (by rw [own other gradient])
  have goes : ∀ {program : Stepping τ γ Unit} {session' : Session τ γ}
      {rest : Unit → Stepping τ γ Unit},
      program.Respects (Spares (session.GradientBut (index, name))) →
      Spares (session.GradientBut (index, name)) swapped session' →
      (∀ final, Spares (session.GradientBut (index, name)) swapped final →
        (rest ()).Leads final (Ending
          (fun _ final => Advanced (index, name) session final)
          fun _ final => final.Tidy)) →
      (program >>= rest).Leads session' (Ending
        (fun _ final => Advanced (index, name) session final)
        fun _ final => final.Tidy) := by
    intro program session' rest respects early late
    apply (respects session').bind
    · exact fun _ final later => late final (early.trans later)
    · exact fun _ final later =>
        installed.tidy.grows (early.trans later).toGrows
  change (do
    free weight
    each free (stateHandles (session.runtime.stateOf (index, name)))
    free gradient
    alter index (Record.popGradient name) : Stepping τ γ Unit).Leads swapped _
  apply goes (free_spares (others weights nofun)) (.refl swapped)
  intro final spares
  have states : (each free (stateHandles
      (session.runtime.stateOf (index, name))) :
        Stepping τ γ Unit).Respects
          (Spares (session.GradientBut (index, name))) := by
    apply each_spares
    intro handle member
    obtain ⟨position, held⟩ := held_of_stateHandles member
    exact free_spares (others held nofun)
  apply goes states spares
  intro final spares
  apply goes (free_spares (others gradients fun other same =>
    (Part.gradient.inj same).symm)) spares
  intro final spares
  have runtime := spares.runtime
  apply (change_leads _).mpr
  refine ⟨(installed.grows spares.toGrows).popped index name, ?_, ?_, ?_⟩
  · change (final.runtime.alter _ _).roster = _
    rw [Runtime.roster_popGradient, runtime, Runtime.roster_install, saved.runtime]
  · intro place other
    change (final.runtime.alter _ _).held _ = _
    rw [Runtime.held_pop, runtime, kept]
    simp only [Prod.mk.injEq, Part.gradient.injEq]
  · intro handle known
    have older : handle < session.store.next := by
      obtain ⟨place, other, _, held⟩ := known
      exact graded.tidy.older held
    exact (spares.spares handle known (older.trans_le saved.grows)).trans
      (saved.spares handle known older)

theorem stepParameter_advanced (optimizer : Optimizer τ γ)
    (graded : session.Graded) (index : Nat) (name : ParameterName) :
    (stepParameter optimizer index name).Leads session (Ending
      (fun _ next => Advanced (index, name) session next)
      fun _ next => next.Tidy) := by
  have untouched : session.runtime.held (index, .gradient name) = none →
      Advanced (index, name) session session := by
    intro none
    refine ⟨graded, rfl, ?_, fun _ _ => rfl⟩
    intro place other
    split
    · rename_i same
      obtain ⟨rfl, rfl⟩ := Prod.mk.inj same
      exact none
    · rfl
  apply leads_get_bind.mpr
  cases found : session.runtime.stages[index]? with
  | none =>
      apply untouched
      cases held : session.runtime.held (index, .gradient name) with
      | none => rfl
      | some gradient =>
          obtain ⟨entries, listed, _⟩ := graded.trained held
          change (session.runtime.stages.map _)[index]? = _ at listed
          rw [List.getElem?_map, found] at listed
          cases listed
  | some record =>
      have gradients := Runtime.held_of_stage found (.gradient name)
      have weights := Runtime.held_of_stage found (.weight name)
      have state := Runtime.stateOf_of_stage found name
      change _ = record.gradients.lookup name at gradients
      change _ = record.stage.weightOf name at weights
      dsimp only
      cases grad : record.gradients.lookup name with
      | none =>
          rw [grad] at gradients
          have same := untouched gradients
          cases record.stage.weightOf name with
          | none => exact same
          | some weight => exact same
      | some gradient =>
          rw [grad] at gradients
          obtain ⟨⟨weight, owned⟩, trains⟩ :=
            (graded.trained gradients).weight found
          rw [owned] at weights
          rw [owned]
          dsimp only
          rw [trains, if_pos rfl, ← state]
          have below : ∀ handle, session.GradientBut (index, name) handle →
              handle < session.store.next := by
            intro handle known
            obtain ⟨place, other, _, held⟩ := known
            exact graded.tidy.older held
          apply (compute_spares optimizer name weight gradient _ session).bind
          · intro updated next early
            have publishes := publishUpdate_spares (fun handle known =>
              (below handle known).trans_le early.grows) updated
            apply publishes.bind
            · intro published final saved
              have all : Saved (session.GradientBut (index, name)) session
                  (published.1 :: stateHandles published.2) final :=
                ⟨early.trans saved.toSpares, fun handle member =>
                  early.grows.trans (saved.newer handle member), saved.older⟩
              exact install_advanced graded weights gradients all
            · exact fun _ final spares =>
                graded.tidy.grows (early.trans spares).toGrows
          · exact fun _ next spares => graded.tidy.grows spares.toGrows

end Training

end TrainPool
