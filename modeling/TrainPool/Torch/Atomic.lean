import TrainPool.Torch.Step

namespace TrainPool

open HandleStore Failing

/-! A step of the optimizer that raises tears no parameter. -/

namespace Session

variable {τ γ : Type}

/-- The places of the parameters hold distinct handles, and live ones. -/
structure Apart (session : Session τ γ) : Prop where
  distinct : ∀ {slot other : Nat × Part} {handle : Handle},
    slot.2.parameter?.isSome → other.2.parameter?.isSome →
      session.runtime.held slot = some handle →
      session.runtime.held other = some handle → slot = other
  live : ∀ {slot : Nat × Part} {handle : Handle},
    slot.2.parameter?.isSome → session.runtime.held slot = some handle →
      (session.store.restore handle).isSome

theorem Apart.older {session : Session τ γ} (apart : session.Apart)
    {slot : Nat × Part} {handle : Handle} (owned : slot.2.parameter?.isSome)
    (held : session.runtime.held slot = some handle) :
    handle < session.store.next :=
  session.store.fresh handle (AList.lookup_isSome.mp (apart.live owned held))

def updated (session : Session τ γ) (optimizer : Optimizer τ γ)
    (key : Nat × ParameterName) (weight gradient : Handle) :
    τ × StateDict τ γ :=
  optimizer.update (session.read weight) (session.read gradient)
    (session.readState (session.runtime.stateOf key))

structure Untouched (start now : Session τ γ) (key : Nat × ParameterName) :
    Prop where
  weight : now.runtime.held (key.1, .weight key.2) =
    start.runtime.held (key.1, .weight key.2)
  gradient : now.runtime.held (key.1, .gradient key.2) =
    start.runtime.held (key.1, .gradient key.2)
  state : now.runtime.stateOf key = start.runtime.stateOf key
  lasts : ∀ {part : Part} {handle : Handle}, part.parameter? = some key.2 →
    start.runtime.held (key.1, part) = some handle →
      now.store.restore handle = start.store.restore handle

def Swapped (optimizer : Optimizer τ γ) (start now : Session τ γ)
    (key : Nat × ParameterName) : Prop :=
  ∃ weight gradient fresh,
    start.runtime.held (key.1, .weight key.2) = some weight ∧
    start.runtime.held (key.1, .gradient key.2) = some gradient ∧
    now.runtime.held (key.1, .weight key.2) = some fresh ∧
    start.store.next ≤ fresh ∧
    now.store.restore fresh =
      some (start.updated optimizer key weight gradient).1 ∧
    List.Forall₂ (Training.Published start.store.next now.store)
      (now.runtime.stateOf key) (start.updated optimizer key weight gradient).2

/-- How far a step has come; `hanging` is the parameter that is swapped but
still has its gradient. -/
structure Torn (optimizer : Optimizer τ γ) (start now : Session τ γ)
    (hanging : Option (Nat × ParameterName)) : Prop where
  parameters : ∀ key, (Untouched start now key ∧ hanging ≠ some key) ∨
    (Swapped optimizer start now key ∧
      (now.runtime.held (key.1, .gradient key.2) = none ∨
        hanging = some key))
  grows : start.store.next ≤ now.store.next
  kept : ∀ handle, (now.store.restore handle).isSome →
    (start.store.restore handle).isSome ∨
      ∃ key, now.runtime.held (key.1, .weight key.2) = some handle ∨
        handle ∈ Training.stateHandles (now.runtime.stateOf key)
  unread : now.unread = start.unread

end Session

namespace Training

variable {τ γ : Type}

theorem held_of_stateHandles {runtime : Runtime γ}
    {key : Nat × ParameterName} {handle : Handle}
    (member : handle ∈ stateHandles (runtime.stateOf key)) :
    ∃ position, runtime.held (key.1, .state key.2 position) = some handle := by
  obtain ⟨entry, listed, same⟩ := List.mem_filterMap.mp member
  obtain ⟨position, found⟩ := List.mem_iff_getElem?.mp listed
  refine ⟨position, ?_⟩
  rw [Runtime.held_state, found]
  exact same

theorem read_of_restore {session next : Session τ γ} {handle : Handle}
    (same : next.store.restore handle = session.store.restore handle)
    (unread : next.unread = session.unread) :
    next.read handle = session.read handle := by
  rw [Session.read, Session.read, same, unread]

end Training

namespace Session

open Training

variable {τ γ : Type} {optimizer : Optimizer τ γ} {start now : Session τ γ}

theorem Untouched.updated {key : Nat × ParameterName} {weight gradient : Handle}
    (untouched : Untouched start now key) (unread : now.unread = start.unread)
    (holds : start.runtime.held (key.1, .weight key.2) = some weight)
    (grad : start.runtime.held (key.1, .gradient key.2) = some gradient) :
    now.updated optimizer key weight gradient =
      start.updated optimizer key weight gradient := by
  have value : now.read weight = start.read weight :=
    read_of_restore (untouched.lasts rfl holds) unread
  have slope : now.read gradient = start.read gradient :=
    read_of_restore (untouched.lasts rfl grad) unread
  have state : now.readState (start.runtime.stateOf key) =
      start.readState (start.runtime.stateOf key) := by
    apply readState_congr
    intro handle member
    obtain ⟨position, held⟩ := held_of_stateHandles member
    exact read_of_restore (untouched.lasts rfl held) unread
  unfold Session.updated
  rw [untouched.state, value, slope, state]

namespace Torn

theorem refl (optimizer : Optimizer τ γ) (start : Session τ γ) :
    Torn optimizer start start none where
  parameters _ := .inl ⟨⟨rfl, rfl, rfl, fun _ _ => rfl⟩, by simp⟩
  grows := le_rfl
  kept _ live := .inl live
  unread := rfl

theorem lost {next : Session τ γ} {hanging : Option (Nat × ParameterName)}
    (torn : Torn optimizer start now hanging) (apart : start.Apart)
    (records : next.runtime.records = now.runtime.records)
    (unread : next.unread = now.unread)
    (grows : now.store.next ≤ next.store.next)
    (same : ∀ handle,
      next.store.restore handle = now.store.restore handle ∨
        ∃ key part, hanging = some key ∧ part.parameter? = some key.2 ∧
          start.runtime.held (key.1, part) = some handle)
    (gone : ∀ handle, (next.store.restore handle).isSome →
      (now.store.restore handle).isSome) :
    Torn optimizer start next hanging := by
  have held : next.runtime.held = now.runtime.held := by
    funext slot
    unfold Runtime.held
    rw [records]
  have states : next.runtime.stateOf = now.runtime.stateOf := by
    funext key
    unfold Runtime.stateOf
    rw [records]
  constructor
  · intro key
    rw [held]
    rcases torn.parameters key with ⟨untouched, other⟩ | ⟨swapped, released⟩
    · refine .inl ⟨⟨?_, ?_, ?_, ?_⟩, other⟩
      · rw [held, untouched.weight]
      · rw [held, untouched.gradient]
      · rw [states, untouched.state]
      · intro part handle owned place
        rcases same handle with same | ⟨key', part', hangs, owned', place'⟩
        · exact same.trans (untouched.lasts owned place)
        · have equal := apart.distinct (by simp [owned]) (by simp [owned'])
            place place'
          obtain ⟨index, part⟩ := Prod.mk.inj equal
          rw [part, owned'] at owned
          have name := Option.some.inj owned
          exact absurd (hangs.trans (congrArg some
            (Prod.ext index.symm name))) other
    · have newer : ∀ handle, start.store.next ≤ handle →
          next.store.restore handle = now.store.restore handle := by
        intro handle fresh
        rcases same handle with same | ⟨key', part', _, owned', place'⟩
        · exact same
        · have older := apart.older (by simp [owned']) place'
          exact absurd older (Nat.not_lt.mpr fresh)
      obtain ⟨weight, gradient, fresh, holds, grad, swap, limit, found,
        published⟩ := swapped
      refine .inr ⟨⟨weight, gradient, fresh, holds, grad, ?_, limit, ?_, ?_⟩,
        released⟩
      · rw [held, swap]
      · rw [newer fresh limit, found]
      · rw [states]
        apply published.imp
        intro entry value published
        apply published.later le_rfl
        intro handle fresh value found
        rw [newer handle fresh, found]
  · exact torn.grows.trans grows
  · intro handle live
    rw [held, states]
    exact torn.kept handle (gone handle live)
  · exact unread.trans torn.unread

theorem idle {next : Session τ γ} {hanging : Option (Nat × ParameterName)}
    (torn : Torn optimizer start now hanging) (apart : start.Apart)
    (records : next.runtime.records = now.runtime.records)
    (unread : next.unread = now.unread)
    (grows : now.store.next ≤ next.store.next)
    (same : ∀ handle,
      next.store.restore handle = now.store.restore handle) :
    Torn optimizer start next hanging :=
  torn.lost apart records unread grows (fun handle => .inl (same handle))
    fun handle live => by rwa [same handle] at live

section Installs

variable {next : Session τ γ} {index : Nat} {name : ParameterName}
  {weight gradient fresh : Handle} {state : StateDict Handle γ}

theorem untouched_of_gradient (torn : Torn optimizer start now none)
    (grad : now.runtime.held (index, .gradient name) = some gradient) :
    Untouched start now (index, name) := by
  rcases torn.parameters (index, name) with ⟨untouched, _⟩ | ⟨_, released⟩
  · exact untouched
  · rcases released with released | hangs
    · rw [grad] at released
      cases released
    · cases hangs

theorem held_install_other {key : Nat × ParameterName}
    (runtime : next.runtime = now.runtime.install index name fresh state)
    (other : key ≠ (index, name)) {part : Part}
    (owned : part.parameter? = some key.2) :
    next.runtime.held (key.1, part) = now.runtime.held (key.1, part) := by
  rw [runtime]
  apply Runtime.held_install_of_ne
  · intro same
    obtain ⟨place, rfl⟩ := Prod.mk.inj same
    exact other (Prod.ext place (Option.some.inj owned.symm))
  · intro position same
    obtain ⟨place, rfl⟩ := Prod.mk.inj same
    exact other (Prod.ext place (Option.some.inj owned.symm))

theorem swapped_installed (torn : Torn optimizer start now none)
    (holds : now.runtime.held (index, .weight name) = some weight)
    (grad : now.runtime.held (index, .gradient name) = some gradient)
    (runtime : next.runtime = now.runtime.install index name fresh state)
    (newer : now.store.next ≤ fresh)
    (found : next.store.restore fresh =
      some (now.updated optimizer (index, name) weight gradient).1)
    (published : List.Forall₂ (Published now.store.next next.store) state
      (now.updated optimizer (index, name) weight gradient).2) :
    Swapped optimizer start next (index, name) := by
  have untouched := torn.untouched_of_gradient grad
  have weights : start.runtime.held (index, .weight name) = some weight :=
    untouched.weight.symm.trans holds
  have gradients : start.runtime.held (index, .gradient name) =
      some gradient := untouched.gradient.symm.trans grad
  have value : now.updated optimizer (index, name) weight gradient =
      start.updated optimizer (index, name) weight gradient :=
    untouched.updated torn.unread weights gradients
  refine ⟨weight, gradient, fresh, weights, gradients, ?_,
    torn.grows.trans newer, ?_, ?_⟩
  · rw [runtime]
    exact Runtime.held_install_weight holds
  · rw [found, value]
  · rw [runtime, Runtime.stateOf_install holds, ← value]
    apply published.imp
    intro entry value published
    exact published.later torn.grows fun _ _ _ found => found

theorem other_installed (torn : Torn optimizer start now none)
    (apart : start.Apart) {key : Nat × ParameterName}
    (other : key ≠ (index, name))
    (runtime : next.runtime = now.runtime.install index name fresh state)
    (older : ∀ handle < now.store.next,
      next.store.restore handle = now.store.restore handle) :
    (Untouched start next key ∧ some (index, name) ≠ some key) ∨
      (Swapped optimizer start next key ∧
        (next.runtime.held (key.1, .gradient key.2) = none ∨
          some (index, name) = some key)) := by
  have states : next.runtime.stateOf key = now.runtime.stateOf key := by
    rw [runtime]
    exact Runtime.stateOf_install_of_ne other
  have others : ∀ {part : Part}, part.parameter? = some key.2 →
      next.runtime.held (key.1, part) = now.runtime.held (key.1, part) :=
    held_install_other runtime other
  rcases torn.parameters key with ⟨untouched, _⟩ | ⟨swapped, released⟩
  · refine .inl ⟨⟨?_, ?_, ?_, ?_⟩, ?_⟩
    · rw [others rfl, untouched.weight]
    · rw [others rfl, untouched.gradient]
    · rw [states, untouched.state]
    · intro part handle owned held
      rw [← untouched.lasts owned held]
      apply older
      exact (apart.older (by simp [owned]) held).trans_le torn.grows
    · intro same
      exact other (Option.some.inj same).symm
  · obtain ⟨weight, gradient, fresh, before, slope, swap, limit, kept,
      published⟩ := swapped
    have lasts : ∀ {handle value},
        now.store.restore handle = some value →
          next.store.restore handle = some value := by
      intro handle value found
      rw [older handle (now.store.fresh handle (member_of_restore found)),
        found]
    refine .inr ⟨⟨weight, gradient, fresh, before, slope, ?_, limit,
      lasts kept, ?_⟩, ?_⟩
    · rw [others rfl, swap]
    · rw [states]
      apply published.imp
      intro entry value published
      exact published.later le_rfl fun _ _ _ found => lasts found
    · rw [others rfl]
      exact .inl (released.resolve_right (by simp))

theorem kept_installed (torn : Torn optimizer start now none)
    (apart : start.Apart)
    (holds : now.runtime.held (index, .weight name) = some weight)
    (untouched : Untouched start now (index, name))
    (runtime : next.runtime = now.runtime.install index name fresh state)
    (extended : Extends now.store next.store (fresh :: stateHandles state))
    {handle : Handle} (live : (next.store.restore handle).isSome) :
    (start.store.restore handle).isSome ∨
      ∃ key, next.runtime.held (key.1, .weight key.2) = some handle ∨
        handle ∈ Training.stateHandles (next.runtime.stateOf key) := by
  by_cases early : handle < now.store.next
  · rw [extended.old _ early] at live
    rcases torn.kept handle live with live | ⟨key, place⟩
    · exact .inl live
    · by_cases here : key = (index, name)
      · subst here
        apply Or.inl
        rcases place with held | member
        · exact apart.live rfl (untouched.weight.symm.trans held)
        · rw [untouched.state] at member
          obtain ⟨position, held⟩ := held_of_stateHandles member
          exact apart.live rfl held
      · refine .inr ⟨key, ?_⟩
        rw [held_install_other runtime here rfl, runtime,
          Runtime.stateOf_install_of_ne here]
        exact place
  · obtain ⟨value, found⟩ := Option.isSome_iff_exists.mp live
    refine .inr ⟨(index, name), ?_⟩
    rw [runtime, Runtime.held_install_weight holds,
      Runtime.stateOf_install holds]
    rcases List.mem_cons.mp (extended.new handle value
      (Nat.not_lt.mp early) found) with same | member
    · exact .inl (congrArg some same.symm)
    · exact .inr member

theorem installed (torn : Torn optimizer start now none) (apart : start.Apart)
    (holds : now.runtime.held (index, .weight name) = some weight)
    (grad : now.runtime.held (index, .gradient name) = some gradient)
    (runtime : next.runtime = now.runtime.install index name fresh state)
    (unread : next.unread = now.unread)
    (extended : Extends now.store next.store (fresh :: stateHandles state))
    (newer : now.store.next ≤ fresh)
    (found : next.store.restore fresh =
      some (now.updated optimizer (index, name) weight gradient).1)
    (published : List.Forall₂ (Published now.store.next next.store) state
      (now.updated optimizer (index, name) weight gradient).2) :
    Torn optimizer start next (some (index, name)) where
  parameters key := by
    by_cases here : key = (index, name)
    · subst here
      exact .inr ⟨torn.swapped_installed holds grad runtime newer found
        published, .inr rfl⟩
    · exact torn.other_installed apart here runtime fun _ => extended.old _
  grows := torn.grows.trans extended.grows
  kept handle live := torn.kept_installed apart holds
    (torn.untouched_of_gradient grad) runtime extended live
  unread := unread.trans torn.unread

end Installs

theorem popped {next : Session τ γ} {index : Nat} {name : ParameterName}
    (torn : Torn optimizer start now (some (index, name)))
    (runtime : next.runtime =
      now.runtime.alter index (Record.popGradient name))
    (unread : next.unread = now.unread) (store : next.store = now.store) :
    Torn optimizer start next none := by
  have weights : ∀ key : Nat × ParameterName,
      next.runtime.held (key.1, .weight key.2) =
        now.runtime.held (key.1, .weight key.2) := by
    intro key
    rw [runtime, Runtime.held_pop, if_neg]
    intro same
    cases (Prod.mk.inj same).2
  have states : ∀ key, next.runtime.stateOf key = now.runtime.stateOf key := by
    intro key
    rw [runtime, Runtime.stateOf_pop]
  constructor
  · intro key
    have gradients : next.runtime.held (key.1, .gradient key.2) =
        if key = (index, name) then none
          else now.runtime.held (key.1, .gradient key.2) := by
      rw [runtime, Runtime.held_pop]
      simp [Prod.ext_iff]
    rcases torn.parameters key with ⟨untouched, other⟩ | ⟨swapped, released⟩
    · have elsewhere : key ≠ (index, name) := by
        intro same
        exact other (congrArg some same.symm)
      refine .inl ⟨⟨?_, ?_, ?_, ?_⟩, by simp⟩
      · rw [weights, untouched.weight]
      · rw [gradients, if_neg elsewhere, untouched.gradient]
      · rw [states, untouched.state]
      · intro part handle owned held
        rw [store]
        exact untouched.lasts owned held
    · obtain ⟨weight, gradient, fresh, before, slope, swap, limit, kept,
        published⟩ := swapped
      refine .inr ⟨⟨weight, gradient, fresh, before, slope, ?_, limit, ?_, ?_⟩,
        .inl ?_⟩
      · rw [weights, swap]
      · rw [store, kept]
      · rw [states, store]
        exact published
      · rw [gradients]
        by_cases here : key = (index, name)
        · rw [if_pos here]
        · rw [if_neg here]
          apply released.resolve_right
          intro same
          exact here (Option.some.inj same).symm
  · rw [store]
    exact torn.grows
  · intro handle live
    rw [store] at live
    rcases torn.kept handle live with live | ⟨key, place⟩
    · exact .inl live
    · refine .inr ⟨key, ?_⟩
      rw [weights, states]
      exact place
  · exact unread.trans torn.unread

end Torn

end Session

namespace Runtime

variable {γ : Type} {runtime : Runtime γ} {index : Nat} {record : Record γ}

theorem record_of_stage (stage : runtime.stages[index]? = some record) :
    runtime.records[index]? = some record := by
  obtain ⟨bound, _⟩ := List.getElem?_eq_some_iff.mp stage
  unfold records
  rw [List.getElem?_append_left bound, stage]

theorem held_of_stage (stage : runtime.stages[index]? = some record)
    (part : Part) : runtime.held (index, part) = record.held part := by
  unfold held
  rw [record_of_stage stage]
  rfl

theorem stateOf_of_stage (stage : runtime.stages[index]? = some record)
    (name : ParameterName) : runtime.stateOf (index, name) =
      (record.optimizerState.lookup name).getD [] := by
  unfold stateOf
  rw [record_of_stage stage]
  rfl

end Runtime

namespace Training

open Session

variable {τ γ : Type} {optimizer : Optimizer τ γ} {start now : Session τ γ}

theorem free_torn {key : Nat × ParameterName} {part : Part} {handle : Handle}
    (apart : start.Apart) (torn : Torn optimizer start now (some key))
    (single : now.Single) (owned : part.parameter? = some key.2)
    (held : start.runtime.held (key.1, part) = some handle) :
    (free handle).Leads now (Ending
      (fun _ next => Torn optimizer start next (some key) ∧ next.Single)
      fun _ next => Torn optimizer start next (some key)) := by
  apply (free_single handle single).mono
  intro result next given
  have other : ∀ {store : HandleStore τ}, (∀ handle', handle' ≠ handle →
      store.restore handle' = now.store.restore handle') → ∀ handle',
        store.restore handle' = now.store.restore handle' ∨
          ∃ key' part', some key = some key' ∧
            part'.parameter? = some key'.2 ∧
              start.runtime.held (key'.1, part') = some handle' := by
    intro store same handle'
    by_cases here : handle' = handle
    · rw [here]
      exact .inr ⟨key, part, rfl, owned, held⟩
    · exact .inl (same handle' here)
  cases result with
  | ok value =>
      obtain ⟨idle, single⟩ := given
      refine ⟨torn.lost apart (congrArg Runtime.records idle.runtime) idle.unread ?_ ?_ ?_, single⟩
      · rw [idle.store]
        exact le_rfl
      · rw [idle.store]
        apply other
        intro handle' different
        rw [restore_free, if_neg different]
      · intro handle' live
        rw [idle.store] at live
        change ((now.store.free handle).restore handle').isSome at live
        rw [restore_free] at live
        split at live
        · cases live
        · exact live
  | error raised =>
      obtain ⟨⟨store, spoiled, idle⟩, _⟩ := given
      apply torn.lost apart (congrArg Runtime.records idle.runtime) idle.unread
      · rw [idle.store]
        exact spoiled.next.ge
      · rw [idle.store]
        exact other spoiled.others
      · intro handle' live
        rw [idle.store] at live
        exact AList.lookup_isSome.mpr ((spoiled.table handle').mp
          (AList.lookup_isSome.mp live))

theorem frees_torn {key : Nat × ParameterName} {handles : List Handle}
    (apart : start.Apart) (torn : Torn optimizer start now (some key))
    (single : now.Single) (held : ∀ handle ∈ handles, ∃ part : Part,
      part.parameter? = some key.2 ∧
        start.runtime.held (key.1, part) = some handle) :
    (each free handles).Leads now (Ending
      (fun _ next => Torn optimizer start next (some key) ∧ next.Single)
      fun _ next => Torn optimizer start next (some key)) := by
  apply Leads.each_until ⟨torn, single⟩
  intro handle member next given
  obtain ⟨part, owned, held⟩ := held handle member
  exact free_torn apart given.1 given.2 owned held

def Stepped (optimizer : Optimizer τ γ) (start : Session τ γ) :
    Except Raised Unit → Session τ γ → Prop :=
  Ending (fun _ next => Torn optimizer start next none ∧ next.Single)
    fun _ next => ∃ hanging, Torn optimizer start next hanging

theorem install_torn {index : Nat} {name : ParameterName}
    {weight gradient : Handle} {oldState : StateDict Handle γ}
    {published : Handle × StateDict Handle γ} {base : Session τ γ}
    {store : HandleStore τ} (apart : start.Apart)
    (torn : Torn optimizer start base none)
    (weights : base.runtime.held (index, .weight name) = some weight)
    (gradients : base.runtime.held (index, .gradient name) = some gradient)
    (state : base.runtime.stateOf (index, name) = oldState)
    (idle : Idle { base with store := store } now) (single : now.Single)
    (extended : Extends base.store store
      (published.1 :: stateHandles published.2))
    (newer : base.store.next ≤ published.1)
    (found : store.restore published.1 =
      some (base.updated optimizer (index, name) weight gradient).1)
    (entries : List.Forall₂ (Published base.store.next store) published.2
      (base.updated optimizer (index, name) weight gradient).2) :
    (install index name weight gradient oldState published).Leads now
      (Stepped optimizer start) := by
  have untouched : Untouched start base (index, name) := by
    rcases torn.parameters (index, name) with ⟨untouched, _⟩ | ⟨_, released⟩
    · exact untouched
    · rcases released with released | hangs
      · rw [gradients] at released
        cases released
      · cases hangs
  let swapped : Session τ γ := { now with
    runtime := now.runtime.install index name published.1 published.2 }
  have hangs : Torn optimizer start swapped (some (index, name)) := by
    have runtime : swapped.runtime =
        base.runtime.install index name published.1 published.2 :=
      congrArg (Runtime.install · index name published.1 published.2)
        idle.runtime
    have unread : swapped.unread = base.unread := idle.unread
    apply torn.installed apart weights gradients runtime unread
    · change Extends base.store now.store _
      rw [idle.store]
      exact extended
    · exact newer
    · change now.store.restore published.1 = _
      rw [idle.store]
      exact found
    · change List.Forall₂ (Published base.store.next now.store) _ _
      rw [idle.store]
      exact entries
  have holds : ∀ {handle}, handle ∈ stateHandles oldState → ∃ part : Part,
      part.parameter? = some name ∧
        start.runtime.held (index, part) = some handle := by
    intro handle member
    rw [← state, untouched.state] at member
    obtain ⟨position, held⟩ := held_of_stateHandles member
    exact ⟨_, rfl, held⟩
  have startWeight : start.runtime.held (index, .weight name) = some weight :=
    untouched.weight.symm.trans weights
  have startGradient : start.runtime.held (index, .gradient name) =
      some gradient := untouched.gradient.symm.trans gradients
  change (do
    free weight
    each free (stateHandles oldState)
    free gradient
    alter index (Record.popGradient name) : Stepping τ γ Unit).Leads swapped _
  apply (free_torn apart hangs single rfl startWeight).bind
  · intro _ next given
    apply (frees_torn apart given.1 given.2 fun _ member => holds member).bind
    · intro _ next given
      apply (free_torn apart given.1 given.2 rfl startGradient).bind
      · intro _ next given
        exact ⟨given.1.popped rfl rfl rfl, given.2⟩
      · intro raised next given
        exact ⟨_, given⟩
    · intro raised next given
      exact ⟨_, given⟩
  · intro raised next given
    exact ⟨_, given⟩

theorem stepParameter_torn (optimizer : Optimizer τ γ) (index : Nat)
    (name : ParameterName) (apart : start.Apart)
    (torn : Torn optimizer start now none) (single : now.Single) :
    (stepParameter optimizer index name).Leads now
      (Stepped optimizer start) := by
  have unchanged : (pure () : Stepping τ γ Unit).Leads now
      (Stepped optimizer start) := leads_pure.mpr ⟨torn, single⟩
  apply leads_get_bind.mpr
  cases stage : now.runtime.stages[index]? with
  | none => exact unchanged
  | some record =>
      simp only
      have held : ∀ part, now.runtime.held (index, part) = record.held part :=
        Runtime.held_of_stage stage
      cases weights : record.stage.weightOf name with
      | none => exact unchanged
      | some weight =>
          cases gradients : record.gradients.lookup name with
          | none => exact unchanged
          | some gradient =>
              simp only
              split
              · apply (compute_single optimizer name weight gradient _
                  single).bind
                · intro updated next given
                  obtain ⟨rfl, ⟨context, idle⟩, single⟩ := given
                  let base : Session τ γ := { now with context := context }
                  have torn : Torn optimizer start base none :=
                    torn.idle apart rfl rfl le_rfl fun _ => rfl
                  have states : base.runtime.stateOf (index, name) =
                      (record.optimizerState.lookup name).getD [] :=
                    Runtime.stateOf_of_stage stage name
                  rw [← states]
                  have stored : next.store = base.store := idle.store
                  apply (publishUpdate_single _ single).bind
                  · intro published final given
                    obtain ⟨store, extended, newer, found, entries, later,
                      single⟩ := given
                    rw [stored] at extended newer entries
                    exact install_torn apart torn
                      ((held (.weight name)).trans weights)
                      ((held (.gradient name)).trans gradients) rfl
                      ((idle.stored store).trans later) single extended newer
                      found entries
                  · intro raised final given
                    obtain ⟨store, withdrawn, later, _⟩ := given
                    have runtime : final.runtime = base.runtime :=
                      later.runtime.trans idle.runtime
                    have unread : final.unread = base.unread :=
                      later.unread.trans idle.unread
                    refine ⟨none, torn.idle apart (congrArg Runtime.records runtime) unread
                      ?_ ?_⟩
                    · rw [later.store, ← stored]
                      exact withdrawn.grows
                    · intro handle
                      rw [later.store, ← stored]
                      exact withdrawn.same handle
                · intro raised next given
                  obtain ⟨⟨context, idle⟩, _⟩ := given
                  have stored : next.store = now.store := idle.store
                  refine ⟨none, torn.idle apart (congrArg Runtime.records idle.runtime) idle.unread ?_ ?_⟩
                  · rw [stored]
                  · intro handle
                    rw [stored]
              · exact unchanged

theorem stepRecord_torn (optimizer : Optimizer τ γ) (index : Nat)
    (apart : start.Apart) (torn : Torn optimizer start now none)
    (single : now.Single) :
    (stepRecord optimizer index).Leads now (Stepped optimizer start) := by
  have unchanged : (pure () : Stepping τ γ Unit).Leads now
      (Stepped optimizer start) := leads_pure.mpr ⟨torn, single⟩
  apply leads_get_bind.mpr
  cases stage : now.runtime.stages[index]? with
  | none => exact unchanged
  | some record =>
      simp only
      split
      · apply Leads.each_until ⟨torn, single⟩
        intro name _ next given
        exact stepParameter_torn optimizer index name apart given.1 given.2
      · exact unchanged

/-- What a step that raises leaves: each parameter as it was, or with all that
the step computes for it, and nothing besides that it has published. -/
structure Intact (optimizer : Optimizer τ γ) (start now : Session τ γ) :
    Prop where
  parameters : ∀ key, Untouched start now key ∨ Swapped optimizer start now key
  live : ∀ key handle, now.runtime.held (key.1, .weight key.2) = some handle ∨
      handle ∈ stateHandles (now.runtime.stateOf key) →
    (now.store.restore handle).isSome
  gradients : ∀ key handle, Untouched start now key →
    now.runtime.held (key.1, .gradient key.2) = some handle →
      (now.store.restore handle).isSome
  owned : ∀ handle, (now.store.restore handle).isSome →
    (start.store.restore handle).isSome ∨
      ∃ slot, now.runtime.held slot = some handle

theorem live_of_published {limit : Handle} {store : HandleStore τ}
    {entries : StateDict Handle γ} {state : StateDict τ γ}
    (published : List.Forall₂ (Published limit store) entries state)
    {handle : Handle} (member : handle ∈ stateHandles entries) :
    (store.restore handle).isSome := by
  induction published with
  | nil => cases member
  | cons first rest ih =>
      cases first with
      | tensor key fresh holds =>
          rcases List.mem_cons.mp member with rfl | member
          · exact Option.isSome_iff_exists.mpr ⟨_, holds⟩
          · exact ih member
      | constant key value => exact ih member
      | none key => exact ih member

theorem intact_of_torn {hanging : Option (Nat × ParameterName)}
    (torn : Torn optimizer start now hanging) (apart : start.Apart) :
    Intact optimizer start now where
  parameters key := by
    rcases torn.parameters key with ⟨untouched, _⟩ | ⟨swapped, _⟩
    · exact .inl untouched
    · exact .inr swapped
  live key handle place := by
    rcases torn.parameters key with ⟨untouched, _⟩ | ⟨swapped, _⟩
    · rw [untouched.weight, untouched.state] at place
      rcases place with held | member
      · rw [untouched.lasts rfl held]
        exact apart.live rfl held
      · obtain ⟨position, held⟩ := held_of_stateHandles member
        rw [untouched.lasts rfl held]
        exact apart.live rfl held
    · obtain ⟨weight, gradient, fresh, _, _, swap, _, found, published⟩ :=
        swapped
      rcases place with held | member
      · cases swap.symm.trans held
        exact Option.isSome_iff_exists.mpr ⟨_, found⟩
      · exact live_of_published published member
  gradients key handle untouched held := by
    rw [untouched.gradient] at held
    rw [untouched.lasts rfl held]
    exact apart.live rfl held
  owned handle live := by
    rcases torn.kept handle live with live | ⟨key, held | member⟩
    · exact .inl live
    · exact .inr ⟨_, held⟩
    · obtain ⟨position, held⟩ := held_of_stateHandles member
      exact .inr ⟨_, held⟩

theorem steps_torn (optimizer : Optimizer τ γ) (apart : start.Apart)
    (torn : Torn optimizer start now none) (single : now.Single)
    (count : Nat) :
    (do
      each (stepRecord optimizer) (List.range count)
      change ({ · with pending := false, backwardComplete := false })
      call : Stepping τ γ Unit).Leads now
        (Ending (fun _ _ => True) fun _ next =>
          ∃ hanging, Torn optimizer start next hanging) := by
  have records : (each (stepRecord optimizer) (List.range count)).Leads now
      (Stepped optimizer start) := by
    apply Leads.each_until ⟨torn, single⟩
    intro index _ next given
    exact stepRecord_torn optimizer index apart given.1 given.2
  apply records.bind
  · intro _ next given
    obtain ⟨torn, single⟩ := given
    let cleared : Session τ γ := { next with
      runtime := { next.runtime with
        pending := false
        backwardComplete := false } }
    have kept : Torn optimizer start cleared none :=
      torn.idle apart rfl rfl le_rfl fun _ => rfl
    apply (call_spec cleared).mono
    intro result final given
    cases result with
    | ok value => trivial
    | error raised =>
        obtain ⟨idle, _⟩ := given
        refine ⟨none, kept.idle apart (congrArg Runtime.records idle.runtime)
          idle.unread ?_ ?_⟩
        · rw [idle.store]
        · intro handle
          rw [idle.store]
  · intro raised next given
    exact given

/-- A step of the optimizer that raises tears no parameter, and neither a
forward nor another step is possible then. -/
theorem step_atomic (optimizer : Optimizer τ γ) (session : Session τ γ)
    (apart : session.Apart) (single : session.Single)
    (working : session.runtime.failed = false)
    (complete : session.runtime.backwardComplete = true) :
    (step optimizer).Leads session (Ending (fun _ _ => True) fun _ next =>
      Intact optimizer session next ∧
      refuseGraph next.runtime ≠ none ∧ refuseSequential next.runtime ≠ none ∧
      ∀ other : Optimizer τ γ, (step other).run next =
        (.error (.error
          "Complete a successful backward before optimizer.step"), next)) := by
  have ready : ¬(session.runtime.failed ||
      !session.runtime.backwardComplete) = true := by
    rw [working, complete]
    decide
  apply leads_get_bind.mpr
  dsimp only
  rw [if_neg ready]
  apply leads_modify_bind.mpr
  have torn : Torn optimizer session { session with
      context := "optimizer admission did not start" } none :=
    (Torn.refl optimizer session).idle apart rfl rfl le_rfl fun _ => rfl
  apply (steps_torn optimizer apart torn single _).rescue
  · intro _ next _
    trivial
  · intro raised next given
    obtain ⟨hanging, torn⟩ := given
    let stopped : Session τ γ := { next with
      runtime := { next.runtime with failed := true } }
    have kept : Torn optimizer session stopped hanging :=
      torn.idle apart rfl rfl le_rfl fun _ => rfl
    have ended : Intact optimizer session stopped ∧
        refuseGraph stopped.runtime ≠ none ∧
        refuseSequential stopped.runtime ≠ none ∧
        ∀ other : Optimizer τ γ, (step other).run stopped =
          (.error (.error
            "Complete a successful backward before optimizer.step"),
            stopped) :=
      ⟨intact_of_torn kept apart, by simp [refuseGraph, stopped],
        by simp [refuseSequential, stopped], fun _ => rfl⟩
    change (if raised = .outOfMemory then _ else _ :
      Stepping τ γ Unit).Leads stopped _
    split
    · cases optimizer.snapshot with
      | error other => exact leads_throw.mpr ended
      | ok snapshot => exact ended
    · exact leads_throw.mpr ended

theorem pair_parameters : (([⟨0, 0, true⟩, ⟨1, 1, true⟩] : List Weight).map
    Weight.name).Nodup := by decide

/-- Two parameters, of which the second has a momentum.  The publication of its
new momentum is out of luck. -/
def pair : Session Nat Nat where
  runtime := {
    stages := [{
      stage := {
        weights := [⟨0, 0, true⟩, ⟨1, 1, true⟩]
        buffers := []
        distinct := no_buffers }
      gradients := AList.insert 1 3 (AList.insert 0 2 ∅)
      optimizerState := AList.insert 1 [("momentum_buffer", .tensor 4)] ∅
      parameters := pair_parameters }]
    dormant := .empty
    pending := true
    backwardComplete := true }
  store := storeOf [10, 20, 1, 2, 5]
  faults := List.replicate 21 none ++ [some (.error "publication")]
  unread _ := 0

def descent : Optimizer Nat Nat where
  adam := false
  amsgrad := false
  momentum := true
  size _ := 4
  update weight gradient _ :=
    (weight - gradient, [("momentum_buffer", .tensor gradient)])
  snapshot := .ok none

def pairPlaces : List ((Nat × Part) × Handle) :=
  [((0, .weight 0), 0), ((0, .weight 1), 1), ((0, .gradient 0), 2),
    ((0, .gradient 1), 3), ((0, .state 1 0), 4)]

theorem pair_held {slot : Nat × Part} {handle : Handle}
    (held : pair.runtime.held slot = some handle) :
    (slot, handle) ∈ pairPlaces := by
  obtain ⟨index, part⟩ := slot
  rcases index with _ | _ | index
  · change (pair.runtime.stages[0]).held part = some handle at held
    cases part with
    | weight name =>
        rcases name with _ | _ | name
        · cases held
          decide
        · cases held
          decide
        · cases held
    | buffer name => cases held
    | gradient name =>
        rcases name with _ | _ | name
        · cases held
          decide
        · cases held
          decide
        · cases held
    | state name position =>
        rcases name with _ | _ | name
        · cases held
        · rcases position with _ | position
          · cases held
            decide
          · cases held
        · cases held
  · cases part <;> cases held
  · cases held

theorem pair_apart : pair.Apart where
  distinct _ _ held held' := by
    have distinct : (pairPlaces.map Prod.snd).Nodup := by decide
    exact congrArg Prod.fst (List.inj_on_of_nodup_map distinct
      (pair_held held) (pair_held held') rfl)
  live _ held := by
    have live : ∀ place ∈ pairPlaces,
        (pair.store.restore place.2).isSome := by decide
    exact live _ (pair_held held)

theorem step_atomic_pair : ∃ next,
    (step descent).run pair = (.error (.error "publication"), next) ∧
      Intact descent pair next := by
  have run : (step descent).run pair =
      (.error (.error "publication"), ((step descent).run pair).2) :=
    rfl
  have single : pair.faults.countP Option.isSome ≤ 1 := by decide
  have all := step_atomic descent pair pair_apart single rfl rfl
  unfold Leads at all
  rw [run] at all
  exact ⟨_, run, all.1⟩

end Training

end TrainPool
