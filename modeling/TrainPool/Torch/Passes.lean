import TrainPool.Torch.Coherent

namespace TrainPool

open HandleStore Failing

/-! The passes of a sequential runtime: however they end, what is loaded ahead is
of a forward that is to be repeated. -/

namespace Sequential

open Session Training

variable {τ γ : Type} {model : Sequential τ γ} {session : Session τ γ}

/-! A forward, stage by stage.  What is loaded ahead is for a stage to come. -/

structure Forwarding (start : Runtime γ) (before : List SavedContext)
    (index : Nat) (session : Session τ γ) : Prop where
  coherent : session.Coherent
  runtime : session.runtime = start
  contexts : ∃ last, session.contexts = before ++ [last] ∧
    last.consumed = false
  slot : ∀ key, session.slot = some key →
    key.1 = .forward ∧ index ≤ key.2 ∧ key.2 < start.stages.length

theorem Forwarding.follows {start : Runtime γ} {before : List SavedContext}
    {index : Nat} {next : Session τ γ}
    (forwarding : Forwarding start before index session)
    (follows : Follows session next) : Forwarding start before index next where
  coherent := forwarding.coherent.follows follows
  runtime := follows.runtime.trans forwarding.runtime
  contexts := by
    rw [follows.contexts]
    exact forwarding.contexts
  slot := by
    rw [follows.slot]
    exact forwarding.slot

theorem Forwarding.early {start : Runtime γ} {before : List SavedContext}
    {index : Nat} (forwarding : Forwarding start before index session) :
    Forwarding start before 0 session where
  coherent := forwarding.coherent
  runtime := forwarding.runtime
  contexts := forwarding.contexts
  slot key held := by
    obtain ⟨phase, _, bound⟩ := forwarding.slot key held
    exact ⟨phase, Nat.zero_le _, bound⟩

structure Between (session : Session τ γ) : Prop where
  coherent : session.Coherent
  awaiting : ∀ context ∈ session.contexts, context.consumed = false →
    session.runtime.failed = false ∧ session.runtime.pending = true ∧
      session.runtime.backwardComplete = false ∧ session.slot = none
  latest : ∀ {position other : Nat} {context context' : SavedContext},
    session.contexts[position]? = some context →
      session.contexts[other]? = some context' →
      context.consumed = false → context'.consumed = false → position = other
  slot : session.runtime.failed = false → ∀ key, session.slot = some key →
    key.1 = .forward ∧ key.2 < session.runtime.stages.length ∧
      session.runtime.backwardComplete = false

theorem between_of_closed
    (closed : ∀ context ∈ session.contexts, context.consumed = true)
    (coherent : session.Coherent)
    (slot : session.runtime.failed = false → ∀ key,
      session.slot = some key →
        key.1 = .forward ∧ key.2 < session.runtime.stages.length ∧
          session.runtime.backwardComplete = false) : Between session where
  coherent := coherent
  awaiting context listed awaits := by
    rw [closed context listed] at awaits
    cases awaits
  latest found _ awaits _ := by
    rw [closed _ (List.mem_of_getElem? found)] at awaits
    cases awaits
  slot := slot

def begun (session : Session τ γ) : Session τ γ :=
  { session with runtime := { session.runtime with
      pending := true
      backwardComplete := false } }

theorem Between.closed (between : Between session)
    (idle : session.runtime.pending = false) :
    ∀ context ∈ session.contexts, context.consumed = true := by
  intro context listed
  cases open' : context.consumed with
  | true => rfl
  | false =>
      have pending := (between.awaiting context listed open').2.1
      rw [idle] at pending
      cases pending

theorem Between.ahead (between : Between session)
    (working : session.runtime.failed = false) :
    ∀ key, session.slot = some key →
      key.1 = .forward ∧ key.2 < session.runtime.stages.length := by
  intro key held
  obtain ⟨phase, bound, _⟩ := between.slot working key held
  exact ⟨phase, bound⟩

/-- A forward that went through its stages leaves its own context to be
consumed, and nothing loaded ahead. -/
theorem Forwarding.between {start : Runtime γ} {before : List SavedContext}
    (forwarding : Forwarding start before start.stages.length session)
    (closed : ∀ context ∈ before, context.consumed = true)
    (working : start.failed = false) (pending : start.pending = true)
    (ongoing : start.backwardComplete = false) : Between session := by
  obtain ⟨coherent, runtime, ⟨last, contexts, _⟩, slot⟩ := forwarding
  have empty : session.slot = none := by
    cases held : session.slot with
    | none => rfl
    | some key =>
        obtain ⟨_, later, bound⟩ := slot key held
        omega
  have newest : ∀ {position context},
      session.contexts[position]? = some context →
        context.consumed = false → position = before.length := by
    intro position context found awaits
    rw [contexts] at found
    by_cases earlier : position < before.length
    · rw [List.getElem?_append_left earlier] at found
      rw [closed context (List.mem_of_getElem? found)] at awaits
      cases awaits
    · have bound := (List.getElem?_eq_some_iff.mp found).1
      rw [List.length_append, List.length_singleton] at bound
      omega
  refine ⟨coherent, ?_, ?_, ?_⟩
  · intro context listed open'
    rw [runtime]
    exact ⟨working, pending, ongoing, empty⟩
  · intro position other context context' found found' awaits awaits'
    rw [newest found awaits, newest found' awaits']
  · intro _ key held
    rw [empty] at held
    cases held

theorem Between.follows {next : Session τ γ} (between : Between session)
    (follows : Follows session next) : Between next where
  coherent := between.coherent.follows follows
  awaiting := by
    rw [follows.contexts, follows.runtime, follows.slot]
    exact between.awaiting
  latest := by
    rw [follows.contexts]
    exact between.latest
  slot := by
    rw [follows.runtime, follows.slot]
    exact between.slot

structure Reversing (start : Session τ γ) (left : Nat) (session : Session τ γ) :
    Prop where
  coherent : session.Coherent
  contexts : session.contexts = start.contexts
  failed : session.runtime.failed = start.runtime.failed
  slot : ∀ key, session.slot = some key →
    key.1 = .backward ∧ key.2 + 1 = left

theorem Reversing.follows {start next : Session τ γ} {left : Nat}
    (reversing : Reversing start left session)
    (follows : Follows session next) : Reversing start left next where
  coherent := reversing.coherent.follows follows
  contexts := follows.contexts.trans reversing.contexts
  failed := by
    rw [follows.runtime]
    exact reversing.failed
  slot := by
    rw [follows.slot]
    exact reversing.slot

theorem mem_insert_gradient {table : Table ParameterName Handle}
    {name : ParameterName} {handle other : Handle}
    (member : other ∈ (table.insert name handle).entries.map Sigma.snd) :
    other = handle ∨ other ∈ table.entries.map Sigma.snd := by
  rw [AList.entries_insert, List.map_cons] at member
  rcases List.mem_cons.mp member with same | member
  · exact .inl same
  · obtain ⟨entry, listed, rfl⟩ := List.mem_map.mp member
    exact .inr (List.mem_map_of_mem
      ((List.kerase_sublist name table.entries).subset listed))

theorem storeGradient_reversing {start : Session τ γ} {left : Nat}
    (reversing : Reversing start left session) (index : Nat)
    (gradient : ParameterName → Option τ) (name : ParameterName) :
    (storeGradient index gradient name).Leads session
      fun _ next => Reversing start left next := by
  unfold storeGradient
  cases gradient name with
  | none => exact reversing
  | some value =>
      apply (offload_follows value reversing.coherent.placed).bind
      · intro handle next given
        obtain ⟨newer, older, follows⟩ := given
        obtain ⟨coherent, contexts, failed, slot⟩ := reversing.follows follows
        have known := reversing.coherent.placed.weights
        have stages : (next.runtime.alter index
            (Record.setGradient name handle)).stages.map Record.stage =
              next.runtime.stages.map Record.stage :=
          Runtime.stages_alter _ index fun _ => rfl
        have same := Runtime.weightHandles_congr stages
        have weights : ∀ position, ({ next with
            runtime := next.runtime.alter index
              (Record.setGradient name handle) } : Session τ γ).weights
                position = next.weights position :=
          weights_congr stages fun _ _ => rfl
        apply (change_leads _).mpr
        refine ⟨⟨⟨?_, ?_, ?_⟩, ?_, coherent.truthful⟩, contexts, failed, slot⟩
        · rw [same]
          exact coherent.placed.weights
        · intro other member
          rw [same]
          obtain ⟨record, listed, member⟩ := List.mem_flatMap.mp member
          have before : ∀ {record : Record γ}, record ∈ next.runtime.stages →
              other ∈ record.gradients.entries.map Sigma.snd →
                other < next.store.next ∧
                  other ∉ next.runtime.weightHandles := fun listed member =>
            coherent.placed.gradients other
              (List.mem_flatMap.mpr ⟨_, listed, member⟩)
          rcases Runtime.mem_alter _ listed with kept | ⟨old, kept, rfl⟩
          · exact before kept member
          · rcases mem_insert_gradient member with rfl | member
            · refine ⟨older, ?_⟩
              rw [follows.runtime]
              intro weight
              exact absurd (known other weight) (Nat.not_lt.mpr newer)
            · exact before kept member
        · intro context listed saved member
          rw [same]
          exact coherent.placed.inputs context listed saved member
        · intro load held
          exact (coherent.timely load held).congr (weights load.index)
      · intro raised next follows
        exact reversing.follows follows

theorem Reversing.taken {start next : Session τ γ} {index : Nat}
    (reversing : Reversing start (index + 1) session)
    (taken : Taken session next .backward index) :
    next.slot = none ∧ Reversing start index next := by
  have empty : next.slot = none := by
    rcases taken.slot with empty | ⟨same, other⟩
    · exact empty
    · rw [same]
      cases held : session.slot with
      | none => rfl
      | some key =>
          obtain ⟨phase, position⟩ := reversing.slot key held
          have here : key = (.backward, index) :=
            Prod.ext phase (Nat.succ.inj position)
          rw [held, here] at other
          exact absurd rfl other
  refine ⟨empty, taken.coherent, ?_, ?_, ?_⟩
  · rw [taken.contexts]
    exact reversing.contexts
  · rw [taken.runtime]
    exact reversing.failed
  · intro key held
    rw [empty] at held
    cases held

structure Reversed (start session : Session τ γ) : Prop where
  coherent : session.Coherent
  contexts : session.contexts = start.contexts
  slot : session.runtime.failed = false → session.slot = none

theorem Reversed.follows {start next : Session τ γ}
    (reversed : Reversed start session) (follows : Follows session next) :
    Reversed start next where
  coherent := reversed.coherent.follows follows
  contexts := follows.contexts.trans reversed.contexts
  slot := by
    rw [follows.runtime, follows.slot]
    exact reversed.slot

def spent (session : Session τ γ) (position : Nat) : Session τ γ :=
  { session with
    contexts := session.contexts.modify position
      ({ · with consumed := true }) }

theorem Reversed.between {start : Session τ γ}
    (reversed : Reversed start session)
    (closed : ∀ context ∈ start.contexts, context.consumed = true) :
    Between session := by
  apply between_of_closed _ reversed.coherent
  · intro working key held
    rw [reversed.slot working] at held
    cases held
  · rw [reversed.contexts]
    exact closed

end Sequential

end TrainPool
