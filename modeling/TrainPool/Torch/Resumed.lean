import TrainPool.Torch.Atomic
import TrainPool.Torch.Reload

namespace TrainPool

open HandleStore Failing

/-! What an optimizer is resumed with. -/

namespace Session

variable {τ γ : Type}

/-- Two sessions train the same parameters, in the same order, in whatever
records. -/
structure SameParameters (kinds : Kinds τ γ) (saved session : Session τ γ)
    (before after : List (Nat × ParameterName)) : Prop where
  source : saved.runtime.parameterEntries = some before
  target : session.runtime.parameterEntries = some after
  names : after.map Prod.snd = before.map Prod.snd
  distinct : after.Nodup
  size : saved.runtime.groupSize = before.length
  weights : ∀ pair ∈ after.zip before, ∃ weight old,
    session.runtime.held (pair.1.1, .weight pair.1.2) = some weight ∧
    saved.runtime.held (pair.2.1, .weight pair.2.2) = some old ∧
    kinds.shape (session.read weight) = kinds.shape (saved.read old)

structure Stateful (kinds : Kinds τ γ) (attached : Attached γ)
    (session : Session τ γ) (key : Nat × ParameterName) : Prop where
  accepted : attached.accepts (session.runtime.stateOf key)
  entries : ∀ entry ∈ session.runtime.stateOf key, ∃ handle,
    entry.2 = .tensor handle ∧
    (entry.1 = "step" → kinds.numel (session.read handle) = 1) ∧
    (entry.1 ≠ "step" → ∀ weight,
      session.runtime.held (key.1, .weight key.2) = some weight →
        kinds.shape (session.read handle) = kinds.shape (session.read weight))

/-- What is saved of one session can be loaded by the other. -/
structure Resumable (kinds : Kinds τ γ) (attached : Attached γ)
    (saved session : Session τ γ) (before after : List (Nat × ParameterName)) :
    Prop where
  parameters : SameParameters kinds saved session before after
  states : ∀ key ∈ before, Stateful kinds attached saved key
  supported : attached.check saved.runtime.options = .ok ()
  updated : attached.check
    (saved.runtime.options ∪ session.runtime.options) = .ok ()

end Session

namespace Training

open Session

variable {τ γ : Type} {session : Session τ γ}

/-! What a checkpoint of the optimizer keeps. -/

theorem map_of_forall₂ {α β : Type} {value : α → β} {items : List α}
    {values : List β}
    (all : List.Forall₂ (fun item one => value item = one) items values) :
    values = items.map value := by
  have mapped := List.forall₂_map_left_iff.mpr all
  rw [List.forall₂_eq_eq_eq] at mapped
  exact mapped.symm

theorem restoreEntries_spec (state : StateDict Handle γ)
    (session : Session τ γ) :
    (collect restoreEntry state).Leads session (Ending
      (fun values next => values = session.readState state ∧
        Idle session next) fun _ _ => True) := by
  have each : (collect restoreEntry state).Leads session (Ending
      (fun values next => Idle session next ∧ List.Forall₂
        (fun (entry : String × Leaf Handle γ) value =>
          (entry.1, session.readLeaf entry.2) = value) state values)
      fun _ _ => True) := by
    refine Leads.collect_until (Idle.refl session) ?_
    intro entry _ now idle
    obtain ⟨key, leaf⟩ := entry
    cases leaf with
    | tensor handle =>
        apply (restore_spec handle now).bind
        · intro value next given
          obtain ⟨rfl, later⟩ := given
          apply leads_pure.mpr
          refine ⟨idle.trans later, ?_⟩
          rw [idle.read]
          rfl
        · intro raised next _
          trivial
    | constant value => exact leads_pure.mpr ⟨idle, rfl⟩
    | none => exact leads_pure.mpr ⟨idle, rfl⟩
  apply each.mono
  intro result next given
  cases result with
  | ok values => exact ⟨map_of_forall₂ given.2, given.1⟩
  | error raised => trivial

def savedState (session : Session τ γ) (item : (Nat × ParameterName) × Nat) :
    Option (Nat × StateDict τ γ) :=
  if (session.runtime.stateOf item.1).isEmpty then none
  else some (item.2, session.readState (session.runtime.stateOf item.1))

def SavesOptimizer (session : Session τ γ) (keys : List (Nat × ParameterName))
    (checkpoint : SavedOptimizer τ γ) : Prop :=
  checkpoint = {
    state := some (keys.zipIdx.filterMap (savedState session))
    groups := [⟨List.range session.runtime.groupSize,
      session.runtime.options⟩] }

theorem optimizerStateDict_saves (session : Session τ γ) :
    optimizerStateDict.Leads session (Ending
      (fun checkpoint next => Idle session next ∧ ∃ keys,
        session.runtime.parameterEntries = some keys ∧
        SavesOptimizer session keys checkpoint) fun _ _ => True) := by
  apply leads_get_bind.mpr
  dsimp only
  cases found : session.runtime.parameterEntries with
  | none => exact leads_throw.mpr trivial
  | some keys =>
      have all : (collect (restoreState session.runtime) keys.zipIdx).Leads
          session (Ending (fun states next => Idle session next ∧
            List.Forall₂ (fun item state => savedState session item = state)
              keys.zipIdx states) fun _ _ => True) := by
        refine Leads.collect_until (Idle.refl session) ?_
        intro item _ now idle
        unfold restoreState savedState
        dsimp only
        split
        · exact leads_pure.mpr ⟨idle, rfl⟩
        · apply (restoreEntries_spec _ now).bind
          · intro values next given
            obtain ⟨rfl, later⟩ := given
            apply leads_pure.mpr
            refine ⟨idle.trans later, ?_⟩
            rw [readState_congr fun handle _ => idle.read handle]
          · intro raised next _
            trivial
      apply all.bind
      · intro states next given
        apply leads_pure.mpr
        refine ⟨given.1, keys, rfl, ?_⟩
        rw [map_of_forall₂ given.2, List.filterMap_map]
        rfl
      · intro raised next _
        trivial

theorem saved_below {keys : List (Nat × ParameterName)} {start : Nat}
    {entry : Nat × StateDict τ γ}
    (member : entry ∈ (keys.zipIdx start).filterMap (savedState session)) :
    start ≤ entry.1 ∧ entry.1 < start + keys.length := by
  obtain ⟨item, listed, made⟩ := List.mem_filterMap.mp member
  have bounds := List.snd_lt_of_mem_zipIdx listed
  have lower := List.le_snd_of_mem_zipIdx listed
  unfold savedState at made
  split at made
  · cases made
  · cases made
    exact ⟨lower, by omega⟩

theorem lookup_saved (keys : List (Nat × ParameterName)) (start position : Nat)
    {key : Nat × ParameterName} (found : keys[position]? = some key) :
    (((keys.zipIdx start).filterMap (savedState session)).lookup
      (start + position)).getD [] =
        session.readState (session.runtime.stateOf key) := by
  induction keys generalizing start position with
  | nil => cases found
  | cons first rest ih =>
      rw [List.zipIdx_cons, List.filterMap_cons]
      cases position with
      | zero =>
          cases found
          cases made : savedState session (key, start) with
          | none =>
              unfold savedState at made
              split at made
              · rename_i empty
                have absent : ((rest.zipIdx (start + 1)).filterMap
                    (savedState session)).lookup start = none := by
                  apply List.lookup_eq_none_iff.mpr
                  intro entry member
                  have later := (saved_below member).1
                  simp only [bne_iff_ne, ne_eq]
                  omega
                rw [Nat.add_zero, absent, List.isEmpty_iff.mp empty]
                rfl
              · cases made
          | some entry =>
              unfold savedState at made
              split at made
              · cases made
              · cases made
                simp
      | succ position =>
          have later := ih (start + 1) position found
          rw [Nat.add_right_comm] at later
          cases made : savedState session (first, start) with
          | none => exact later
          | some entry =>
              have here : entry.1 = start := by
                unfold savedState at made
                split at made
                · cases made
                · cases made
                  rfl
              have away : (start + (position + 1) == entry.1) = false := by
                rw [here]
                simp
              rw [List.lookup_cons, away]
              exact later

/-! What a load makes of it. -/

variable {kinds : Kinds τ γ} {attached : Attached γ} {saved : Session τ γ}
  {before after : List (Nat × ParameterName)}

theorem check_saves {checkpoint : SavedOptimizer τ γ}
    (same : SameParameters kinds saved session before after)
    (saves : SavesOptimizer saved before checkpoint)
    (settled : session.runtime.pending = false)
    (check : attached.check saved.runtime.options = .ok ()) :
    checkOptimizer attached session.runtime checkpoint =
      .ok ((after.zip before).map fun pair =>
        (pair.1, saved.readState (saved.runtime.stateOf pair.2)),
        saved.runtime.options) := by
  have lengths : after.length = before.length := by
    have names := congrArg List.length same.names
    simpa using names
  have within : ((before.zipIdx.filterMap (savedState saved)).any fun entry =>
      entry.1 ∉ List.range saved.runtime.groupSize) = false := by
    apply List.any_eq_false.mpr
    intro entry member
    have bound := (saved_below member).2
    rw [same.size]
    simpa using bound
  have items : ((after.zip (List.range saved.runtime.groupSize)).map
      fun item => (item.1, ((before.zipIdx.filterMap
        (savedState saved)).lookup item.2).getD [])) =
      (after.zip before).map fun pair =>
        (pair.1, saved.readState (saved.runtime.stateOf pair.2)) := by
    apply List.ext_getElem
    · simp [same.size]
    · intro position first second
      have bound : position < before.length := by
        rw [List.length_map, List.length_zip] at second
        exact Nat.lt_of_lt_of_le second (Nat.min_le_right _ _)
      have found := @lookup_saved _ _ saved before 0 position _
        (List.getElem?_eq_getElem bound)
      rw [Nat.zero_add] at found
      simp only [List.getElem_map, List.getElem_zip, List.getElem_range]
      rw [found]
  unfold SavesOptimizer at saves
  subst saves
  unfold checkOptimizer
  simp only [settled, Bool.false_eq_true, if_false, same.target]
  rw [if_neg (by simp [same.size, lengths]),
    if_neg (not_not.mpr (List.nodup_range))]
  simp only [within, Bool.false_eq_true, if_false, check]
  rw [items]
  rfl

theorem accepts_readState (state : StateDict Handle γ) :
    attached.accepts (session.readState state) = attached.accepts state := by
  unfold Attached.accepts Session.readState
  simp [List.all_map, List.any_map, Function.comp_def]

theorem convertState_stateful {key origin : Nat × ParameterName}
    {weight old : Handle}
    (held : session.runtime.held (key.1, .weight key.2) = some weight)
    (held' : saved.runtime.held (origin.1, .weight origin.2) = some old)
    (fits : kinds.shape (session.read weight) = kinds.shape (saved.read old))
    (stateful : Stateful kinds attached saved origin)
    {entry : String × Leaf Handle γ}
    (member : entry ∈ saved.runtime.stateOf origin) :
    ∃ handle, entry.2 = .tensor handle ∧
      convertState kinds session key (entry.1, saved.readLeaf entry.2) =
        .ok (if entry.1 = "step" then saved.read handle
          else kinds.cast (kinds.dtype (session.read weight))
            (saved.read handle)) := by
  obtain ⟨handle, leaf, scalar, shaped⟩ := stateful.entries entry member
  refine ⟨handle, leaf, ?_⟩
  rw [leaf]
  unfold convertState
  simp only [Session.readLeaf, stateTensor, bind, Except.bind, held]
  by_cases step : entry.1 = "step"
  · rw [if_pos step, if_pos step, if_pos (scalar step)]
  · have fits : kinds.shape (saved.read handle) =
        kinds.shape (session.read weight) :=
      (shaped step old held').trans fits.symm
    rw [if_neg step, if_neg step, if_pos fits]

/-! The publication. -/

end Training

namespace Runtime

variable {γ : Type} {runtime : Runtime γ}

theorem held_setState_weight (key other : Nat × ParameterName)
    (state : StateDict Handle γ) :
    (runtime.alter key.1 (Record.setState key.2 state)).held
        (other.1, .weight other.2) =
      runtime.held (other.1, .weight other.2) := by
  rw [held_alter]
  by_cases here : other.1 = key.1
  · rw [if_pos here]
    unfold held
    rw [here]
    rfl
  · rw [if_neg here]

theorem stateOf_setState {key : Nat × ParameterName}
    (known : (runtime.held (key.1, .weight key.2)).isSome)
    (state : StateDict Handle γ) (other : Nat × ParameterName) :
    (runtime.alter key.1 (Record.setState key.2 state)).stateOf other =
      if other = key then state else runtime.stateOf other := by
  unfold stateOf
  rw [records_alter, List.getElem?_modify]
  by_cases here : key.1 = other.1
  · unfold held at known
    rw [here] at known
    cases found : runtime.records[other.1]? with
    | none =>
        rw [found] at known
        cases known
    | some record =>
        by_cases same : other.2 = key.2
        · obtain rfl : other = key := Prod.ext here.symm same
          simp [Record.setState]
        · have different : other ≠ key := fun equal =>
            same (congrArg Prod.snd equal)
          simp [here, different, same, Record.setState]
  · have different : other ≠ key := fun equal =>
      here (congrArg Prod.fst equal).symm
    simp [here, different]

end Runtime

namespace Session

variable {τ γ : Type}

/-- Parameters have their new state, and nothing else is gone than what they
had. -/
structure Resumes (state : Nat × ParameterName → StateDict Handle γ)
    (keys : List (Nat × ParameterName)) (session next : Session τ γ) :
    Prop where
  resumed : ∀ key ∈ keys, next.runtime.stateOf key = state key
  weights : ∀ key : Nat × ParameterName,
    next.runtime.held (key.1, .weight key.2) =
      session.runtime.held (key.1, .weight key.2)
  options : next.runtime.options = session.runtime.options
  others : ∀ key ∉ keys, next.runtime.stateOf key =
    session.runtime.stateOf key
  kept : ∀ handle, (∀ key ∈ keys,
      handle ∉ Training.stateHandles (session.runtime.stateOf key)) →
    next.store.restore handle = session.store.restore handle

end Session

namespace Training

open Session

variable {τ γ : Type} {session : Session τ γ}

def stagedState (staged : List (((Nat × ParameterName) × String) × Handle))
    (key : Nat × ParameterName) : StateDict Handle γ :=
  (staged.filter (·.1.1 = key)).map fun entry =>
    (entry.1.2, .tensor entry.2)

theorem publishParameters_calm
    (staged : List (((Nat × ParameterName) × String) × Handle))
    {keys : List (Nat × ParameterName)} (distinct : keys.Nodup)
    (known : ∀ key ∈ keys,
      (session.runtime.held (key.1, .weight key.2)).isSome)
    (calm : session.Calm) :
    (each (publishParameter staged) keys).Leads session (Ending
      (fun _ next => Resumes (stagedState staged) keys session next ∧
        next.Calm)
      fun _ _ => False) := by
  induction keys generalizing session with
  | nil =>
      apply leads_pure.mpr
      refine ⟨⟨?_, fun _ => rfl, rfl, fun _ _ => rfl, fun _ _ => rfl⟩, calm⟩
      intro key member
      cases member
  | cons key rest ih =>
      obtain ⟨new, distinct⟩ := List.nodup_cons.mp distinct
      have first : (publishParameter staged key).Leads session (Ending
          (fun _ next => Idle { session with
            runtime := session.runtime.alter key.1
              (Record.setState key.2 (stagedState staged key))
            store := (stateHandles (session.runtime.stateOf key)).foldl
              (fun store handle => store.free handle) session.store } next ∧
            next.Calm)
          fun _ _ => False) := by
        apply leads_get_bind.mpr
        apply (frees_calm _ calm).bind
        · intro _ next given
          obtain ⟨idle, calm⟩ := given
          refine ⟨⟨?_, idle.store, idle.contexts, idle.handed, idle.context,
            idle.unread⟩, calm⟩
          exact congrArg (Runtime.alter key.1 (Record.setState key.2
            (stagedState staged key))) idle.runtime
        · intro _ _ impossible
          exact impossible
      apply first.bind
      · intro _ next given
        obtain ⟨idle, calm⟩ := given
        have weights : ∀ other : Nat × ParameterName,
            next.runtime.held (other.1, .weight other.2) =
              session.runtime.held (other.1, .weight other.2) := by
          intro other
          rw [idle.runtime]
          exact Runtime.held_setState_weight key other _
        have states : ∀ other, next.runtime.stateOf other =
            if other = key then stagedState staged key
            else session.runtime.stateOf other := by
          intro other
          rw [idle.runtime]
          exact Runtime.stateOf_setState (known key List.mem_cons_self) _ other
        have away : ∀ other ∈ rest, other ≠ key := by
          rintro other member rfl
          exact new member
        have later : ∀ other ∈ rest,
            (next.runtime.held (other.1, .weight other.2)).isSome := by
          intro other member
          rw [weights]
          exact known other (List.mem_cons_of_mem _ member)
        apply (ih distinct later calm).mono
        intro result final given
        cases result with
        | error raised => exact given
        | ok value =>
            obtain ⟨resumes, calm⟩ := given
            refine ⟨⟨?_, ?_, ?_, ?_, ?_⟩, calm⟩
            · intro other member
              rcases List.mem_cons.mp member with rfl | member
              · rw [resumes.others _ new, states, if_pos rfl]
              · exact resumes.resumed other member
            · intro other
              rw [resumes.weights, weights]
            · rw [resumes.options, idle.runtime]
              rfl
            · intro other absent
              have different : other ≠ key := by
                rintro rfl
                exact absent List.mem_cons_self
              have later : other ∉ rest := fun member =>
                absent (List.mem_cons_of_mem _ member)
              rw [resumes.others other later, states, if_neg different]
            · intro handle free
              rw [resumes.kept handle, idle.store]
              · simp only
                rw [restore_frees, if_neg (free key List.mem_cons_self)]
              · intro other member
                rw [states, if_neg (away other member)]
                exact free other (List.mem_cons_of_mem _ member)
      · intro _ _ impossible
        exact impossible

theorem forall₂_imp_mem {α β : Type} {early late : α → β → Prop}
    {items : List α} {others : List β} (all : List.Forall₂ early items others)
    (weaker : ∀ item, ∀ other ∈ others, early item other → late item other) :
    List.Forall₂ late items others := by
  induction all with
  | nil => exact .nil
  | cons first rest ih =>
      apply List.Forall₂.cons
      · exact weaker _ _ List.mem_cons_self first
      · exact ih fun item other member =>
          weaker item other (List.mem_cons_of_mem _ member)

section

variable {kinds : Kinds τ γ} {attached : Attached γ}

theorem parameterItems_label {item : (Nat × ParameterName) × StateDict τ γ}
    {entry : ((Nat × ParameterName) × String) × Except Raised τ}
    (member : entry ∈ parameterItems kinds attached session item) :
    entry.1.1 = item.1 := by
  unfold parameterItems at member
  split at member
  · obtain ⟨_, _, rfl⟩ := List.mem_map.mp member
    rfl
  · rw [List.mem_singleton.mp member]

theorem filter_items {items : List ((Nat × ParameterName) × StateDict τ γ)}
    (distinct : (items.map Prod.fst).Nodup)
    {item : (Nat × ParameterName) × StateDict τ γ} (member : item ∈ items) :
    (items.flatMap (parameterItems kinds attached session)).filter
        (·.1.1 = item.1) =
      parameterItems kinds attached session item := by
  have own : ∀ {other : (Nat × ParameterName) × StateDict τ γ},
      other.1 = item.1 →
      (parameterItems kinds attached session other).filter
        (·.1.1 = item.1) = parameterItems kinds attached session other := by
    intro other same
    apply List.filter_eq_self.mpr
    intro entry listed
    simpa [same] using parameterItems_label listed
  have away : ∀ {others : List ((Nat × ParameterName) × StateDict τ γ)},
      item.1 ∉ others.map Prod.fst →
      (others.flatMap (parameterItems kinds attached session)).filter
        (·.1.1 = item.1) = [] := by
    intro others absent
    apply List.filter_eq_nil_iff.mpr
    intro entry listed same
    obtain ⟨other, member, listed⟩ := List.mem_flatMap.mp listed
    apply absent
    rw [← of_decide_eq_true same, parameterItems_label listed]
    exact List.mem_map_of_mem member
  induction items with
  | nil => cases member
  | cons first rest ih =>
      obtain ⟨new, distinct⟩ := List.nodup_cons.mp distinct
      rw [List.flatMap_cons, List.filter_append]
      rcases List.mem_cons.mp member with rfl | member
      · rw [own rfl, away new, List.append_nil]
      · have different : ∀ entry ∈ parameterItems kinds attached session first,
            ¬decide (entry.1.1 = item.1) = true := by
          intro entry listed same
          apply new
          rw [← parameterItems_label listed, of_decide_eq_true same]
          exact List.mem_map_of_mem member
        rw [List.filter_eq_nil_iff.mpr different, ih distinct member,
          List.nil_append]

end

def Continued (kinds : Kinds τ γ) (current : τ) (store : HandleStore τ)
    (entry : String × Leaf Handle γ) (origin : String × Leaf τ γ) : Prop :=
  entry.1 = origin.1 ∧ ∃ handle value now,
    entry.2 = .tensor handle ∧ origin.2 = .tensor value ∧
    store.restore handle = some now ∧
    (origin.1 = "step" → now = value) ∧
    (origin.1 ≠ "step" → Restored kinds current value now)

theorem updateOptions_leads {attached : Attached γ} {options : Table String γ}
    (check : attached.check (options ∪ session.runtime.options) = .ok ()) :
    (updateOptions attached options).Leads session (Ending
      (fun _ next => next = { session with
        runtime := { session.runtime with
          options := options ∪ session.runtime.options } })
      fun _ _ => False) := by
  apply leads_modify_bind.mpr
  apply leads_get_bind.mpr
  dsimp only
  rw [check]
  exact leads_pure.mpr rfl

/-- A parameter has the state that was saved of the one at its position. -/
structure Continues (kinds : Kinds τ γ) (saved session next : Session τ γ)
    (before after : List (Nat × ParameterName)) : Prop where
  options : next.runtime.options =
    saved.runtime.options ∪ session.runtime.options
  state : ∀ pair ∈ after.zip before, ∀ weight,
    session.runtime.held (pair.1.1, .weight pair.1.2) = some weight →
      List.Forall₂ (Continued kinds (session.read weight) next.store)
        (next.runtime.stateOf pair.1)
        (saved.readState (saved.runtime.stateOf pair.2))

section Loading

variable {kinds : Kinds τ γ} {attached : Attached γ} {saved : Session τ γ}
  {before after : List (Nat × ParameterName)}
  {checkpoint : SavedOptimizer τ γ}

/-- A parameter with the state that was saved of the one at its position. -/
abbrev savedItem (saved : Session τ γ)
    (pair : (Nat × ParameterName) × (Nat × ParameterName)) :
    (Nat × ParameterName) × StateDict τ γ :=
  (pair.1, saved.readState (saved.runtime.stateOf pair.2))

def savedItems (kinds : Kinds τ γ) (attached : Attached γ)
    (saved session : Session τ γ) (before after : List (Nat × ParameterName)) :
    List (((Nat × ParameterName) × String) × Except Raised τ) :=
  ((after.zip before).map (savedItem saved)).flatMap
    (parameterItems kinds attached session)

theorem savedItem_keys
    (same : SameParameters kinds saved session before after) :
    ((after.zip before).map (savedItem saved)).map Prod.fst = after := by
  have lengths : after.length = before.length := by
    simpa using congrArg List.length same.names
  rw [List.map_map]
  exact List.map_fst_zip lengths.le

theorem weights_known
    (same : SameParameters kinds saved session before after) :
    ∀ key ∈ after,
      (session.runtime.held (key.1, .weight key.2)).isSome := by
  intro key member
  rw [← savedItem_keys same, List.map_map] at member
  obtain ⟨pair, listed, rfl⟩ := List.mem_map.mp member
  obtain ⟨weight, _, held, _⟩ := same.weights pair listed
  exact Option.isSome_iff_exists.mpr ⟨weight, held⟩

theorem parameterItems_saved
    (stateful : ∀ key ∈ before, Stateful kinds attached saved key)
    {pair : (Nat × ParameterName) × (Nat × ParameterName)}
    (listed : pair ∈ after.zip before) :
    parameterItems kinds attached session (savedItem saved pair) =
      (saved.runtime.stateOf pair.2).map fun entry => ((pair.1, entry.1),
        convertState kinds session pair.1
          (entry.1, saved.readLeaf entry.2)) := by
  have member := (List.of_mem_zip listed).2
  unfold parameterItems
  rw [if_pos ((accepts_readState _).trans (stateful _ member).accepted)]
  exact List.map_map ..

theorem convertState_saved
    (same : SameParameters kinds saved session before after)
    (stateful : ∀ key ∈ before, Stateful kinds attached saved key)
    {pair : (Nat × ParameterName) × (Nat × ParameterName)}
    (listed : pair ∈ after.zip before) {weight : Handle}
    (held : session.runtime.held (pair.1.1, .weight pair.1.2) = some weight)
    {entry : String × Leaf Handle γ}
    (member : entry ∈ saved.runtime.stateOf pair.2) :
    ∃ handle, entry.2 = .tensor handle ∧
      convertState kinds session pair.1 (entry.1, saved.readLeaf entry.2) =
        .ok (if entry.1 = "step" then saved.read handle
          else kinds.cast (kinds.dtype (session.read weight))
            (saved.read handle)) := by
  obtain ⟨other, old, found, held', fits⟩ := same.weights pair listed
  cases found.symm.trans held
  exact convertState_stateful held held' fits
    (stateful _ (List.of_mem_zip listed).2) member

theorem savedItems_sound
    (same : SameParameters kinds saved session before after)
    (stateful : ∀ key ∈ before, Stateful kinds attached saved key) :
    ∀ item ∈ savedItems kinds attached saved session before after,
      item.2.isOk = true := by
  intro item member
  obtain ⟨_, mapped, member⟩ := List.mem_flatMap.mp member
  obtain ⟨pair, listed, rfl⟩ := List.mem_map.mp mapped
  rw [parameterItems_saved stateful listed] at member
  obtain ⟨entry, own, rfl⟩ := List.mem_map.mp member
  obtain ⟨weight, _, held, _⟩ := same.weights pair listed
  obtain ⟨handle, _, made⟩ := convertState_saved same stateful listed held own
  simp only [made]
  rfl

theorem stage_savedItems (receptive : session.Receptive)
    (same : SameParameters kinds saved session before after)
    (stateful : ∀ key ∈ before, Stateful kinds attached saved key) :
    let items := savedItems kinds attached saved session before after
    (stage [] items).Leads session (Ending
      (fun staged next => ∃ store,
        List.Forall₂ (Staged session.store store) staged items ∧
        Idle { session with store := store } next ∧ next.Calm)
      fun _ _ => False) := by
  intro items
  apply (stage_uploading [] items (receptive.calm.uploading _)).mono
  intro result next given
  cases result with
  | ok staged =>
      obtain ⟨store, _, staged, idle, calm⟩ := given
      exact ⟨store, staged, idle, calm receptive.calm⟩
  | error raised =>
      obtain ⟨_, _, _, refused⟩ := given
      obtain ⟨item, member, bad⟩ := refused receptive.calm
      rw [savedItems_sound same stateful item member] at bad
      cases bad

theorem prepareOptimizer_restores (receptive : session.Receptive)
    (resumable : Resumable kinds attached saved session before after)
    (saves : SavesOptimizer saved before checkpoint) :
    (prepareOptimizer kinds attached checkpoint).Leads session (Ending
      (fun prepared next => prepared.1 = after ∧
        prepared.2.2 = saved.runtime.options ∧ ∃ store,
        List.Forall₂ (Staged session.store store) prepared.2.1
          (savedItems kinds attached saved session before after) ∧
        Idle { session with store := store } next ∧ next.Calm)
      fun _ _ => False) := by
  obtain ⟨same, stateful, check, _⟩ := resumable
  apply leads_get_bind.mpr
  rw [check_saves same saves receptive.settled check]
  apply (stage_savedItems receptive same stateful).bind
  · intro staged next given
    exact leads_pure.mpr ⟨savedItem_keys same, rfl, given⟩
  · intro _ _ impossible
    exact impossible

/-- The publication writes the staged states over the old ones, and touches no
handle besides those of the old states. -/
theorem publishOptimizer_restores {options : Table String γ}
    {staged : List (((Nat × ParameterName) × String) × Handle)}
    {keys : List (Nat × ParameterName)} (distinct : keys.Nodup)
    (known : ∀ key ∈ keys,
      (session.runtime.held (key.1, .weight key.2)).isSome)
    (calm : session.Calm)
    (check : attached.check (options ∪ session.runtime.options) = .ok ()) :
    (do
      each (publishParameter staged) keys
      updateOptions attached options : Stepping τ γ Unit).Leads session (Ending
      (fun _ final => final.runtime.options =
        options ∪ session.runtime.options ∧
        (∀ key ∈ keys, final.runtime.stateOf key = stagedState staged key) ∧
        ∀ handle, (∀ key ∈ keys, handle ∉
          stateHandles (session.runtime.stateOf key)) →
            final.store.restore handle = session.store.restore handle)
      fun _ _ => False) := by
  apply (publishParameters_calm staged distinct known calm).bind
  · intro _ middle given
    obtain ⟨resumes, _⟩ := given
    apply (updateOptions_leads (by rw [resumes.options]; exact check)).mono
    intro result final given
    cases result with
    | error raised => exact given
    | ok value =>
        obtain rfl := given
        exact ⟨by rw [resumes.options], resumes.resumed, resumes.kept⟩
  · intro _ _ impossible
    exact impossible

theorem stagedState_continued {store final : HandleStore τ}
    {staged : List (((Nat × ParameterName) × String) × Handle)}
    (same : SameParameters kinds saved session before after)
    (stateful : ∀ key ∈ before, Stateful kinds attached saved key)
    (stages : List.Forall₂ (Staged session.store store) staged
      (savedItems kinds attached saved session before after))
    (kept : ∀ handle, session.store.next ≤ handle →
      final.restore handle = store.restore handle)
    {pair : (Nat × ParameterName) × (Nat × ParameterName)}
    (listed : pair ∈ after.zip before) {weight : Handle}
    (held : session.runtime.held (pair.1.1, .weight pair.1.2) =
      some weight) :
    List.Forall₂ (Continued kinds (session.read weight) final)
      (stagedState staged pair.1)
      (saved.readState (saved.runtime.stateOf pair.2)) := by
  have own := List.rel_filter (R := Staged session.store store)
    (p := fun entry => decide (entry.1.1 = pair.1))
    (q := fun entry => decide (entry.1.1 = pair.1))
    (fun {entry other} given => by simp [given.label]) stages
  have distinct : (((after.zip before).map (savedItem saved)).map
      Prod.fst).Nodup := by
    rw [savedItem_keys same]
    exact same.distinct
  have filtered : (savedItems kinds attached saved session before
      after).filter (·.1.1 = pair.1) =
        parameterItems kinds attached session (savedItem saved pair) :=
    filter_items distinct (List.mem_map_of_mem listed)
  rw [filtered, parameterItems_saved stateful listed] at own
  have own := List.forall₂_map_right_iff.mp own
  apply List.forall₂_map_left_iff.mpr
  apply List.forall₂_map_right_iff.mpr
  apply forall₂_imp_mem own
  intro entry other member given
  obtain ⟨value, same', holds⟩ := given.holds
  obtain ⟨handle, leaf, made⟩ :=
    convertState_saved same stateful listed held member
  cases same'.symm.trans made
  have label : entry.1.2 = other.1 := congrArg Prod.snd given.label
  refine ⟨label, entry.2, saved.read handle, _, rfl, ?_,
    (kept _ given.fresh).trans holds, ?_, ?_⟩
  · rw [leaf]
    rfl
  · intro step
    rw [if_pos step]
  · intro step
    rw [if_neg step]
    exact kinds.restored _ _

theorem loadOptimizer_restores (receptive : session.Receptive)
    (resumable : Resumable kinds attached saved session before after)
    (saves : SavesOptimizer saved before checkpoint) :
    (loadOptimizer kinds attached checkpoint).Leads session (Ending
      (fun _ next => Continues kinds saved session next before after)
      fun _ _ => False) := by
  apply (prepareOptimizer_restores receptive resumable saves).bind
  · intro prepared next given
    obtain ⟨same, stateful, _, check⟩ := resumable
    obtain ⟨keys, staged, options⟩ := prepared
    obtain ⟨rfl, rfl, store, stages, idle, calm⟩ := given
    have runtime : next.runtime = session.runtime := idle.runtime
    have stored : next.store = store := idle.store
    rw [← runtime] at check
    apply (stopAt_calm (publishOptimizer_restores same.distinct
      (runtime ▸ weights_known same) calm check)).mono
    intro result final given
    cases result with
    | error raised => exact given
    | ok value =>
        obtain ⟨updated, states, kept⟩ := given
        refine ⟨updated.trans (by rw [runtime]), ?_⟩
        intro pair listed weight held
        rw [states pair.1 (List.of_mem_zip listed).1]
        refine stagedState_continued same stateful stages ?_ listed held
        intro handle young
        rw [← stored]
        -- The handles of the old states are older than what was staged.
        apply kept handle
        intro key _ old
        rw [runtime] at old
        obtain ⟨slot, here⟩ := held_of_stateHandles old
        have older := session.store.fresh handle
          (AList.lookup_isSome.mp (receptive.live here))
        exact Nat.not_lt.mpr young older
  · intro _ _ impossible
    exact impossible

end Loading

/-- A load that raises before the publication undoes itself, and a checkpoint
brings back what it was saved of. -/
theorem checkpoints_resume (kinds : Kinds τ γ) (attached : Attached γ)
    (session : Session τ γ) :
    (∀ checkpoint strict assign raised next,
      session.Uploading (uploads (modelItems kinds session checkpoint)) →
      (prepareModel kinds checkpoint strict assign).run session =
        (.error raised, next) →
      (loadStateDict kinds checkpoint strict assign).run session =
          (.error raised, next) ∧
        Undone session next) ∧
    (∀ checkpoint raised next,
      session.Uploading
        (uploads (optimizerItems kinds attached session checkpoint)) →
      (prepareOptimizer kinds attached checkpoint).run session =
        (.error raised, next) →
      (loadOptimizer kinds attached checkpoint).run session =
          (.error raised, next) ∧
        Undone session next) ∧
    (∀ saved checkpoint later strict, session.Receptive →
      SameModel kinds saved session →
      stateDict.run saved = (.ok checkpoint, later) →
      (loadStateDict kinds checkpoint strict false).Leads session (Ending
        (fun names next =>
          names = ([], []) ∧ Loaded kinds saved session next)
        fun _ _ => False)) ∧
    ∀ saved checkpoint later, session.Receptive →
      optimizerStateDict.run saved = (.ok checkpoint, later) →
      ∃ before, saved.runtime.parameterEntries = some before ∧
        ∀ after, Resumable kinds attached saved session before after →
          (loadOptimizer kinds attached checkpoint).Leads session (Ending
            (fun _ next => Continues kinds saved session next before after)
            fun _ _ => False) := by
  refine ⟨?_, ?_, ?_, ?_⟩
  · intro checkpoint strict assign raised next uploading run
    have undone := prepareModel_undone kinds checkpoint strict assign uploading
    unfold Leads at undone
    rw [run] at undone
    refine ⟨?_, undone⟩
    unfold loadStateDict
    rw [run_get_bind, run_bind, run]
  · intro checkpoint raised next uploading run
    have undone := prepareOptimizer_undone kinds attached checkpoint uploading
    unfold Leads at undone
    rw [run] at undone
    refine ⟨?_, undone⟩
    unfold loadOptimizer
    rw [run_bind, run]
  · intro saved checkpoint later strict receptive same run
    have saves := stateDict_saves saved
    unfold Leads at saves
    rw [run] at saves
    exact loadStateDict_restores receptive same saves.2 strict
  · intro saved checkpoint later receptive run
    have saves := optimizerStateDict_saves saved
    unfold Leads at saves
    rw [run] at saves
    obtain ⟨_, before, source, saves⟩ := saves
    refine ⟨before, source, ?_⟩
    intro after resumable
    exact loadOptimizer_restores receptive resumable saves

/-- Tensors with their precision, of which the lower one keeps even values
only. -/
def precision : Kinds (Nat × Nat) Nat where
  shape _ := []
  dtype := Prod.fst
  floating _ := true
  cast dtype value :=
    if dtype = value.1 then value else (dtype, value.2 / 2 * 2)
  number value := some (32, value)
  same value := by simp

def sgd : Attached Nat where
  sgd := true
  check _ := .ok ()

def lone (name : ParameterName) (weight : Handle)
    (state : StateDict Handle Nat) : Record Nat where
  stage := {
    weights := [⟨name, weight, true⟩]
    buffers := []
    distinct := no_buffers }
  optimizerState := AList.insert name state ∅
  parameters := List.nodup_singleton name

def together : Record Nat where
  stage := {
    weights := [⟨0, 0, true⟩, ⟨1, 1, true⟩]
    buffers := []
    distinct := no_buffers }
  optimizerState := AList.insert 1 [("momentum_buffer", .tensor 3)]
    (AList.insert 0 [("momentum_buffer", .tensor 2)] ∅)
  parameters := pair_parameters

def divided (state : StateDict Handle Nat) : List (Record Nat) :=
  [lone 0 0 state, lone 1 1 [("momentum_buffer", .tensor 3)]]

def trained (stages : List (Record Nat)) (faults : List (Option Raised)) :
    Session (Nat × Nat) Nat where
  runtime := {
    stages := stages
    dormant := .empty
    parameterOrder := some [0, 1]
    stateNames := [0, 1]
    groupSize := 2 }
  store := storeOf [(32, 7), (32, 9), (32, 5), (32, 3)]
  faults := faults
  unread _ := (32, 0)

/-- A momentum that is saved after the weights are converted comes back in
their precision, and a state without a tensor does not come back at all. -/
theorem trained_not_resumed :
    (∃ converted checkpoint saved loaded,
      (convertDtype precision 16).run (trained
        (divided [("momentum_buffer", .tensor 2)]) []) = (.ok (), converted) ∧
      optimizerStateDict.run converted = (.ok checkpoint, saved) ∧
      (loadOptimizer precision sgd checkpoint).run saved =
        (.ok (), loaded) ∧
      checkpoint.state = some [(0, [("momentum_buffer", .tensor (32, 5))]),
        (1, [("momentum_buffer", .tensor (32, 3))])] ∧
      loaded.readState (loaded.runtime.stateOf (0, 0)) =
        [("momentum_buffer", .tensor (16, 4))]) ∧
    ∃ checkpoint saved loaded,
      optimizerStateDict.run (trained
        (divided [("momentum_buffer", .none)]) []) =
          (.ok checkpoint, saved) ∧
      (loadOptimizer precision sgd checkpoint).run saved = (.error (.error
        "TRAINPOOL_CHECKPOINT_UNSUPPORTED: 0.momentum_buffer"), loaded) :=
  ⟨⟨_, _, _, _, rfl, rfl, rfl, rfl, rfl⟩, ⟨_, _, _, rfl, rfl⟩⟩

def regrouped : Session (Nat × Nat) Nat :=
  trained (divided [("momentum_buffer", .tensor 2)]) []

theorem regrouped_live {slot : Nat × Part} {handle : Handle}
    (held : regrouped.runtime.held slot = some handle) :
    (regrouped.store.restore handle).isSome := by
  obtain ⟨index, part⟩ := slot
  rcases index with _ | _ | _ | index
  · change (lone 0 0 [("momentum_buffer", .tensor 2)]).held part =
      some handle at held
    cases part with
    | weight name =>
        rcases name with _ | name
        · cases held
          rfl
        · cases held
    | buffer name => cases held
    | gradient name => cases held
    | state name position =>
        rcases name with _ | name
        · rcases position with _ | position
          · cases held
            rfl
          · cases held
        · cases held
  · change (lone 1 1 [("momentum_buffer", .tensor 3)]).held part =
      some handle at held
    cases part with
    | weight name =>
        rcases name with _ | _ | name
        · cases held
        · cases held
          rfl
        · cases held
    | buffer name => cases held
    | gradient name => cases held
    | state name position =>
        rcases name with _ | _ | name
        · cases held
        · rcases position with _ | position
          · cases held
            rfl
          · cases held
        · cases held
  · cases part <;> cases held
  · cases held

theorem regrouped_receptive : regrouped.Receptive where
  calm _ member := by cases member
  settled := rfl
  live := regrouped_live

theorem regrouped_parameters : SameParameters precision
    (trained [together] []) regrouped [(0, 0), (0, 1)] [(0, 0), (1, 1)] where
  source := rfl
  target := rfl
  names := rfl
  distinct := by decide
  size := rfl
  weights pair member := by
    rcases List.mem_cons.mp member with rfl | member
    · exact ⟨0, 0, rfl, rfl, rfl⟩
    · obtain rfl := List.mem_singleton.mp member
      exact ⟨1, 1, rfl, rfl, rfl⟩

theorem together_stateful : ∀ key ∈ [(0, 0), (0, 1)],
    Stateful precision sgd (trained [together] []) key := by
  intro key member
  have state : ∃ handle, (trained [together] []).runtime.stateOf key =
      [("momentum_buffer", .tensor handle)] := by
    rcases List.mem_cons.mp member with rfl | member
    · exact ⟨2, rfl⟩
    · obtain rfl := List.mem_singleton.mp member
      exact ⟨3, rfl⟩
  obtain ⟨handle, state⟩ := state
  constructor
  · rw [state]
    rfl
  · intro entry listed
    rw [state] at listed
    obtain rfl := List.mem_singleton.mp listed
    exact ⟨handle, rfl, fun _ => rfl, fun _ _ _ => rfl⟩

theorem regrouped_resumable : Resumable precision sgd
    (trained [together] []) regrouped [(0, 0), (0, 1)] [(0, 0), (1, 1)] where
  parameters := regrouped_parameters
  states := together_stateful
  supported := rfl
  updated := rfl

def refused : Session (Nat × Nat) Nat :=
  trained [together] [none, some (.error "upload")]

theorem refused_uploading {β : Type}
    {items : List (β × Except Raised (Nat × Nat))} (two : uploads items = 2) :
    refused.Uploading (uploads items) where
  single := by
    change refused.faults.countP Option.isSome ≤ 1
    decide
  later fault member := by
    rw [two] at member
    cases member

def trainedModel : List (Nat × Leaf (Nat × Nat) Nat) :=
  [(0, .tensor (32, 7)), (1, .tensor (32, 9))]

def trainedOptimizer : SavedOptimizer (Nat × Nat) Nat where
  state := some [(0, [("momentum_buffer", .tensor (32, 5))]),
    (1, [("momentum_buffer", .tensor (32, 3))])]
  groups := [⟨[0, 1], ∅⟩]

theorem checkpoints_resume_trained :
    (∃ next, (loadStateDict precision trainedModel false false).run refused =
      (.error (.error "upload"), next) ∧ Undone refused next) ∧
    (∃ next, (loadOptimizer precision sgd trainedOptimizer).run refused =
      (.error (.error "upload"), next) ∧ Undone refused next) ∧
    (loadStateDict precision trainedModel true false).Leads regrouped (Ending
      (fun names next => names = ([], []) ∧
        Loaded precision (trained [together] []) regrouped next)
      fun _ _ => False) ∧
    (loadOptimizer precision sgd trainedOptimizer).Leads regrouped (Ending
      (fun _ next => Continues precision (trained [together] []) regrouped
        next [(0, 0), (0, 1)] [(0, 0), (1, 1)])
      fun _ _ => False) := by
  obtain ⟨model, optimizer, _, _⟩ := checkpoints_resume precision sgd refused
  obtain ⟨_, _, loads, resumes⟩ := checkpoints_resume precision sgd regrouped
  have saved : optimizerStateDict.run (trained [together] []) =
      (.ok trainedOptimizer, trained [together] []) := rfl
  have undone := model trainedModel false false _ _ (refused_uploading rfl) rfl
  have undone' := optimizer trainedOptimizer _ _ (refused_uploading rfl) rfl
  refine ⟨⟨_, undone⟩, ⟨_, undone'⟩, ?_, ?_⟩
  · exact loads (trained [together] []) trainedModel _ true regrouped_receptive
      ⟨rfl, fun _ _ _ _ => rfl⟩ rfl
  · obtain ⟨before, source, resumes⟩ := resumes _ _ _ regrouped_receptive saved
    cases source
    exact resumes _ regrouped_resumable

end Training

end TrainPool
