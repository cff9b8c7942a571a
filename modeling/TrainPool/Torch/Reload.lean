import TrainPool.Torch.Checkpoint

namespace TrainPool

open HandleStore Failing

/-! What is left of a load that raises, and what one that does not brings
back. -/

namespace Training

variable {τ γ β : Type}

def uploads (items : List (β × Except Raised τ)) : Nat :=
  (items.takeWhile (·.2.isOk)).length

end Training

namespace Session

variable {τ γ : Type}

/-- At most one of the calls to come raises, and it is one of the first. -/
structure Uploading (session : Session τ γ) (count : Nat) : Prop where
  single : session.Single
  later : ∀ fault ∈ session.faults.drop count, fault = none

theorem Calm.uploading {session : Session τ γ} (calm : session.Calm)
    (count : Nat) : session.Uploading count :=
  ⟨calm.single, fun fault member => calm fault (List.mem_of_mem_drop member)⟩

/-- The records and what the store holds are as they were. -/
structure Undone (session next : Session τ γ) : Prop where
  runtime : next.runtime = session.runtime
  store : ∀ handle, next.store.restore handle = session.store.restore handle

theorem Undone.refl (session : Session τ γ) : Undone session session :=
  ⟨rfl, fun _ => rfl⟩

end Session

namespace Training

open Session

variable {τ γ β : Type} {session : Session τ γ}

theorem publish_faults (replacements : List Handle) (value : τ)
    (session : Session τ γ) :
    (publish replacements value).Leads session (Ending
      (fun _ next => next.faults = session.faults.tail)
      fun _ _ => ¬session.Calm) := by
  have offloads : (offload value).Leads session (Ending
      (fun _ next => next.faults = session.faults.tail)
      fun _ _ => ¬session.Calm) := by
    apply (call_spec session).bind
    · intro _ next given
      exact given.2.1
    · intro raised next given
      obtain ⟨_, _, ended⟩ := given
      intro calm
      cases calm _ (List.mem_of_mem_head? ended)
  apply offloads.rescue
  · intro handle next given
    exact given
  · intro raised next given
    have frees : (each free replacements).Leads next fun _ _ => True := trivial
    apply frees.bind
    · intro _ _ _
      exact given
    · intro _ _ _
      exact given

structure Staged (store after : HandleStore τ) (staged : β × Handle)
    (item : β × Except Raised τ) : Prop where
  label : staged.1 = item.1
  fresh : store.next ≤ staged.2
  holds : ∃ value, item.2 = .ok value ∧ after.restore staged.2 = some value

theorem Staged.earlier {store middle after : HandleStore τ}
    {staged : β × Handle} {item : β × Except Raised τ}
    (given : Staged middle after staged item)
    (lower : store.next ≤ middle.next) : Staged store after staged item :=
  ⟨given.label, lower.trans given.fresh, given.holds⟩

theorem stage_uploading (done : List Handle)
    (items : List (β × Except Raised τ))
    (uploading : session.Uploading (uploads items)) :
    (stage done items).Leads session (Ending
      (fun staged next => ∃ store,
        Extends session.store store (staged.map Prod.snd) ∧
        List.Forall₂ (Staged session.store store) staged items ∧
        Idle { session with store := store } next ∧
        (session.Calm → next.Calm))
      fun _ next => ∃ store, Withdrawn done session.store store ∧
        Idle { session with store := store } next ∧
        (session.Calm → ∃ item ∈ items, item.2.isOk = false)) := by
  induction items generalizing done session with
  | nil =>
      apply leads_pure.mpr
      refine ⟨session.store, ⟨le_rfl, fun _ _ => rfl, ?_⟩, .nil, .refl _,
        id⟩
      intro handle value fresh found
      rw [restore_fresh _ fresh] at found
      cases found
  | cons item rest ih =>
      obtain ⟨label, content⟩ := item
      cases content with
      | error raised =>
          have calm : session.Calm := uploading.later
          apply (frees_calm done calm).bind
          · intro _ next given
            apply leads_throw.mpr
            exact ⟨_, .refl_frees done session.store, given.1,
              fun _ => ⟨_, List.mem_cons_self, rfl⟩⟩
          · intro _ _ impossible
            exact impossible.elim
      | ok value =>
          have published := (publish_single done value uploading.single).and
            (publish_faults done value session)
          apply published.bind
          · intro handle next given
            obtain ⟨⟨rfl, idle, single⟩, faults⟩ := given
            change next.faults = session.faults.tail at faults
            have later : next.Uploading (uploads rest) := by
              refine ⟨single, ?_⟩
              intro fault member
              rw [faults, List.drop_tail] at member
              exact uploading.later fault member
            have calm : session.Calm → next.Calm := by
              intro calm fault member
              rw [faults] at member
              exact calm.tail member
            apply (ih (done ++ [session.store.next]) later).bind
            · intro others final given
              obtain ⟨store, extended, staged, later, quiet⟩ := given
              rw [idle.store] at extended staged
              obtain ⟨extended, own⟩ := extended.offloaded
              apply leads_pure.mpr
              refine ⟨store, extended, .cons ⟨rfl, le_rfl, value, rfl, own⟩ ?_,
                (idle.stored store).trans later, quiet ∘ calm⟩
              apply staged.imp
              intro entry item given
              exact given.earlier (Nat.le_succ _)
            · intro raised final given
              obtain ⟨store, withdrawn, later, refused⟩ := given
              rw [idle.store] at withdrawn
              refine ⟨store, withdrawn.offloaded,
                (idle.stored store).trans later, ?_⟩
              intro quiet
              obtain ⟨item, member, bad⟩ := refused (calm quiet)
              exact ⟨item, List.mem_cons_of_mem _ member, bad⟩
          · intro raised next given
            obtain ⟨⟨store, withdrawn, idle, _⟩, loud⟩ := given
            exact ⟨store, withdrawn, idle, fun calm => absurd calm loud⟩

theorem stage_undone (items : List (β × Except Raised τ))
    (uploading : session.Uploading (uploads items)) :
    (stage [] items).Leads session (Ending (fun _ _ => True)
      fun _ next => Undone session next) := by
  apply (stage_uploading [] items uploading).mono
  intro result next given
  cases result with
  | ok staged => trivial
  | error raised =>
      obtain ⟨store, withdrawn, idle, _⟩ := given
      refine ⟨idle.runtime, ?_⟩
      intro handle
      rw [idle.store]
      exact withdrawn.same handle

theorem prepareModel_undone (kinds : Kinds τ γ)
    (checkpoint : List (Nat × Leaf τ γ)) (strict assign : Bool)
    (uploading : session.Uploading
      (uploads (modelItems kinds session checkpoint))) :
    (prepareModel kinds checkpoint strict assign).Leads session
      (Ending (fun _ _ => True) fun _ next => Undone session next) := by
  apply leads_get_bind.mpr
  dsimp only
  split
  · exact leads_throw.mpr (.refl session)
  · split
    · exact leads_throw.mpr (.refl session)
    · exact stage_undone _ uploading

theorem prepareOptimizer_undone (kinds : Kinds τ γ) (attached : Attached γ)
    (checkpoint : SavedOptimizer τ γ)
    (uploading : session.Uploading
      (uploads (optimizerItems kinds attached session checkpoint))) :
    (prepareOptimizer kinds attached checkpoint).Leads session
      (Ending (fun _ _ => True) fun _ next => Undone session next) := by
  apply leads_get_bind.mpr
  unfold optimizerItems at uploading
  cases checked : checkOptimizer attached session.runtime checkpoint with
  | error raised => exact leads_throw.mpr (.refl session)
  | ok found =>
      rw [checked] at uploading
      apply (stage_undone _ uploading).bind
      · intro staged next _
        trivial
      · intro raised next undone
        exact undone

/-! The publication of a model. -/

theorem stopAt_calm {α : Type} {body : Stepping τ γ α}
    {returns : α → Session τ γ → Prop}
    (leads : body.Leads session (Ending returns fun _ _ => False)) :
    (stopAt body).Leads session (Ending returns fun _ _ => False) := by
  apply leads.rescue
  · intro value next given
    exact given
  · intro _ _ impossible
    exact impossible.elim

theorem publishEntry_calm {replacement : Entry × Handle} {old : Handle}
    (held : session.runtime.held replacement.1.slot = some old)
    (calm : session.Calm) :
    (publishEntry replacement).Leads session (Ending
      (fun _ next => Idle { session with
        runtime := session.runtime.alter replacement.1.index
          (Record.put replacement.1.part replacement.2)
        store := session.store.free old } next ∧ next.Calm)
      fun _ _ => False) := by
  apply leads_get_bind.mpr
  rw [held]
  apply leads_modify_bind.mpr
  have quiet : ({ session with
      runtime := session.runtime.alter replacement.1.index
        (Record.put replacement.1.part replacement.2) } :
          Session τ γ).Calm := calm
  exact free_calm old quiet

end Training

namespace Session

variable {τ γ : Type}

/-- Places hold what they are to be replaced by, and nothing else is gone than
what they held. -/
structure Reloaded (staged : List (Entry × Handle))
    (session next : Session τ γ) : Prop where
  placed : ∀ pair ∈ staged, next.runtime.held pair.1.slot = some pair.2
  others : ∀ slot, (∀ pair ∈ staged, pair.1.slot ≠ slot) →
    next.runtime.held slot = session.runtime.held slot
  kept : ∀ handle,
    (∀ pair ∈ staged, session.runtime.held pair.1.slot ≠ some handle) →
      next.store.restore handle = session.store.restore handle

end Session

namespace Training

open Session

variable {τ γ : Type} {session : Session τ γ}

theorem publishEntries_calm {staged : List (Entry × Handle)}
    (distinct : (staged.map (·.1.slot)).Nodup)
    (held : ∀ pair ∈ staged, pair.1.part.persistent ∧
      (session.runtime.held pair.1.slot).isSome)
    (calm : session.Calm) :
    (each publishEntry staged).Leads session (Ending
      (fun _ next => Reloaded staged session next ∧ next.Calm)
      fun _ _ => False) := by
  induction staged generalizing session with
  | nil =>
      apply leads_pure.mpr
      refine ⟨⟨?_, fun _ _ => rfl, fun _ _ => rfl⟩, calm⟩
      intro pair member
      cases member
  | cons pair rest ih =>
      obtain ⟨new, distinct⟩ := List.nodup_cons.mp distinct
      obtain ⟨persistent, taken⟩ := held pair List.mem_cons_self
      obtain ⟨old, found⟩ := Option.isSome_iff_exists.mp taken
      apply (publishEntry_calm found calm).bind
      · intro _ next given
        obtain ⟨idle, calm⟩ := given
        have different : ∀ other ∈ rest, other.1.slot ≠ pair.1.slot := by
          intro other member same
          exact new (List.mem_map.mpr ⟨other, member, same⟩)
        have places : ∀ slot, next.runtime.held slot =
            if slot = pair.1.slot then some pair.2
            else session.runtime.held slot := by
          intro slot
          rw [idle.runtime]
          simp only
          rw [Runtime.held_alter_put persistent]
          split
          · rename_i same
            rw [same, found]
            rfl
          · rfl
        have same : ∀ other ∈ rest, next.runtime.held other.1.slot =
            session.runtime.held other.1.slot := by
          intro other member
          rw [places, if_neg (different other member)]
        have others : ∀ other ∈ rest, other.1.part.persistent ∧
            (next.runtime.held other.1.slot).isSome := by
          intro other member
          rw [same other member]
          exact held other (List.mem_cons_of_mem _ member)
        apply (ih distinct others calm).mono
        intro result final given
        cases result with
        | error raised => exact given
        | ok value =>
            obtain ⟨replaced, calm⟩ := given
            refine ⟨⟨?_, ?_, ?_⟩, calm⟩
            · intro other member
              rcases List.mem_cons.mp member with rfl | member
              · rw [replaced.others _ different, places, if_pos rfl]
              · exact replaced.placed other member
            · intro slot away
              have elsewhere : slot ≠ pair.1.slot := by
                intro here
                exact away pair List.mem_cons_self here.symm
              rw [replaced.others slot fun other member =>
                away other (List.mem_cons_of_mem _ member), places,
                if_neg elsewhere]
            · intro handle free
              have away : handle ≠ old := by
                rintro rfl
                exact free pair List.mem_cons_self found
              rw [replaced.kept handle, idle.store, restore_free, if_neg away]
              intro other member
              rw [same other member]
              exact free other (List.mem_cons_of_mem _ member)
      · intro _ _ impossible
        exact impossible

/-! The round trip of a model. -/

def Saves (saved : Session τ γ) (name : Nat) (entry : Nat × Leaf τ γ) :
    Prop :=
  ∃ handle, saved.runtime.stateHandle name = some handle ∧
    entry = (name, .tensor (saved.read handle))

theorem restore_spec (handle : Handle) (session : Session τ γ) :
    (restore handle).Leads session (Ending
      (fun value next => value = session.read handle ∧ Idle session next)
      fun _ next => Idle session next) := by
  apply (call_spec session).bind
  · intro _ next given
    exact ⟨given.1.read handle, given.1⟩
  · intro raised next given
    exact given.1

theorem stateDict_saves (session : Session τ γ) :
    stateDict.Leads session (Ending
      (fun checkpoint next => Idle session next ∧
        List.Forall₂ (Saves session) session.runtime.stateNames checkpoint)
      fun _ _ => True) := by
  apply leads_get_bind.mpr
  refine Leads.collect_until (Idle.refl session) ?_
  intro name _ now idle
  unfold stateEntry
  cases found : session.runtime.stateHandle name with
  | none => exact leads_throw.mpr trivial
  | some handle =>
      apply (restore_spec handle now).bind
      · intro value next given
        obtain ⟨rfl, later⟩ := given
        apply leads_pure.mpr
        refine ⟨idle.trans later, handle, found, ?_⟩
        rw [idle.read]
      · intro raised next _
        trivial

section

variable {saved : Session τ γ} {names : List Nat}
  {checkpoint : List (Nat × Leaf τ γ)}

theorem keys_saves (saves : List.Forall₂ (Saves saved) names checkpoint) :
    checkpoint.map Prod.fst = names := by
  induction saves with
  | nil => rfl
  | cons first rest ih =>
      obtain ⟨handle, _, rfl⟩ := first
      rw [List.map_cons, ih]

theorem lookup_saves (saves : List.Forall₂ (Saves saved) names checkpoint)
    (name : Nat) :
    checkpoint.lookup name = if name ∈ names then
      (saved.runtime.stateHandle name).map fun handle =>
        .tensor (saved.read handle)
    else none := by
  induction saves with
  | nil => rfl
  | @cons other entry names checkpoint first rest ih =>
      obtain ⟨handle, found, rfl⟩ := first
      by_cases here : name = other
      · subst here
        simp [found]
      · have different : (name == other) = false := by simpa using here
        rw [List.lookup_cons, different, ih]
        simp [here]

theorem incompatible_saves {runtime : Runtime γ}
    (saves : List.Forall₂ (Saves saved) runtime.stateNames checkpoint) :
    incompatible runtime checkpoint = ([], []) := by
  have covered : runtime.stateNames.filter (· ∉ runtime.stateNames) = [] := by
    simp
  unfold incompatible
  dsimp only
  rw [keys_saves saves, covered, List.mergeSort_nil]

end

theorem modelItems_sublist (kinds : Kinds τ γ) (session : Session τ γ)
    (checkpoint : List (Nat × Leaf τ γ)) :
    ((modelItems kinds session checkpoint).map Prod.fst).Sublist
      session.runtime.entries := by
  unfold modelItems
  induction session.runtime.entries with
  | nil => exact .slnil
  | cons entry rest ih =>
      cases found : checkpoint.lookup entry.name with
      | none =>
          rw [List.filterMap_cons, found]
          exact ih.cons entry
      | some leaf =>
          rw [List.filterMap_cons, found]
          exact ih.cons_cons entry

theorem labels_staged {store after : HandleStore τ}
    {staged : List (β × Handle)} {items : List (β × Except Raised τ)}
    (all : List.Forall₂ (Staged store after) staged items) :
    staged.map Prod.fst = items.map Prod.fst := by
  induction all with
  | nil => rfl
  | cons first rest ih => rw [List.map_cons, List.map_cons, first.label, ih]

theorem fresh_staged {store after : HandleStore τ}
    {staged : List (β × Handle)} {items : List (β × Except Raised τ)}
    (all : List.Forall₂ (Staged store after) staged items)
    {pair : β × Handle} (member : pair ∈ staged) : store.next ≤ pair.2 := by
  induction all with
  | nil => cases member
  | cons first rest ih =>
      rcases List.mem_cons.mp member with rfl | member
      · exact first.fresh
      · exact ih member

theorem exists_staged {store after : HandleStore τ}
    {staged : List (β × Handle)} {items : List (β × Except Raised τ)}
    (all : List.Forall₂ (Staged store after) staged items)
    {label : β} {value : τ} (member : (label, Except.ok value) ∈ items) :
    ∃ handle, (label, handle) ∈ staged ∧
      after.restore handle = some value := by
  induction all with
  | nil => cases member
  | @cons pair item staged items first rest ih =>
      rcases List.mem_cons.mp member with rfl | member
      · obtain ⟨content, same, holds⟩ := first.holds
        cases same
        have label : pair = (label, pair.2) := Prod.ext first.label rfl
        refine ⟨pair.2, ?_, holds⟩
        rw [← label]
        exact List.mem_cons_self
      · obtain ⟨handle, member, holds⟩ := ih member
        exact ⟨handle, List.mem_cons_of_mem _ member, holds⟩

end Training

namespace Session

variable {τ γ : Type}

structure Receptive (session : Session τ γ) : Prop where
  calm : session.Calm
  settled : session.runtime.pending = false
  live : ∀ {slot handle}, session.runtime.held slot = some handle →
    (session.store.restore handle).isSome

/-- Two sessions have the same model, in whatever records. -/
structure SameModel (kinds : Kinds τ γ) (saved session : Session τ γ) :
    Prop where
  names : session.runtime.stateNames = saved.runtime.stateNames
  shapes : ∀ entry ∈ session.runtime.entries, ∀ handle,
    saved.runtime.stateHandle entry.name = some handle →
      kinds.shape (saved.read handle) =
        kinds.shape (session.read entry.handle)

end Session

/-- What a tensor becomes in the place of another one. -/
structure Restored {τ γ : Type} (kinds : Kinds τ γ) (current value now : τ) :
    Prop where
  cast : now = kinds.cast (kinds.dtype current) value
  same : kinds.dtype current = kinds.dtype value → now = value

theorem Kinds.restored {τ γ : Type} (kinds : Kinds τ γ) (current value : τ) :
    Restored kinds current value
      (kinds.cast (kinds.dtype current) value) := by
  refine ⟨rfl, ?_⟩
  intro same
  rw [same, kinds.same]

namespace Training

open Session

variable {τ γ : Type} {session : Session τ γ}

theorem castEntry_fits {kinds : Kinds τ γ} {entry : Entry} {value : τ}
    (fits : kinds.shape value = kinds.shape (session.read entry.handle)) :
    castEntry kinds session entry (.tensor value) =
      .ok (kinds.cast (kinds.dtype (session.read entry.handle)) value) := by
  simp [castEntry, fits]

theorem mem_modelItems {kinds : Kinds τ γ} {saved : Session τ γ}
    {checkpoint : List (Nat × Leaf τ γ)} (same : SameModel kinds saved session)
    (saves : List.Forall₂ (Saves saved) saved.runtime.stateNames checkpoint)
    (item : Entry × Except Raised τ) :
    item ∈ modelItems kinds session checkpoint ↔
      ∃ handle, item.1 ∈ session.runtime.entries ∧
        item.1.name ∈ saved.runtime.stateNames ∧
        saved.runtime.stateHandle item.1.name = some handle ∧
        item.2 = .ok (kinds.cast
          (kinds.dtype (session.read item.1.handle)) (saved.read handle)) := by
  constructor
  · intro member
    obtain ⟨entry, listed, made⟩ := List.mem_filterMap.mp member
    rw [lookup_saves saves] at made
    by_cases named : entry.name ∈ saved.runtime.stateNames
    · rw [if_pos named] at made
      cases found : saved.runtime.stateHandle entry.name with
      | none =>
          rw [found] at made
          cases made
      | some handle =>
          rw [found] at made
          cases made
          exact ⟨handle, listed, named, found,
            castEntry_fits (same.shapes entry listed handle found)⟩
    · rw [if_neg named] at made
      cases made
  · intro given
    obtain ⟨entry, content⟩ := item
    obtain ⟨handle, listed, named, found, made⟩ := given
    apply List.mem_filterMap.mpr
    refine ⟨entry, listed, ?_⟩
    simp only at named found made
    rw [lookup_saves saves, if_pos named, found, made]
    simp only [Option.map_some]
    rw [castEntry_fits (same.shapes entry listed handle found)]

/-- The places of a model have what was saved of the other one. -/
def Loaded (kinds : Kinds τ γ) (saved session next : Session τ γ) : Prop :=
  ∀ entry ∈ session.runtime.entries, ∀ handle,
    entry.name ∈ saved.runtime.stateNames →
    saved.runtime.stateHandle entry.name = some handle →
      ∃ fresh now, next.runtime.held entry.slot = some fresh ∧
        next.store.restore fresh = some now ∧
        Restored kinds (session.read entry.handle) (saved.read handle) now


theorem loadStateDict_restores {kinds : Kinds τ γ} {saved : Session τ γ}
    {checkpoint : List (Nat × Leaf τ γ)} (receptive : session.Receptive)
    (same : SameModel kinds saved session)
    (saves : List.Forall₂ (Saves saved) saved.runtime.stateNames checkpoint)
    (strict : Bool) :
    (loadStateDict kinds checkpoint strict false).Leads session (Ending
      (fun names next => names = ([], []) ∧ Loaded kinds saved session next)
      fun _ _ => False) := by
  have compatible : incompatible session.runtime checkpoint = ([], []) := by
    rw [← same.names] at saves
    exact incompatible_saves saves
  have prepared : (prepareModel kinds checkpoint strict false).Leads session
      (Ending (fun staged next => ∃ store,
        List.Forall₂ (Staged session.store store) staged
          (modelItems kinds session checkpoint) ∧
        Idle { session with store := store } next ∧ next.Calm)
      fun _ _ => False) := by
    apply leads_get_bind.mpr
    dsimp only
    rw [compatible, receptive.settled]
    simp only [Bool.or_self, Bool.false_eq_true, if_false, List.isEmpty_nil,
      Bool.and_self, Bool.not_true, Bool.and_false]
    apply (stage_uploading [] _ (receptive.calm.uploading _)).mono
    intro result next given
    cases result with
    | ok staged =>
        obtain ⟨store, _, staged, idle, calm⟩ := given
        exact ⟨store, staged, idle, calm receptive.calm⟩
    | error raised =>
        obtain ⟨_, _, _, refused⟩ := given
        obtain ⟨item, member, bad⟩ := refused receptive.calm
        obtain ⟨_, _, _, _, content⟩ := (mem_modelItems same saves item).mp member
        rw [content] at bad
        cases bad
  apply leads_get_bind.mpr
  apply prepared.bind
  · intro staged next given
    obtain ⟨store, staged', idle, calm⟩ := given
    have labels := labels_staged staged'
    have runtime : next.runtime = session.runtime := idle.runtime
    have stored : next.store = store := idle.store
    have entries : (staged.map Prod.fst).Sublist session.runtime.entries := by
      rw [labels]
      exact modelItems_sublist kinds session checkpoint
    have listed : ∀ pair ∈ staged, pair.1 ∈ session.runtime.entries := by
      intro pair member
      exact entries.subset (List.mem_map_of_mem member)
    have distinct : (staged.map (·.1.slot)).Nodup := by
      have slots : staged.map (·.1.slot) =
          (staged.map Prod.fst).map Entry.slot := by
        rw [List.map_map]
        rfl
      rw [slots]
      exact (entries.map Entry.slot).nodup session.runtime.entries_distinct
    have held : ∀ pair ∈ staged, pair.1.part.persistent ∧
        (next.runtime.held pair.1.slot).isSome := by
      intro pair member
      obtain ⟨persistent, held⟩ := Runtime.held_of_entry (listed pair member)
      rw [runtime, held]
      exact ⟨persistent, rfl⟩
    apply (stopAt_calm (publishEntries_calm distinct held calm)).bind
    · intro _ final given
      obtain ⟨reloaded, _⟩ := given
      apply leads_pure.mpr
      refine ⟨compatible, ?_⟩
      intro entry member handle named found
      let value := kinds.cast (kinds.dtype (session.read entry.handle))
        (saved.read handle)
      have item := (mem_modelItems same saves (entry, .ok value)).mpr
        ⟨handle, member, named, found, rfl⟩
      obtain ⟨fresh, member, holds⟩ := exists_staged staged' item
      refine ⟨fresh, _, reloaded.placed _ member, ?_, kinds.restored _ _⟩
      rw [reloaded.kept, stored, holds]
      intro pair member' old
      rw [runtime] at old
      have older := session.store.fresh fresh
        (AList.lookup_isSome.mp (receptive.live old))
      exact Nat.not_lt.mpr (fresh_staged staged' member) older
    · intro _ _ impossible
      exact impossible
  · intro _ _ impossible
    exact impossible

end Training

end TrainPool
