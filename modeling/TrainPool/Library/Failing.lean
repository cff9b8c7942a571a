import Mathlib.Data.List.Forall2
import Mathlib.Logic.Basic

/-! Computations that change a state and may fail.  What they have changed
before they fail stays changed. -/

universe u

structure Failing (σ ε α : Type) where
  run : σ → Except ε α × σ

namespace Failing

variable {σ ε α β : Type}

instance : Monad (Failing σ ε) where
  pure value := ⟨fun state => (.ok value, state)⟩
  bind first second := ⟨fun state =>
    match first.run state with
    | (.ok value, next) => (second value).run next
    | (.error failure, next) => (.error failure, next)⟩

instance : MonadExceptOf ε (Failing σ ε) where
  throw failure := ⟨fun state => (.error failure, state)⟩
  tryCatch body handler := ⟨fun state =>
    match body.run state with
    | (.ok value, next) => (.ok value, next)
    | (.error failure, next) => (handler failure).run next⟩

instance : MonadStateOf σ (Failing σ ε) where
  get := ⟨fun state => (.ok state, state)⟩
  set next := ⟨fun _ => (.ok (), next)⟩
  modifyGet change := ⟨fun state => (.ok (change state).1, (change state).2)⟩

theorem run_bind (first : Failing σ ε α) (second : α → Failing σ ε β)
    (state : σ) : (first >>= second).run state =
      match first.run state with
      | (.ok value, next) => (second value).run next
      | (.error failure, next) => (.error failure, next) :=
  rfl

theorem run_tryCatch (body : Failing σ ε α) (handler : ε → Failing σ ε α)
    (state : σ) : (tryCatch body handler).run state =
      match body.run state with
      | (.ok value, next) => (.ok value, next)
      | (.error failure, next) => (handler failure).run next :=
  rfl

theorem run_get_bind (program : σ → Failing σ ε α) (state : σ) :
    ((get : Failing σ ε σ) >>= program).run state = (program state).run state :=
  rfl

instance : LawfulMonad (Failing σ ε) := by
  refine LawfulMonad.mk' (Failing σ ε) ?_ (fun _ _ => rfl) ?_
  · intro α program
    refine congrArg Failing.mk (funext fun state => ?_)
    change (program >>= fun value => pure (id value)).run state = _
    rw [run_bind]
    cases program.run state with
    | mk result next => cases result <;> rfl
  · intro α β γ first second third
    refine congrArg Failing.mk (funext fun state => ?_)
    rw [run_bind]
    cases first.run state with
    | mk result next => cases result <;> rfl

def each (body : α → Failing σ ε Unit) : List α → Failing σ ε Unit
  | [] => pure ()
  | item :: rest => do
      body item
      each body rest

theorem each_map {γ : Type} (body : β → Failing σ ε Unit) (item : γ → β)
    (items : List γ) :
    each body (items.map item) = each (fun one => body (item one)) items := by
  induction items with
  | nil => rfl
  | cons first rest ih =>
      rw [List.map_cons, each, each, ih]

def collect (body : α → Failing σ ε β) : List α → Failing σ ε (List β)
  | [] => pure []
  | item :: rest => do
      let first ← body item
      let others ← collect body rest
      pure (first :: others)

/-- A computation that is followed by another even where it fails. -/
def ensuring (body : Failing σ ε α) (final : Failing σ ε Unit) :
    Failing σ ε α := do
  let result : Except ε α ← tryCatch (do
    let value ← body
    pure (.ok value)) fun failure => pure (.error failure)
  final
  match result with
  | .ok value => pure value
  | .error failure => throw failure

def within {ρ : Type} (part : ρ → σ) (put : ρ → σ → ρ)
    (program : Failing σ ε α) : Failing ρ ε α where
  run state := ((program.run (part state)).1,
    put state (program.run (part state)).2)

/-- What a computation leads to: a condition on its result and on the state it
leaves. -/
def Leads (program : Failing σ ε α) (state : σ)
    (post : Except ε α → σ → Prop) : Prop :=
  post (program.run state).1 (program.run state).2

/-- One condition where a computation returns, another where it fails. -/
def Ending (returns : α → σ → Prop) (fails : ε → σ → Prop) :
    Except ε α → σ → Prop
  | .ok value, state => returns value state
  | .error failure, state => fails failure state

section

variable {state : σ} {post other : Except ε α → σ → Prop}
  {program : Failing σ ε α}

theorem Leads.mono (leads : program.Leads state post)
    (weaker : ∀ result next, post result next → other result next) :
    program.Leads state other :=
  weaker _ _ leads

theorem Leads.and (first : program.Leads state post)
    (second : program.Leads state other) :
    program.Leads state fun result next =>
      post result next ∧ other result next :=
  ⟨first, second⟩

@[simp] theorem leads_pure {value : α} :
    (pure value : Failing σ ε α).Leads state post ↔ post (.ok value) state :=
  Iff.rfl

@[simp] theorem leads_throw {failure : ε} :
    (throw failure : Failing σ ε α).Leads state post ↔
      post (.error failure) state :=
  Iff.rfl

@[simp] theorem leads_get {post : Except ε σ → σ → Prop} :
    (get : Failing σ ε σ).Leads state post ↔ post (.ok state) state :=
  Iff.rfl

@[simp] theorem leads_modify {change : σ → σ}
    {post : Except ε PUnit → σ → Prop} :
    (modify change : Failing σ ε PUnit).Leads state post ↔
      post (.ok ()) (change state) :=
  Iff.rfl

@[simp] theorem leads_within {ρ : Type} {part : ρ → σ} {put : ρ → σ → ρ}
    {whole : ρ} {post : Except ε α → ρ → Prop} :
    (within part put program).Leads whole post ↔
      program.Leads (part whole) fun result next =>
        post result (put whole next) :=
  Iff.rfl

@[simp] theorem leads_pure_bind {value : α} {program : α → Failing σ ε β}
    {post : Except ε β → σ → Prop} :
    (pure value >>= program).Leads state post ↔
      (program value).Leads state post :=
  Iff.rfl

@[simp] theorem leads_get_bind {program : σ → Failing σ ε β}
    {post : Except ε β → σ → Prop} :
    ((get : Failing σ ε σ) >>= program).Leads state post ↔
      (program state).Leads state post :=
  Iff.rfl

@[simp] theorem leads_set_bind {next : σ} {program : PUnit → Failing σ ε β}
    {post : Except ε β → σ → Prop} :
    ((set next : Failing σ ε PUnit) >>= program).Leads state post ↔
      (program ⟨⟩).Leads next post :=
  Iff.rfl

@[simp] theorem leads_modify_bind {change : σ → σ}
    {program : PUnit → Failing σ ε β} {post : Except ε β → σ → Prop} :
    ((modify change : Failing σ ε PUnit) >>= program).Leads state post ↔
      (program ⟨⟩).Leads (change state) post :=
  Iff.rfl

theorem Leads.bind {first : Failing σ ε α} {second : α → Failing σ ε β}
    {post : Except ε β → σ → Prop} {middle : Except ε α → σ → Prop}
    (leads : first.Leads state middle)
    (goes : ∀ value next, middle (.ok value) next →
      (second value).Leads next post)
    (fails : ∀ failure next, middle (.error failure) next →
      post (.error failure) next) :
    (first >>= second).Leads state post := by
  change post (Prod.fst (match first.run state with
    | (.ok value, next) => (second value).run next
    | (.error failure, next) => (.error failure, next)))
    (Prod.snd (match first.run state with
    | (.ok value, next) => (second value).run next
    | (.error failure, next) => (.error failure, next)))
  unfold Leads at leads
  split
  · rename_i value next ran
    rw [ran] at leads
    exact goes value next leads
  · rename_i failure next ran
    rw [ran] at leads
    exact fails failure next leads

theorem Leads.across {first : Failing σ ε α} {second : α → Failing σ ε β}
    {post : Except ε β → σ → Prop} (middle : Except ε α → σ → Prop)
    (leads : first.Leads state middle)
    (goes : ∀ value next, middle (.ok value) next →
      (second value).Leads next post)
    (fails : ∀ failure next, middle (.error failure) next →
      post (.error failure) next) :
    (first >>= second).Leads state post :=
  leads.bind goes fails

theorem Leads.rescue {body : Failing σ ε α} {handler : ε → Failing σ ε α}
    {middle : Except ε α → σ → Prop} (leads : body.Leads state middle)
    (passes : ∀ value next, middle (.ok value) next → post (.ok value) next)
    (handled : ∀ failure next, middle (.error failure) next →
      (handler failure).Leads next post) :
    (tryCatch body handler).Leads state post := by
  change post (Prod.fst (match body.run state with
    | (.ok value, next) => (.ok value, next)
    | (.error failure, next) => (handler failure).run next))
    (Prod.snd (match body.run state with
    | (.ok value, next) => (.ok value, next)
    | (.error failure, next) => (handler failure).run next))
  unfold Leads at leads
  split
  · rename_i value next ran
    rw [ran] at leads
    exact passes value next leads
  · rename_i failure next ran
    rw [ran] at leads
    exact handled failure next leads

theorem Leads.each {body : α → Failing σ ε Unit} (inv : σ → Prop)
    {items : List α} (holds : inv state)
    (keeps : ∀ item ∈ items, ∀ state, inv state →
      (body item).Leads state fun _ next => inv next) :
    (Failing.each body items).Leads state fun _ next => inv next := by
  induction items generalizing state with
  | nil => exact holds
  | cons item rest ih =>
      refine (keeps item List.mem_cons_self state holds).bind ?_ ?_
      · intro _ next here
        exact ih here fun other member =>
          keeps other (List.mem_cons_of_mem _ member)
      · intro failure next here
        exact here

theorem Leads.each_until {body : α → Failing σ ε Unit} {inv : σ → Prop}
    {fails : ε → σ → Prop} {items : List α} (holds : inv state)
    (keeps : ∀ item ∈ items, ∀ state, inv state →
      (body item).Leads state (Ending (fun _ => inv) fails)) :
    (Failing.each body items).Leads state (Ending (fun _ => inv) fails) := by
  induction items generalizing state with
  | nil => exact holds
  | cons item rest ih =>
      apply (keeps item List.mem_cons_self state holds).bind
      · intro _ next here
        exact ih here fun other member =>
          keeps other (List.mem_cons_of_mem _ member)
      · intro failure next here
        exact here

theorem Leads.collect {body : α → Failing σ ε β} (inv : σ → Prop)
    {items : List α} (holds : inv state)
    (keeps : ∀ item ∈ items, ∀ state, inv state →
      (body item).Leads state fun _ next => inv next) :
    (Failing.collect body items).Leads state fun _ next => inv next := by
  induction items generalizing state with
  | nil => exact holds
  | cons item rest ih =>
      refine (keeps item List.mem_cons_self state holds).bind ?_ ?_
      · intro first next here
        refine (ih here fun other member =>
          keeps other (List.mem_cons_of_mem _ member)).bind ?_ ?_
        · intro others final there
          exact there
        · intro failure final there
          exact there
      · intro failure next here
        exact here

theorem Leads.collect_until {body : α → Failing σ ε β} {inv : σ → Prop}
    {relation : α → β → Prop} {fails : ε → σ → Prop} {items : List α}
    (holds : inv state)
    (keeps : ∀ item ∈ items, ∀ state, inv state → (body item).Leads state
      (Ending (fun value next => inv next ∧ relation item value) fails)) :
    (Failing.collect body items).Leads state (Ending
      (fun values next => inv next ∧ List.Forall₂ relation items values)
      fails) := by
  induction items generalizing state with
  | nil => exact ⟨holds, .nil⟩
  | cons item rest ih =>
      apply (keeps item List.mem_cons_self state holds).bind
      · intro first next given
        obtain ⟨holds, related⟩ := given
        have others := ih holds fun other member =>
          keeps other (List.mem_cons_of_mem _ member)
        apply others.bind
        · intro values final given
          exact ⟨given.1, .cons related given.2⟩
        · intro failure final given
          exact given
      · intro failure next given
        exact given

theorem Leads.ensuring {body : Failing σ ε α} {final : Failing σ ε Unit}
    {middle : Except ε α → σ → Prop} (leads : body.Leads state middle)
    (ensues : ∀ result next, middle result next →
      final.Leads next fun ended last => match ended with
        | .ok _ => post result last
        | .error failure => post (.error failure) last) :
    (Failing.ensuring body final).Leads state post := by
  refine Leads.across (fun result next => ∃ ended,
    result = .ok ended ∧ middle ended next) ?_ ?_ ?_
  · have returned : (do
        let value ← body
        pure (.ok value) : Failing σ ε (Except ε α)).Leads state
          fun result next => match result with
            | .ok ended => ∃ value, ended = .ok value ∧
                middle (.ok value) next
            | .error failure => middle (.error failure) next := by
      refine leads.bind ?_ ?_
      · intro value next here
        exact ⟨value, rfl, here⟩
      · intro failure next here
        exact here
    refine returned.rescue ?_ ?_
    · intro ended next here
      obtain ⟨value, rfl, here⟩ := here
      exact ⟨_, rfl, here⟩
    · intro failure next here
      exact ⟨_, rfl, here⟩
  · intro ended next here
    obtain ⟨_, same, here⟩ := here
    cases same
    refine (ensues ended next here).bind ?_ ?_
    · intro _ last there
      cases ended with
      | ok value => exact there
      | error failure => exact there
    · intro failure last there
      exact there
  · intro failure next here
    obtain ⟨_, same, _⟩ := here
    cases same

end

/-- The state that a computation leaves is related to the one it started in,
whether it fails or not. -/
def Respects (relation : σ → σ → Prop) (program : Failing σ ε α) : Prop :=
  ∀ state, program.Leads state fun _ next => relation state next

section Respects

variable {relation : σ → σ → Prop}

theorem Respects.bind {first : Failing σ ε α} {second : α → Failing σ ε β}
    (trans : ∀ {a b c}, relation a b → relation b c → relation a c)
    (early : first.Respects relation)
    (late : ∀ value, (second value).Respects relation) :
    (first >>= second).Respects relation := by
  intro state
  refine (early state).bind ?_ ?_
  · intro value next here
    exact (late value next).mono fun _ _ there => trans here there
  · intro failure next here
    exact here

theorem Respects.rescue {body : Failing σ ε α} {handler : ε → Failing σ ε α}
    (trans : ∀ {a b c}, relation a b → relation b c → relation a c)
    (early : body.Respects relation)
    (late : ∀ failure, (handler failure).Respects relation) :
    (tryCatch body handler).Respects relation := by
  intro state
  refine (early state).rescue ?_ ?_
  · intro value next here
    exact here
  · intro failure next here
    exact (late failure next).mono fun _ _ there => trans here there

theorem Respects.each {body : α → Failing σ ε Unit}
    (refl : ∀ a, relation a a)
    (trans : ∀ {a b c}, relation a b → relation b c → relation a c)
    {items : List α} (all : ∀ item ∈ items, (body item).Respects relation) :
    (Failing.each body items).Respects relation := by
  induction items with
  | nil => exact refl
  | cons item rest ih =>
      refine Respects.bind trans (all item List.mem_cons_self) fun _ => ?_
      exact ih fun other member => all other (List.mem_cons_of_mem _ member)

theorem Respects.collect {body : α → Failing σ ε β}
    (refl : ∀ a, relation a a)
    (trans : ∀ {a b c}, relation a b → relation b c → relation a c)
    {items : List α} (all : ∀ item ∈ items, (body item).Respects relation) :
    (Failing.collect body items).Respects relation := by
  induction items with
  | nil => exact refl
  | cons item rest ih =>
      refine Respects.bind trans (all item List.mem_cons_self) fun first => ?_
      refine Respects.bind trans (ih fun other member =>
        all other (List.mem_cons_of_mem _ member)) fun others => ?_
      exact refl

end Respects

/-- A computation acts on a part of its state as another one does on its
own. -/
def Projects {ρ : Type} (part : ρ → σ) (program : Failing ρ ε α)
    (inner : Failing σ ε α) : Prop :=
  ∀ state, (program.run state).1 = (inner.run (part state)).1 ∧
    part (program.run state).2 = (inner.run (part state)).2

section Projects

variable {ρ : Type} {part : ρ → σ}

theorem projects_within {put : ρ → σ → ρ}
    (puts : ∀ whole state, part (put whole state) = state)
    (program : Failing σ ε α) :
    Projects part (within part put program) program :=
  fun whole => ⟨rfl, puts whole _⟩

theorem Projects.bind {first : Failing ρ ε α} {second : α → Failing ρ ε β}
    {inner : Failing σ ε α} {other : α → Failing σ ε β}
    (early : Projects part first inner)
    (late : ∀ value, Projects part (second value) (other value)) :
    Projects part (first >>= second) (inner >>= other) := by
  intro state
  obtain ⟨result, left⟩ := early state
  rw [run_bind, run_bind]
  cases ran : first.run state with
  | mk ended next =>
      cases ran' : inner.run (part state) with
      | mk ended' next' =>
          rw [ran, ran'] at result left
          cases result
          cases left
          cases ended with
          | ok value => exact late value next
          | error failure => exact ⟨rfl, rfl⟩

theorem Projects.noted {change : ρ → ρ}
    (same : ∀ whole, part (change whole) = part whole)
    {program : Failing ρ ε α} {inner : Failing σ ε α}
    (projects : Projects part program inner) :
    Projects part ((modify change : Failing ρ ε PUnit) >>= fun _ => program)
      inner := by
  intro state
  rw [← same state]
  exact projects (change state)

theorem Projects.get {program : ρ → Failing ρ ε α}
    {inner : σ → Failing σ ε α}
    (projects : ∀ whole, Projects part (program whole) (inner (part whole))) :
    Projects part ((MonadState.get : Failing ρ ε ρ) >>= program)
      ((MonadState.get : Failing σ ε σ) >>= inner) :=
  fun state => projects state state

theorem Projects.rescue {body : Failing ρ ε α} {handler : ε → Failing ρ ε α}
    {inner : Failing σ ε α} {other : ε → Failing σ ε α}
    (early : Projects part body inner)
    (late : ∀ failure, Projects part (handler failure) (other failure)) :
    Projects part (tryCatch body handler) (tryCatch inner other) := by
  intro state
  obtain ⟨result, left⟩ := early state
  rw [run_tryCatch, run_tryCatch]
  cases ran : body.run state with
  | mk ended next =>
      cases ran' : inner.run (part state) with
      | mk ended' next' =>
          rw [ran, ran'] at result left
          cases result
          cases left
          cases ended with
          | ok value => exact ⟨rfl, rfl⟩
          | error failure => exact late failure next

theorem Projects.each {body : α → Failing ρ ε Unit}
    {inner : α → Failing σ ε Unit}
    (projects : ∀ item, Projects part (body item) (inner item))
    (items : List α) :
    Projects part (Failing.each body items) (Failing.each inner items) := by
  induction items with
  | nil => exact fun _ => ⟨rfl, rfl⟩
  | cons item rest ih => exact (projects item).bind fun _ => ih

end Projects

end Failing
