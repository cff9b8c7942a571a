import TrainPool.Library.Failing

/-! A computation that another one follows on images of its states.  An image
is taken together with a script, of which the copy may use up a part. -/

namespace Failing

variable {σ φ ε α β : Type} {image : σ → List φ → σ}

/-- The copy uses up some entries, returns the same and leaves the image of
what the computation leaves. -/
def Mirrors (image : σ → List φ → σ) (program copy : Failing σ ε α)
    (state : σ) : Prop :=
  ∃ used, ∀ rest, copy.run (image state (used ++ rest)) =
    ((program.run state).1, image (program.run state).2 rest)

def Reflects (image : σ → List φ → σ) (program : Failing σ ε α) : Prop :=
  ∀ state, Mirrors image program program state

theorem Mirrors.pure (value : α) (state : σ) :
    Mirrors image (pure value : Failing σ ε α) (Pure.pure value) state :=
  ⟨[], fun _ => rfl⟩

theorem Mirrors.throw (failure : ε) (state : σ) :
    Mirrors image (throw failure : Failing σ ε α) (MonadExcept.throw failure)
      state :=
  ⟨[], fun _ => rfl⟩

theorem Mirrors.bind {first copy : Failing σ ε α}
    {second other : α → Failing σ ε β} {state : σ}
    {middle : Except ε α → σ → Prop} (early : Mirrors image first copy state)
    (leads : first.Leads state middle)
    (late : ∀ value next, middle (.ok value) next →
      Mirrors image (second value) (other value) next) :
    Mirrors image (first >>= second) (copy >>= other) state := by
  obtain ⟨used, follows⟩ := early
  unfold Leads at leads
  cases ran : first.run state with
  | mk result next =>
      rw [ran] at leads
      simp only [ran] at follows
      cases result with
      | ok value =>
          obtain ⟨used', follows'⟩ := late value next leads
          refine ⟨used ++ used', fun rest => ?_⟩
          rw [run_bind, run_bind, ran, List.append_assoc, follows]
          exact follows' rest
      | error failure =>
          refine ⟨used, fun rest => ?_⟩
          rw [run_bind, run_bind, ran, follows]

theorem Mirrors.rescue {body copy : Failing σ ε α}
    {handler other : ε → Failing σ ε α} {state : σ}
    {middle : Except ε α → σ → Prop} (early : Mirrors image body copy state)
    (leads : body.Leads state middle)
    (late : ∀ failure next, middle (.error failure) next →
      Mirrors image (handler failure) (other failure) next) :
    Mirrors image (tryCatch body handler) (tryCatch copy other) state := by
  obtain ⟨used, follows⟩ := early
  unfold Leads at leads
  cases ran : body.run state with
  | mk result next =>
      rw [ran] at leads
      simp only [ran] at follows
      cases result with
      | ok value =>
          refine ⟨used, fun rest => ?_⟩
          rw [run_tryCatch, run_tryCatch, ran, follows]
      | error failure =>
          obtain ⟨used', follows'⟩ := late failure next leads
          refine ⟨used ++ used', fun rest => ?_⟩
          rw [run_tryCatch, run_tryCatch, ran, List.append_assoc, follows]
          exact follows' rest

theorem Mirrors.get {program other : σ → Failing σ ε α} {state : σ}
    {copy : Failing σ ε α} (same : ∀ rest, other (image state rest) = copy)
    (follows : Mirrors image (program state) copy state) :
    Mirrors image (MonadState.get >>= program) (MonadState.get >>= other)
      state := by
  obtain ⟨used, follows⟩ := follows
  refine ⟨used, fun rest => ?_⟩
  change (other (image state (used ++ rest))).run _ = _
  rw [same]
  exact follows rest

theorem Mirrors.modify {change other : σ → σ} {state : σ}
    (same : ∀ rest, other (image state rest) = image (change state) rest) :
    Mirrors image (modify change : Failing σ ε PUnit) (modify other) state := by
  refine ⟨[], fun rest => ?_⟩
  change (Except.ok PUnit.unit, other (image state rest)) = _
  rw [same]
  rfl

section Reflects

theorem Reflects.pure (value : α) :
    Reflects image (Pure.pure value : Failing σ ε α) :=
  Mirrors.pure value

theorem Reflects.throw (failure : ε) :
    Reflects image (MonadExcept.throw failure : Failing σ ε α) :=
  Mirrors.throw failure

theorem Reflects.bind {first : Failing σ ε α} {second : α → Failing σ ε β}
    (early : Reflects image first)
    (late : ∀ value, Reflects image (second value)) :
    Reflects image (first >>= second) := by
  intro state
  have anything : first.Leads state fun _ _ => True := trivial
  exact (early state).bind anything fun value next _ => late value next

theorem Reflects.rescue {body : Failing σ ε α}
    {handler : ε → Failing σ ε α} (early : Reflects image body)
    (late : ∀ failure, Reflects image (handler failure)) :
    Reflects image (tryCatch body handler) := by
  intro state
  have anything : body.Leads state fun _ _ => True := trivial
  exact (early state).rescue anything fun failure next _ => late failure next

theorem Reflects.get {program : σ → Failing σ ε α}
    (same : ∀ state rest, program (image state rest) = program state)
    (follows : ∀ state, Reflects image (program state)) :
    Reflects image (MonadState.get >>= program) :=
  fun state => .get (same state) (follows state state)

theorem Reflects.modify {change : σ → σ}
    (same : ∀ state rest,
      change (image state rest) = image (change state) rest) :
    Reflects image (modify change : Failing σ ε PUnit) :=
  fun state => .modify (same state)

theorem Reflects.each {body : α → Failing σ ε Unit}
    (follows : ∀ item, Reflects image (body item)) (items : List α) :
    Reflects image (Failing.each body items) := by
  induction items with
  | nil => exact .pure ()
  | cons item rest ih => exact (follows item).bind fun _ => ih

theorem Reflects.collect {body : α → Failing σ ε β}
    (follows : ∀ item, Reflects image (body item)) (items : List α) :
    Reflects image (Failing.collect body items) := by
  induction items with
  | nil => exact .pure []
  | cons item rest ih =>
      exact (follows item).bind fun first => ih.bind fun others =>
        .pure (first :: others)

end Reflects

structure Tandem (image : σ → List φ → σ) (program copy : Failing σ ε α)
    (state : σ) (post : Except ε α → σ → Prop) : Prop where
  leads : program.Leads state post
  mirrors : Mirrors image program copy state

section Tandem

variable {state : σ}

theorem Tandem.pure {value : α} {post : Except ε α → σ → Prop}
    (holds : post (.ok value) state) :
    Tandem image (Pure.pure value : Failing σ ε α) (Pure.pure value) state
      post :=
  ⟨holds, .pure value state⟩

theorem Tandem.throw {failure : ε} {post : Except ε α → σ → Prop}
    (holds : post (.error failure) state) :
    Tandem image (MonadExcept.throw failure : Failing σ ε α)
      (MonadExcept.throw failure) state post :=
  ⟨holds, .throw failure state⟩

theorem Tandem.bind {first copy : Failing σ ε α}
    {second other : α → Failing σ ε β} {post : Except ε β → σ → Prop}
    {middle : Except ε α → σ → Prop}
    (early : Tandem image first copy state middle)
    (late : ∀ value next, middle (.ok value) next →
      Tandem image (second value) (other value) next post)
    (fails : ∀ failure next, middle (.error failure) next →
      post (.error failure) next) :
    Tandem image (first >>= second) (copy >>= other) state post where
  leads := early.leads.bind (fun value next here => (late value next here).leads)
    fails
  mirrors := early.mirrors.bind early.leads fun value next here =>
    (late value next here).mirrors

theorem Tandem.rescue {body copy : Failing σ ε α}
    {handler other : ε → Failing σ ε α} {post : Except ε α → σ → Prop}
    {middle : Except ε α → σ → Prop}
    (early : Tandem image body copy state middle)
    (passes : ∀ value next, middle (.ok value) next → post (.ok value) next)
    (handled : ∀ failure next, middle (.error failure) next →
      Tandem image (handler failure) (other failure) next post) :
    Tandem image (tryCatch body handler) (tryCatch copy other) state post where
  leads := early.leads.rescue passes fun failure next here =>
    (handled failure next here).leads
  mirrors := early.mirrors.rescue early.leads fun failure next here =>
    (handled failure next here).mirrors

theorem Tandem.get {program other : σ → Failing σ ε α}
    {post : Except ε α → σ → Prop}
    (same : ∀ rest, other (image state rest) = other state)
    (follows : Tandem image (program state) (other state) state post) :
    Tandem image (MonadState.get >>= program) (MonadState.get >>= other)
      state post :=
  ⟨leads_get_bind.mpr follows.leads, .get same follows.mirrors⟩

theorem Tandem.ensuring {body copy : Failing σ ε α}
    {final : Failing σ ε Unit} {post middle : Except ε α → σ → Prop}
    (early : Tandem image body copy state middle)
    (reflects : Reflects image final)
    (ensues : ∀ result next, middle result next →
      final.Leads next (Ending (fun _ last => post result last)
        fun failure last => post (.error failure) last)) :
    Tandem image (Failing.ensuring body final) (Failing.ensuring copy final)
      state post where
  leads := by
    apply early.leads.ensuring
    intro result next here
    apply (ensues result next here).mono
    intro ended last there
    cases ended with
    | ok _ => exact there
    | error failure => exact there
  mirrors := by
    have anything : ∀ {β : Type} (program : Failing σ ε β) (state : σ),
        program.Leads state fun _ _ => True := fun _ _ => trivial
    apply Mirrors.bind
    · apply Mirrors.rescue
      · exact early.mirrors.bind early.leads fun value next _ => .pure _ next
      · exact anything _ _
      · exact fun failure next _ => .pure _ next
    · exact anything _ _
    · intro result next _
      apply (reflects next).bind (anything _ _)
      intro _ last _
      cases result with
      | ok value => exact .pure value last
      | error failure => exact .throw failure last

end Tandem

end Failing
