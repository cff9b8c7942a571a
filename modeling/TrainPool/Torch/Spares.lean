import TrainPool.Torch.Transparent

namespace TrainPool

open HandleStore Failing Training

/-! What the calls of the store leave alone, whichever of them raise. -/

variable {τ γ : Type}

namespace Session

variable {session next final : Session τ γ} {kept : Handle → Prop}

/-- The tensors of some handles stay, and only the store changes. -/
structure Spares (kept : Handle → Prop) (session next : Session τ γ) : Prop
    extends Grows session next where
  spares : ∀ handle, kept handle → handle < session.store.next →
    next.store.restore handle = session.store.restore handle

theorem Spares.refl (session : Session τ γ) : Spares kept session session :=
  ⟨.refl session, fun _ _ _ => rfl⟩

theorem Spares.trans (early : Spares kept session next)
    (late : Spares kept next final) : Spares kept session final where
  toGrows := early.toGrows.trans late.toGrows
  spares handle known older :=
    (late.spares handle known (older.trans_le early.grows)).trans
      (early.spares handle known older)

theorem Spares.mono {other : Handle → Prop}
    (weaker : ∀ handle, other handle → kept handle)
    (spares : Spares kept session next) : Spares other session next :=
  ⟨spares.toGrows, fun handle known => spares.spares handle (weaker _ known)⟩

theorem Spares.of_idle (grows : Grows session next)
    (same : next.store = session.store) : Spares kept session next :=
  ⟨grows, fun handle _ _ => by rw [same]⟩

end Session

namespace Training

open Session

variable {session : Session τ γ} {kept : Handle → Prop}

theorem spares_bind {α β : Type} {first : Stepping τ γ α}
    {second : α → Stepping τ γ β} (early : first.Respects (Spares kept))
    (late : ∀ value, (second value).Respects (Spares kept)) :
    (first >>= second).Respects (Spares kept) :=
  Respects.bind (fun first second => first.trans second) early late

theorem pure_spares {α : Type} (value : α) :
    (pure value : Stepping τ γ α).Respects (Spares kept) := Spares.refl

theorem throw_spares {α : Type} (raised : Raised) :
    (throw raised : Stepping τ γ α).Respects (Spares kept) := Spares.refl

theorem each_spares {α : Type} {body : α → Stepping τ γ Unit} {items : List α}
    (all : ∀ item ∈ items, (body item).Respects (Spares kept)) :
    (each body items).Respects (Spares kept) :=
  Respects.each Spares.refl (fun first second => first.trans second) all

theorem collect_spares {α β : Type} {body : α → Stepping τ γ β}
    (all : ∀ item, (body item).Respects (Spares kept)) (items : List α) :
    (collect body items).Respects (Spares kept) :=
  Respects.collect Spares.refl (fun first second => first.trans second)
    fun item _ => all item

theorem call_spares : (call : Stepping τ γ Unit).Respects (Spares kept) := by
  intro session
  apply ((call_spec session).and (call_grows session)).mono
  intro result next given
  exact .of_idle given.2 given.1.1.store

theorem restore_spares (handle : Handle) :
    (restore handle : Stepping τ γ τ).Respects (Spares kept) :=
  spares_bind call_spares fun _ session => .refl session

/-- A tensor is found under the handle that it gets. -/
structure Offloaded (kept : Handle → Prop) (value : τ)
    (session : Session τ γ) (handle : Handle) (next : Session τ γ) : Prop
    extends Spares kept session next where
  newer : session.store.next ≤ handle
  older : handle < next.store.next
  found : next.store.restore handle = some value

theorem offload_spares (value : τ) (session : Session τ γ) :
    (offload value).Leads session (Ending
      (fun handle next => Offloaded kept value session handle next)
      fun _ next => Spares kept session next) := by
  apply (call_spares session).bind
  · intro _ next spares
    apply leads_get_bind.mpr
    apply leads_set_bind.mpr
    refine leads_pure.mpr ⟨⟨⟨spares.runtime, spares.contexts, spares.handed,
      spares.slot, spares.grows.trans (Nat.le_succ _)⟩, ?_⟩, spares.grows,
      Nat.lt_succ_self _, ?_⟩
    · intro handle known older
      rw [← spares.spares handle known older]
      change (next.store.offload value).2.restore handle = _
      rw [restore_offload, if_neg (older.trans_le spares.grows).ne]
    · change (next.store.offload value).2.restore next.store.next = _
      rw [restore_offload, if_pos rfl]
  · exact fun _ _ spares => spares

theorem free_spares {handle : Handle} (other : ¬kept handle) :
    (free handle : Stepping τ γ Unit).Respects (Spares kept) := by
  intro session
  apply leads_get_bind.mpr
  split
  · have calls : (tryCatch call fun raised => do
        spoil handle
        throw raised : Stepping τ γ Unit).Respects (Spares kept) := by
      apply Respects.rescue (fun first second => first.trans second) call_spares
      intro raised
      apply spares_bind
      · intro session
        apply leads_modify.mpr
        refine ⟨⟨rfl, rfl, rfl, rfl, ?_⟩, ?_⟩
        · split
          · exact le_rfl
          · exact le_rfl
        · intro one known _
          dsimp only
          split
          · refine AList.lookup_insert_ne ?_
            rintro rfl
            exact other known
          · rfl
      · exact fun _ => throw_spares raised
    apply (calls session).bind
    · intro _ next spares
      refine spares.trans ⟨⟨rfl, rfl, rfl, rfl, le_rfl⟩, ?_⟩
      intro one known _
      change (next.store.free handle).restore one = _
      rw [restore_free, if_neg]
      rintro rfl
      exact other known
    · exact fun _ _ spares => spares
  · exact .refl session

theorem suppress_spares {body : Stepping τ γ Unit}
    (respects : body.Respects (Spares kept)) :
    (suppress body).Respects (Spares kept) := by
  apply Respects.rescue (fun first second => first.trans second) respects
  intro raised
  split
  · exact throw_spares raised
  · exact pure_spares ()

theorem new_not_kept {handle : Handle} {limit : Handle}
    (below : ∀ handle, kept handle → handle < limit) (newer : limit ≤ handle) :
    ¬kept handle :=
  fun known => absurd (below handle known) (Nat.not_lt.mpr newer)

theorem publish_spares {replacements : List Handle}
    (others : ∀ handle ∈ replacements, ¬kept handle) (value : τ)
    (session : Session τ γ) :
    (publish replacements value).Leads session (Ending
      (fun handle next => Offloaded kept value session handle next)
      fun _ next => Spares kept session next) := by
  apply (offload_spares value session).rescue
  · exact fun _ _ given => given
  · intro raised next spares
    apply (each_spares (fun handle member => free_spares (others handle member))
      next).bind
    · exact fun _ final later => leads_throw.mpr (spares.trans later)
    · exact fun _ final later => spares.trans later

end Training

end TrainPool
