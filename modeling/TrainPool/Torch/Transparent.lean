import TrainPool.Torch.Passes

namespace TrainPool

open HandleStore Failing

/-! Loading weights ahead of their use changes no result, as long as none are
converted while they are loaded. -/

namespace Sequential

open Session Training

variable {τ γ : Type} {session : Session τ γ}

/-! The gradients are dropped. -/

/-- Between two records whose gradients are dropped. -/
structure Steady (start session : Session τ γ) : Prop where
  coherent : session.Coherent
  contexts : session.contexts = start.contexts
  slot : session.slot = start.slot
  length : session.runtime.stages.length = start.runtime.stages.length
  failed : session.runtime.failed = start.runtime.failed
  pending : session.runtime.pending = start.runtime.pending
  backwardComplete : session.runtime.backwardComplete =
    start.runtime.backwardComplete

theorem Steady.follows {start next : Session τ γ}
    (steady : Steady start session) (follows : Follows session next) :
    Steady start next := by
  obtain ⟨coherent, contexts, slot, length, failed, pending, complete⟩ := steady
  refine ⟨coherent.follows follows, follows.contexts.trans contexts,
    follows.slot.trans slot, ?_, ?_, ?_, ?_⟩
  · rw [follows.runtime, length]
  · rw [follows.runtime, failed]
  · rw [follows.runtime, pending]
  · rw [follows.runtime, complete]

theorem Steady.between {start : Session τ γ} (steady : Steady start session)
    (between : Between start) : Between session where
  coherent := steady.coherent
  awaiting := by
    rw [steady.contexts, steady.failed, steady.pending,
      steady.backwardComplete, steady.slot]
    exact between.awaiting
  latest := by
    rw [steady.contexts]
    exact between.latest
  slot := by
    rw [steady.failed, steady.slot, steady.length, steady.backwardComplete]
    exact between.slot

end Sequential

namespace Training

open Session

variable {τ γ : Type}

/-! What leaves the places alone, whichever handles it frees. -/

theorem grows_bind {α β : Type} {first : Stepping τ γ α}
    {second : α → Stepping τ γ β} (early : first.Respects Grows)
    (late : ∀ value, (second value).Respects Grows) :
    (first >>= second).Respects Grows :=
  Respects.bind (fun first second => first.trans second) early late

theorem throw_grows {α : Type} (raised : Raised) :
    (throw raised : Stepping τ γ α).Respects Grows := Grows.refl

theorem call_grows : (call : Stepping τ γ Unit).Respects Grows :=
  fun session => (call_follows session).mono fun _ _ follows =>
    follows.toGrows

theorem restore_grows (handle : Handle) :
    (restore handle : Stepping τ γ τ).Respects Grows :=
  fun session => (restore_follows handle session).mono fun _ _ follows =>
    follows.toGrows

theorem offload_grows (value : τ) (session : Session τ γ) :
    (offload value).Leads session (Ending
      (fun handle next => session.store.next ≤ handle ∧
        handle < next.store.next ∧ Grows session next)
      fun _ next => Grows session next) := by
  apply (call_grows session).bind
  · intro _ next grows
    exact ⟨grows.grows, Nat.lt_succ_self _, grows.runtime, grows.contexts,
      grows.handed, grows.slot, grows.grows.trans (Nat.le_succ _)⟩
  · intro raised next grows
    exact grows

theorem free_grows (handle : Handle) :
    (free handle : Stepping τ γ Unit).Respects Grows := by
  intro session
  apply leads_get_bind.mpr
  split
  · have calls : (tryCatch call fun raised => do
        spoil handle
        throw raised : Stepping τ γ Unit).Respects Grows := by
      apply Respects.rescue (fun first second => first.trans second) call_grows
      intro raised
      apply grows_bind
      · intro session
        apply leads_modify.mpr
        refine ⟨rfl, rfl, rfl, rfl, ?_⟩
        split
        · exact le_rfl
        · exact le_rfl
      · exact fun _ => throw_grows raised
    apply (calls session).bind
    · intro _ next grows
      exact grows.trans ⟨rfl, rfl, rfl, rfl, le_rfl⟩
    · intro raised next grows
      exact grows
  · exact .refl session

theorem each_grows {α : Type} {body : α → Stepping τ γ Unit}
    (all : ∀ item, (body item).Respects Grows) (items : List α) :
    (each body items).Respects Grows :=
  Respects.each Grows.refl (fun first second => first.trans second)
    fun item _ => all item

/-- A handle that is in no place which a pass or `zero_grad` frees. -/
structure Unplaced (session : Session τ γ) (handle : Handle) : Prop where
  older : handle < session.store.next
  gradients : handle ∉ session.runtime.gradientHandles
  inputs : ∀ context ∈ session.contexts, handle ∉ context.inputs

theorem Unplaced.grows {session next : Session τ γ} {handle : Handle}
    (unplaced : Unplaced session handle) (grows : Grows session next) :
    Unplaced next handle where
  older := unplaced.older.trans_le grows.grows
  gradients := by
    rw [grows.runtime]
    exact unplaced.gradients
  inputs := by
    rw [grows.contexts]
    exact unplaced.inputs

structure Replacing (start session : Session τ γ) : Prop where
  placed : session.Placed
  contexts : session.contexts = start.contexts
  handed : session.handed = start.handed
  slot : session.slot = none
  length : session.runtime.stages.length = start.runtime.stages.length
  failed : session.runtime.failed = start.runtime.failed
  pending : session.runtime.pending = start.runtime.pending
  backwardComplete : session.runtime.backwardComplete =
    start.runtime.backwardComplete

variable {start session next : Session τ γ}

theorem Replacing.grows (replacing : Replacing start session)
    (grows : Grows session next) : Replacing start next := by
  obtain ⟨placed, contexts, handed, slot, length, failed, pending, complete⟩ :=
    replacing
  refine ⟨grows.placed placed, grows.contexts.trans contexts,
    grows.handed.trans handed, grows.slot.trans slot, ?_, ?_, ?_, ?_⟩
  · rw [grows.runtime, length]
  · rw [grows.runtime, failed]
  · rw [grows.runtime, pending]
  · rw [grows.runtime, complete]

theorem mem_setWeight {stage : ModuleStage} {name : ParameterName}
    {handle other : Handle}
    (member : other ∈ (stage.setWeight name handle).weights.map
      Weight.handle) :
    other = handle ∨ other ∈ stage.weights.map Weight.handle := by
  unfold ModuleStage.setWeight at member
  rw [List.map_map] at member
  obtain ⟨weight, listed, same⟩ := List.mem_map.mp member
  rw [Function.comp_apply] at same
  split at same
  · exact .inl same.symm
  · exact .inr (List.mem_map.mpr ⟨weight, listed, same⟩)

theorem Replacing.setWeight (replacing : Replacing start session) (index : Nat)
    (name : ParameterName) {handle : Handle}
    (unplaced : Unplaced session handle) :
    Replacing start { session with
      runtime := session.runtime.alter index
        (Record.setWeight name handle) } ∧
    ∀ other, Unplaced session other → Unplaced { session with
      runtime := session.runtime.alter index
        (Record.setWeight name handle) } other := by
  obtain ⟨⟨weights, gradients, inputs⟩, contexts, handed, slot, length, failed,
    pending, complete⟩ := replacing
  let altered := session.runtime.alter index (Record.setWeight name handle)
  have newWeights : ∀ other ∈ altered.weightHandles,
      other = handle ∨ other ∈ session.runtime.weightHandles := by
    intro other member
    obtain ⟨record, listed, member⟩ := List.mem_flatMap.mp member
    rcases Runtime.mem_alter _ listed with kept | ⟨old, kept, rfl⟩
    · exact .inr (List.mem_flatMap.mpr ⟨record, kept, member⟩)
    · rcases mem_setWeight member with same | member
      · exact .inl same
      · exact .inr (List.mem_flatMap.mpr ⟨old, kept, member⟩)
  have sameGradients : ∀ other ∈ altered.gradientHandles,
      other ∈ session.runtime.gradientHandles := by
    intro other member
    obtain ⟨record, listed, member⟩ := List.mem_flatMap.mp member
    rcases Runtime.mem_alter _ listed with kept | ⟨old, kept, rfl⟩
    · exact List.mem_flatMap.mpr ⟨record, kept, member⟩
    · exact List.mem_flatMap.mpr ⟨old, kept, member⟩
  refine ⟨⟨⟨?_, ?_, ?_⟩, contexts, handed, slot, ?_, failed, pending,
    complete⟩, ?_⟩
  · intro other member
    rcases newWeights other member with rfl | member
    · exact unplaced.older
    · exact weights other member
  · intro other member
    have known := sameGradients other member
    refine ⟨(gradients other known).1, fun weight => ?_⟩
    rcases newWeights other weight with rfl | weight
    · exact unplaced.gradients known
    · exact (gradients other known).2 weight
  · intro context listed other member
    refine ⟨(inputs context listed other member).1, fun weight => ?_⟩
    rcases newWeights other weight with rfl | weight
    · exact unplaced.inputs context listed member
    · exact (inputs context listed other member).2 weight
  · rw [← length]
    exact List.length_modify _ _ _
  · intro other unplaced
    exact ⟨unplaced.older,
      fun member => unplaced.gradients (sameGradients other member),
      unplaced.inputs⟩

theorem Replacing.alter (replacing : Replacing start session) (index : Nat)
    (change : Record γ → Record γ)
    (same : ∀ record, (change record).stage = record.stage)
    (subset : ∀ record : Record γ,
      ∀ handle ∈ (change record).gradients.entries.map Sigma.snd,
        handle ∈ record.gradients.entries.map Sigma.snd) :
    Replacing start { session with
      runtime := session.runtime.alter index change } := by
  obtain ⟨placed, contexts, handed, slot, length, failed, pending, complete⟩ :=
    replacing
  have stages := Runtime.stages_alter session.runtime index same
  refine ⟨placed.within ?_ ?_ ?_ le_rfl, contexts, handed, slot, ?_, failed,
    pending, complete⟩
  · intro handle member
    rwa [← Runtime.weightHandles_congr stages]
  · intro handle member
    obtain ⟨record, listed, member⟩ := List.mem_flatMap.mp member
    rcases Runtime.mem_alter _ listed with kept | ⟨old, kept, rfl⟩
    · exact List.mem_flatMap.mpr ⟨record, kept, member⟩
    · exact List.mem_flatMap.mpr ⟨old, kept, subset old handle member⟩
  · exact fun context listed handle member => ⟨context, listed, member⟩
  · rw [← length]
    exact List.length_modify _ _ _

/-! The step of the optimizer. -/

theorem publish_grows (replacements : List Handle) (value : τ)
    (session : Session τ γ) :
    (publish replacements value).Leads session (Ending
      (fun handle next => session.store.next ≤ handle ∧
        handle < next.store.next ∧ Grows session next)
      fun _ next => Grows session next) := by
  apply (offload_grows value session).rescue
  · exact fun _ _ given => given
  · intro raised next grows
    apply (each_grows free_grows replacements next).bind
    · exact fun _ final later => leads_throw.mpr (grows.trans later)
    · exact fun _ final later => grows.trans later

section

variable (optimizer : Optimizer τ γ)

end

end Training

namespace Sequential

open Session Training

variable {τ γ : Type} {session : Session τ γ}

theorem Replacing.coherent {start : Session τ γ}
    (replacing : Replacing start session)
    (truthful : ∀ handed ∈ start.handed, handed.given = handed.current) :
    session.Coherent where
  placed := replacing.placed
  timely load held := by
    have empty := replacing.slot
    unfold slot at empty
    rw [held] at empty
    cases empty
  truthful := by
    rw [replacing.handed]
    exact truthful

/-- Weights are converted only while no stage is loaded ahead. -/
def Careful (model : Sequential τ γ) :
    List (Operation τ) → Session τ γ → Prop
  | [], _ => True
  | operation :: rest, session =>
      (∀ dtype, operation = .convertDtype dtype → session.prefetch = none) ∧
        Careful model rest ((perform model true operation).run session).2

/-- What `build_sequential_runtime` leaves. -/
structure Prepared (session : Session τ γ) : Prop where
  prefetch : session.prefetch = none
  contexts : session.contexts = []
  handed : session.handed = []
  gradients : ∀ record ∈ session.runtime.stages, record.gradients = ∅
  weights : ∀ handle ∈ session.runtime.weightHandles,
    handle ∈ session.store.tensors

theorem Prepared.between (prepared : Prepared session) : Between session := by
  have empty : session.slot = none := by
    unfold slot
    rw [prepared.prefetch]
    rfl
  apply between_of_closed
  · rw [prepared.contexts]
    intro context member
    cases member
  · refine ⟨⟨?_, ?_, ?_⟩, ?_, ?_⟩
    · exact fun handle member =>
        session.store.fresh handle (prepared.weights handle member)
    · intro handle member
      obtain ⟨record, listed, member⟩ := List.mem_flatMap.mp member
      rw [prepared.gradients record listed] at member
      cases member
    · rw [prepared.contexts]
      intro context member
      cases member
    · rw [prepared.prefetch]
      intro load held
      cases held
    · rw [prepared.handed]
      intro handed member
      cases member
  · intro _ key held
    rw [empty] at held
    cases held

end Sequential

end TrainPool
