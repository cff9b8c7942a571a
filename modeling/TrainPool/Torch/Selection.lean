import TrainPool.Library.Cover
import TrainPool.Torch.Evictions

namespace TrainPool

/-! Which of the resident tensors go, and for what. -/

namespace TensorStore

open Cover Failing World

section Selection

variable {κ : Type} {settings : StoreSettings κ}

/-- Either the candidates are not enough together, or the loop stops at the
one that makes them enough. -/
theorem gather_cases {needed released : Int} (short : released < needed)
    (candidates : List ResidencyCandidate) :
    (gather needed released candidates =
        (candidates, released + total (·.size) candidates) ∧
      released + total (·.size) candidates < needed) ∨
    ∃ front last back, candidates = front ++ last :: back ∧
      gather needed released candidates =
        (front ++ [last], released + total (·.size) (front ++ [last])) ∧
      released + total (·.size) front < needed ∧
      needed ≤ released + total (·.size) (front ++ [last]) := by
  induction candidates generalizing released with
  | nil => exact .inl ⟨by simp [gather, total], by simpa [total] using short⟩
  | cons candidate rest ih =>
      have grown : ∀ others : List ResidencyCandidate,
          released + total (·.size) (candidate :: others) =
            released + candidate.size + total (·.size) others := by
        intro others
        simp only [total, List.map_cons, List.sum_cons]
        push_cast
        ring
      unfold gather
      by_cases enough : needed ≤ released + candidate.size
      · right
        refine ⟨[], candidate, rest, rfl, ?_, ?_, ?_⟩
        · simp [enough, total]
        · simpa [total] using short
        · simpa [total] using enough
      · simp only [if_neg enough]
        rcases ih (Int.not_le.mp enough) with
          ⟨same, below⟩ | ⟨front, last, back, split, same, below, above⟩
        · left
          rw [same, grown]
          exact ⟨rfl, below⟩
        · right
          refine ⟨candidate :: front, last, back, by rw [split]; rfl, ?_, ?_,
            ?_⟩
          · rw [same, List.cons_append, grown]
          · rw [grown]
            exact below
          · rw [List.cons_append, grown]
            exact above

variable [LinearOrder κ]

theorem selectEvictions_cases {needed : Int} (positive : 0 < needed)
    (candidates : List ResidencyCandidate) (currentStep : Int) :
    (total (·.size) candidates < needed ∧
      selectEvictions settings candidates needed currentStep = []) ∨
    (needed ≤ total (·.size) candidates ∧
      Minimal (settings.evictionKey · currentStep) (·.size) needed candidates
        (selectEvictions settings candidates needed currentStep)) := by
  let before := fun left right : ResidencyCandidate =>
    decide (settings.evictionKey right currentStep ≤
      settings.evictionKey left currentStep)
  have perm : (candidates.mergeSort before).Perm candidates :=
    List.mergeSort_perm _ _
  have descending : (candidates.mergeSort before).Pairwise
      fun left right => settings.evictionKey right currentStep ≤
        settings.evictionKey left currentStep := by
    have sorted : (candidates.mergeSort before).Pairwise (before · ·) := by
      apply List.pairwise_mergeSort
      · intro first second third early late
        simp only [before, decide_eq_true_eq] at early late ⊢
        exact late.trans early
      · intro left right
        simpa [before] using le_total _ _
    exact sorted.imp fun ordered => of_decide_eq_true ordered
  have bytes : total (·.size) (candidates.mergeSort before) =
      total (·.size) candidates := total_perm perm
  have unfolded : selectEvictions settings candidates needed currentStep =
      if needed ≤ (gather needed 0 (candidates.mergeSort before)).2 then
        (gather needed 0 (candidates.mergeSort before)).1
      else [] := rfl
  rw [unfolded]
  rcases gather_cases positive (candidates.mergeSort before) with
    ⟨same, below⟩ | ⟨front, last, back, split, same, below, above⟩
  · left
    rw [Int.zero_add, bytes] at below
    refine ⟨below, ?_⟩
    rw [same, Int.zero_add, bytes]
    exact if_neg (Int.not_le.mpr below)
  · right
    rw [Int.zero_add] at below above
    rw [split] at perm descending
    have minimal := Minimal.of_descending perm.symm descending below above
    refine ⟨?_, ?_⟩
    · have part : total (·.size) (front ++ [last]) ≤
          total (·.size) candidates := by
        rw [← total_perm perm, total_append, total_append]
        simp [total]
      omega
    · rw [same, Int.zero_add, if_pos above]
      exact minimal

end Selection

section Retention

variable {κ : Type} {settings : StoreSettings κ} {handle : Handle}

def Elsewhere (handle : Handle) (world next : World) : Prop :=
  ∀ other, other ≠ handle →
    next.store.handles other = world.store.handles other

theorem Elsewhere.trans {world next final : World}
    (early : Elsewhere handle world next)
    (late : Elsewhere handle next final) : Elsewhere handle world final :=
  fun other differ => (late other differ).trans (early other differ)

theorem Elsewhere.bind {α β : Type} {first : Storing α}
    {second : α → Storing β} (early : first.Respects (Elsewhere handle))
    (late : ∀ value, (second value).Respects (Elsewhere handle)) :
    (first >>= second).Respects (Elsewhere handle) :=
  Respects.bind Elsewhere.trans early late

theorem change_elsewhere (update : TensorHandle → TensorHandle) :
    (change handle update).Respects (Elsewhere handle) := by
  intro world
  refine leads_change.mpr ?_
  intro other differ
  simp [altered, differ]

theorem writeBacking_elsewhere (value : List UInt8) :
    (writeBacking settings value handle).Respects (Elsewhere handle) := by
  intro world
  refine (writePieces_writes _ _ world).mono ?_
  intro _ next writes other differ
  obtain ⟨blocks, handles⟩ := writes.handles
  rw [handles, Function.update_of_ne differ]

theorem spill_elsewhere (handle : Handle) :
    (spill settings handle).Respects (Elsewhere handle) := by
  intro world
  refine leads_entry_bind.mpr ?_
  cases (world.store.handles handle).resident with
  | none => exact leads_pure.mpr fun _ _ => rfl
  | some resident =>
      have moves : (do
          change handle ({ · with dirty := true })
          let blocks ← tryCatch (writeBacking settings resident handle)
            fun failure => do
              change handle ({ · with dirty := false })
              throw failure
          change handle fun entry => { entry with
            transferCost := transferCost blocks entry.size
            resident := none }
          addResident (-(← entry handle).size)
          change handle ({ · with dirty := false }) :
            Storing Unit).Respects (Elsewhere handle) := by
        refine Elsewhere.bind (change_elsewhere _) fun _ => ?_
        refine Elsewhere.bind ?_ fun blocks => ?_
        · refine Respects.rescue Elsewhere.trans (writeBacking_elsewhere _)
            fun failure => ?_
          exact Elsewhere.bind (change_elsewhere _) fun _ _ _ _ => rfl
        · refine Elsewhere.bind (change_elsewhere _) fun _ => ?_
          refine Elsewhere.bind (fun _ _ _ => rfl) fun entry => ?_
          refine Elsewhere.bind (fun _ _ _ => rfl) fun _ => ?_
          exact change_elsewhere _
      exact moves world

theorem spills_elsewhere (chosen : List ResidencyCandidate) (world : World) :
    (each (fun candidate => spill settings candidate.id) chosen).Leads world
      fun _ next => ∀ other, next.store.handles other ≠
          world.store.handles other →
        ∃ candidate ∈ chosen, candidate.id = other := by
  apply Leads.each (fun next : World => ∀ other,
    next.store.handles other ≠ world.store.handles other →
      ∃ candidate ∈ chosen, candidate.id = other)
  · intro other changed
    exact absurd rfl changed
  · intro candidate member next holds
    refine (spill_elsewhere candidate.id next).mono ?_
    intro _ final same other changed
    by_cases own : other = candidate.id
    · exact ⟨candidate, member, own.symm⟩
    · rw [same other own] at changed
      exact holds other changed

/-- What `effective_vram_capacity` returns. -/
def vramCapacity (settings : StoreSettings κ) (world : World) : Int :=
  if world.store.gpuDevice ∧ settings.gpuBudgetBytes ≠ 0 then
    min (settings.gpuBudgetBytes : Int) (world.store.residentBytes +
      safeAllocatableNow settings
        (world.surroundings.readings.headD ⟨0, 0, 0⟩))
  else
    0

theorem effectiveVramCapacity_spec (world : World) :
    (effectiveVramCapacity settings).Leads world fun result next =>
      result = .ok (vramCapacity settings world) ∧
        next.store = world.store := by
  unfold effectiveVramCapacity vramCapacity
  refine leads_get_bind.mpr ?_
  simp only
  split
  · exact ⟨rfl, rfl⟩
  · exact ⟨rfl, rfl⟩

def shortage (settings : StoreSettings κ) (world : World) (handle : Handle) :
    Int :=
  world.store.residentBytes + (world.store.handles handle).size -
    vramCapacity settings world

variable [LinearOrder κ]

def selection (settings : StoreSettings κ) (world : World) (handle : Handle) :
    List ResidencyCandidate :=
  selectEvictions settings (world.store.residentCandidates [])
    (shortage settings world handle) world.store.accessIndex

def keyOf (settings : StoreSettings κ) (store : TensorStore)
    (handle : Handle) : κ :=
  settings.evictionKey (store.candidate handle) store.accessIndex

/-- A tensor that may go for another: it is resident, and strictly cheaper to
remove. -/
structure YieldsTo (settings : StoreSettings κ) (store : TensorStore)
    (handle other : Handle) : Prop where
  resident : (store.handles other).resident.isSome
  cheaper : keyOf settings store handle < keyOf settings store other

/-- Some tensor of the selection is not strictly cheaper to remove than the
incoming one. -/
def Refused (settings : StoreSettings κ) (world : World) (handle : Handle) :
    Prop :=
  0 < shortage settings world handle ∧
    ∃ candidate ∈ selection settings world handle,
      ¬keyOf settings world.store handle <
        settings.evictionKey candidate world.store.accessIndex

structure MakesRoom (settings : StoreSettings κ) (handle : Handle)
    (world : World) (result : Except StoreFailure Bool) (next : World) :
    Prop where
  yields : ∀ other,
    next.store.handles other ≠ world.store.handles other →
      YieldsTo settings world.store handle other
  refused : Refused settings world handle →
    result = .ok false ∧ next.store = world.store

theorem candidate_of_resident {store : TensorStore} {excluded : List Handle}
    {candidate : ResidencyCandidate}
    (member : candidate ∈ store.residentCandidates excluded) :
    candidate = store.candidate candidate.id := by
  obtain ⟨handle, _, rfl⟩ := List.mem_map.mp member
  rfl

theorem makeRoom_spec (handle : Handle) (world : World) :
    (makeRoom settings handle).Leads world
      (MakesRoom settings handle world) := by
  have kept : ∀ (result : Except StoreFailure Bool) (next : World),
      next.store = world.store →
      (Refused settings world handle → result = .ok false) →
      MakesRoom settings handle world result next := by
    intro result next same refuses
    refine ⟨?_, fun refused => ⟨refuses refused, same⟩⟩
    intro other changed
    rw [same] at changed
    exact absurd rfl changed
  refine (effectiveVramCapacity_spec world).bind ?_ ?_
  · intro capacity next given
    obtain ⟨read, same⟩ := given
    cases read
    refine leads_get_bind.mpr ?_
    have lacks : world.store.residentBytes +
        ((world.store.handles handle).size : Int) -
          vramCapacity settings world = shortage settings world handle := rfl
    simp only [same, lacks]
    by_cases fits : max 0 (shortage settings world handle) = 0
    · rw [if_pos fits]
      apply leads_pure.mpr
      apply kept _ _ same
      intro refused
      have := refused.1
      omega
    · have needed : max 0 (shortage settings world handle) =
          shortage settings world handle := by omega
      have selected : selectEvictions settings
          (world.store.residentCandidates []) (shortage settings world handle)
            world.store.accessIndex = selection settings world handle := rfl
      rw [if_neg fits, needed]
      simp only [selected]
      split
      · exact leads_pure.mpr (kept _ _ same fun _ => rfl)
      · rename_i chosen
        obtain ⟨_, cheaper⟩ := not_or.mp chosen
        have cheap : ∀ candidate ∈ selection settings world handle,
            keyOf settings world.store handle <
              settings.evictionKey candidate world.store.accessIndex := by
          intro candidate member
          by_contra dear
          exact cheaper (List.any_eq_true.mpr
            ⟨candidate, member, decide_eq_true (not_lt.mp dear)⟩)
        have ended : ∀ (result : Except StoreFailure Bool) (final : World),
            (∀ other, final.store.handles other ≠ next.store.handles other →
              ∃ candidate ∈ selection settings world handle,
                candidate.id = other) →
            MakesRoom settings handle world result final := by
          intro result final spilled
          refine ⟨?_, ?_⟩
          · intro other changed
            rw [← same] at changed
            obtain ⟨candidate, member, rfl⟩ := spilled other changed
            have resident := selectEvictions_subset _ _ _ member
            have cheap := cheap candidate member
            rw [candidate_of_resident resident] at cheap
            exact ⟨(residentCandidates_spec resident).2, cheap⟩
          · intro refused
            obtain ⟨_, candidate, member, dear⟩ := refused
            exact absurd (cheap candidate member) dear
        refine (spills_elsewhere _ next).bind ?_ ?_
        · intro _ final spilled
          exact leads_pure.mpr (ended _ _ spilled)
        · intro failure final spilled
          exact ended _ _ spilled
  · intro failure next given
    cases given.1

/-- What an attempt to retain a tensor changes: the records of tensors that go
for it, and its own where it is retained. -/
structure Retains (settings : StoreSettings κ) (value : List UInt8)
    (handle : Handle) (world : World) (result : Except StoreFailure Bool)
    (next : World) : Prop where
  changes : ∀ other,
    next.store.handles other ≠ world.store.handles other →
      YieldsTo settings world.store handle other ∨
        (result = .ok true ∧ other = handle ∧
          next.store.handles other =
            { world.store.handles other with resident := some value })
  refused : Refused settings world handle →
    result = .ok false ∧ next.store = world.store

theorem MakesRoom.unretained {value : List UInt8} {world next final : World}
    {result ended : Except StoreFailure Bool}
    (room : MakesRoom settings handle world result next)
    (same : final.store = next.store)
    (refuses : result = .ok false → ended = .ok false) :
    Retains settings value handle world ended final := by
  refine ⟨?_, ?_⟩
  · intro other changed
    rw [same] at changed
    exact .inl (room.yields other changed)
  · intro refused
    obtain ⟨failed, kept⟩ := room.refused refused
    exact ⟨refuses failed, same.trans kept⟩

theorem MakesRoom.retained {value : List UInt8} {world next final : World}
    (room : MakesRoom settings handle world (.ok true) next)
    (handles : final.store.handles = Function.update next.store.handles handle
      { next.store.handles handle with resident := some value }) :
    Retains settings value handle world (.ok true) final := by
  have own : next.store.handles handle = world.store.handles handle := by
    by_contra changed
    exact lt_irrefl _ (room.yields handle changed).cheaper
  refine ⟨?_, ?_⟩
  · intro other changed
    by_cases same : other = handle
    · subst same
      refine .inr ⟨rfl, rfl, ?_⟩
      rw [handles, Function.update_self, own]
    · rw [handles, Function.update_of_ne same] at changed
      exact .inl (room.yields other changed)
  · intro refused
    cases (room.refused refused).1

theorem tryRetain_spec (value : List UInt8) (handle : Handle)
    (world : World) :
    (tryRetain settings value handle).Leads world
      (Retains settings value handle world) := by
  have idle : MakesRoom settings handle world (.ok false) world :=
    ⟨fun _ changed => absurd rfl changed, fun _ => ⟨rfl, rfl⟩⟩
  refine leads_get_bind.mpr ?_
  simp only
  split
  · exact leads_pure.mpr (idle.unretained rfl id)
  refine (makeRoom_spec handle world).bind ?_ ?_
  · intro room next made
    cases room with
    | false => exact leads_pure.mpr (made.unretained rfl id)
    | true =>
        have unretained : ∀ (ended : Except StoreFailure Bool)
            (final : World), final.store = next.store →
            Retains settings value handle world ended final :=
          fun _ _ same => made.unretained same (by simp)
        refine (reading_undisturbed next).bind ?_ ?_
        · intro snapshot ready quiet
          split
          · exact leads_pure.mpr (unretained _ _ quiet.1)
          refine (call_undisturbed ready).bind ?_ ?_
          · intro _ copied still
            have same := still.1.trans quiet.1
            refine (outOfMemory_undisturbed copied).bind ?_ ?_
            · intro exhausted last left
              have same := left.1.trans same
              split
              · exact leads_pure.mpr (unretained _ _ same)
              · refine leads_change_bind.mpr (leads_changeStore_bind.mpr
                  (leads_pure.mpr (made.retained ?_)))
                simp [altered, same]
            · intro failure last left
              exact unretained _ _ (left.1.trans same)
          · intro failure copied still
            exact unretained _ _ (still.1.trans quiet.1)
        · intro failure ready quiet
          exact unretained _ _ quiet.1
  · intro failure next made
    exact made.unretained rfl (by simp)

end Retention

section Evictions

/-- Evictions are minimal and never trade down: what is selected covers the
bytes that are needed, would not without its last member, and has the largest
keys; and a tensor goes for an incoming one only if it is strictly cheaper to
remove, or else nothing does. -/
theorem evictions_minimal {κ : Type} [LinearOrder κ]
    (settings : StoreSettings κ) :
    (∀ (candidates : List ResidencyCandidate) (needed currentStep : Int),
      0 < needed →
      (total (·.size) candidates < needed →
        selectEvictions settings candidates needed currentStep = []) ∧
      (needed ≤ total (·.size) candidates →
        Minimal (settings.evictionKey · currentStep) (·.size) needed
          candidates
          (selectEvictions settings candidates needed currentStep))) ∧
      ∀ (world : World) (value : List UInt8) (handle : Handle),
        (tryRetain settings value handle).Leads world
          (Retains settings value handle world) := by
  refine ⟨?_, fun world value handle => tryRetain_spec value handle world⟩
  intro candidates needed currentStep positive
  have cases := @selectEvictions_cases κ settings _ needed positive
    candidates currentStep
  rcases cases with ⟨below, same⟩ | ⟨above, minimal⟩
  · exact ⟨fun _ => same, fun above => absurd above (Int.not_le.mpr below)⟩
  · exact ⟨fun below => absurd above (Int.not_le.mpr below), fun _ => minimal⟩

def distanceSettings : StoreSettings Int where
  blockBytes := 64
  computeProvider := true
  gpuBudgetBytes := 100
  evictionKey candidate currentStep :=
    candidate.nextUse.elim 1000 (max 0 <| · - currentStep)
  positive := by decide

def nearAndFar : List ResidencyCandidate :=
  [⟨0, 30, some 11, 2, 1, 0⟩, ⟨1, 60, some 50, 1, 1, 0⟩]

def arrival (nextUse : Int) : World where
  store := {
    handles := fun handle =>
      [{ size := 30, resident := some (List.replicate 30 1)
         expectedNextUse := some (.index 11), remainingConsumers := 2 },
        { size := 60, resident := some (List.replicate 60 2)
          expectedNextUse := some (.index 50) },
        { size := 50, expectedNextUse := some (.index nextUse)
          dirty := true }].getD handle {}
    count := 3
    tensors := [0, 1, 2]
    residentBytes := 90
    accessIndex := 10
    gpuDevice := true }
  surroundings := { readings := List.replicate 2 ⟨33554432, 0, 0⟩ }

/-- The far and large tensor goes, not the one that is used next. -/
theorem evictions_minimal_farther :
    selectEvictions distanceSettings nearAndFar 91 10 = [] ∧
      Minimal (distanceSettings.evictionKey · 10) (·.size) 40 nearAndFar
        [⟨1, 60, some 50, 1, 1, 0⟩] ∧
      (tryRetain distanceSettings (List.replicate 50 7) 2).Leads (arrival 20)
        (Retains distanceSettings (List.replicate 50 7) 2 (arrival 20)) := by
  obtain ⟨selects, retains⟩ := evictions_minimal distanceSettings
  have farther : selectEvictions distanceSettings nearAndFar 40 10 =
      [⟨1, 60, some 50, 1, 1, 0⟩] := by
    simp [selectEvictions, distanceSettings, nearAndFar, gather,
      List.mergeSort, List.MergeSort.Internal.splitInTwo]
  refine ⟨(selects nearAndFar 91 10 (by decide)).1 (by decide), ?_,
    retains _ _ _⟩
  have minimal := (selects nearAndFar 40 10 (by decide)).2 (by decide)
  rwa [farther] at minimal

end Evictions

end TensorStore

end TrainPool
