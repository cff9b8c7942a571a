import TrainPool.Library.Execution
import TrainPool.Memory.Block

namespace TrainPool

open Execution

/-! One call of `_write_backing`, together with the loop that renews the leases
of the blocks it has uploaded.  A block is the dictionary that a daemon has
answered; two of them are compared with all their fields. -/

/-- Where the call stands: about to upload the next of the pieces that are
left, about to append a block to the handle, or in its clean-up with the blocks
that are not freed yet. -/
inductive UploadStage where
  | upload (left : Nat)
  | append (block : MemoryBlockHandle) (left : Nat)
  | cleanUp (blocks : List MemoryBlockHandle)
  | returned
  | raised
  deriving DecidableEq

/-- `renewing` has the blocks that were freed when the renewal loop took the
lock, while it holds it. -/
structure WriteBacking where
  blocks : List MemoryBlockHandle
  newBlocks : List MemoryBlockHandle
  freed : List Uuid
  renewing : Option (List Uuid)
  stage : UploadStage
  deriving DecidableEq

/-- A step of the call: it uploads or appends a block, ends, fails, frees a
block (`done` says whether the block is gone), is interrupted while it frees,
or removes its blocks from the handle.  A step of the loop: it takes the lock,
stores the renewed blocks, or gives up. -/
inductive UploadEvent where
  | put (block : MemoryBlockHandle)
  | append
  | finish
  | fail
  | free (done : Bool)
  | interrupt
  | remove
  | lock
  | store (renewed : List MemoryBlockHandle)
  | giveUp
  deriving DecidableEq

namespace WriteBacking

def ids (blocks : List MemoryBlockHandle) : List Uuid :=
  blocks.map (·.id)

def start (blocks : List MemoryBlockHandle) (pieces : Nat) :
    WriteBacking where
  blocks := blocks
  newBlocks := []
  freed := []
  renewing := none
  stage := .upload pieces

def step (state : WriteBacking) : UploadEvent → Option WriteBacking
  | .put block =>
      match state.stage with
      | .upload (left + 1) =>
          -- The leader draws a fresh identifier for every block.
          if block.id ∈ ids state.blocks ∨ block.id ∈ ids state.newBlocks then
            none
          else
            some { state with
              newBlocks := state.newBlocks ++ [block]
              stage := .append block left }
      | _ => none
  | .append =>
      match state.stage, state.renewing with
      | .append block left, none =>
          some { state with
            blocks := state.blocks ++ [block]
            stage := .upload left }
      | _, _ => none
  | .finish =>
      match state.stage with
      | .upload 0 => some { state with stage := .returned }
      | _ => none
  | .fail =>
      match state.stage with
      | .upload _ | .append _ _ =>
          some { state with stage := .cleanUp state.newBlocks }
      | _ => none
  | .free done =>
      match state.stage with
      | .cleanUp (block :: rest) =>
          some { state with
            freed := if done then block.id :: state.freed else state.freed
            stage := .cleanUp rest }
      | _ => none
  | .interrupt =>
      match state.stage with
      | .cleanUp _ => some { state with stage := .raised }
      | _ => none
  | .remove =>
      match state.stage, state.renewing with
      | .cleanUp [], none =>
          some { state with
            blocks := state.blocks.filter (· ∉ state.newBlocks)
            stage := .raised }
      | _, _ => none
  | .lock =>
      match state.stage, state.renewing with
      | .returned, _ | .raised, _ => none
      | _, none => some { state with renewing := some state.freed }
      | _, some _ => none
  | .store renewed =>
      match state.stage, state.renewing with
      | .returned, _ | .raised, _ => none
      | _, some gone =>
          -- No daemon renews a block that was freed before.
          if ids renewed = ids state.blocks ∧
              ∀ id ∈ ids state.blocks, id ∉ gone then
            some { state with blocks := renewed, renewing := none }
          else
            none
      | _, none => none
  | .giveUp =>
      match state.stage, state.renewing with
      | .returned, _ | .raised, _ => none
      | _, some _ => some { state with renewing := none }
      | _, none => none

/-- The handle has the blocks that it had, and none of those that were
freed. -/
def Restored (blocks : List MemoryBlockHandle) (state : WriteBacking) :
    Prop :=
  ids state.blocks = ids blocks ∧ ∀ id ∈ ids state.blocks, id ∉ state.freed

instance (blocks : List MemoryBlockHandle) (state : WriteBacking) :
    Decidable (state.Restored blocks) :=
  inferInstanceAs (Decidable (_ ∧ _))

/-- The clean-up removes every uploaded block: each stands in the handle as it
was uploaded.  It is not interrupted while the handle has one. -/
def Removes (state : WriteBacking) : UploadEvent → Prop
  | .remove => ∀ block ∈ state.blocks,
      block.id ∈ ids state.newBlocks → block ∈ state.newBlocks
  | .interrupt => ∀ block ∈ state.blocks, block.id ∉ ids state.newBlocks
  | _ => True

instance (state : WriteBacking) :
    (event : UploadEvent) → Decidable (state.Removes event)
  | .remove => inferInstanceAs (Decidable (∀ block ∈ state.blocks,
      block.id ∈ ids state.newBlocks → block ∈ state.newBlocks))
  | .interrupt => inferInstanceAs (Decidable (∀ block ∈ state.blocks,
      block.id ∉ ids state.newBlocks))
  | .put _ | .append | .finish | .fail | .free _ | .lock | .store _
  | .giveUp => isTrue trivial

/-- What the call keeps true of the handle: its blocks are those it had and
uploaded ones, and only uploaded blocks are freed. -/
structure Extends (blocks : List MemoryBlockHandle) (state : WriteBacking) :
    Prop where
  fresh : ∀ id ∈ ids state.newBlocks, id ∉ ids blocks
  grown : ∃ appended, ids state.blocks = ids blocks ++ appended ∧
    ∀ id ∈ appended, id ∈ ids state.newBlocks
  freed : ∀ id ∈ state.freed, id ∈ ids state.newBlocks
  cleaned : ∀ left, state.stage = .cleanUp left →
    ∀ block ∈ left, block ∈ state.newBlocks
  appends : ∀ block left, state.stage = .append block left →
    block ∈ state.newBlocks

variable {blocks : List MemoryBlockHandle} {state next : WriteBacking}
  {event : UploadEvent}

theorem mem_ids {block : MemoryBlockHandle}
    {listed : List MemoryBlockHandle} (member : block ∈ listed) :
    block.id ∈ ids listed :=
  List.mem_map_of_mem member

@[simp] theorem ids_append (front back : List MemoryBlockHandle) :
    ids (front ++ back) = ids front ++ ids back :=
  List.map_append

theorem start_extends (blocks : List MemoryBlockHandle) (pieces : Nat) :
    (start blocks pieces).Extends blocks where
  fresh := by simp [start, ids]
  grown := ⟨[], by simp [start]⟩
  freed := by simp [start]
  cleaned := by simp [start]
  appends := by simp [start]

theorem filter_ids
    (removes : ∀ block ∈ state.blocks,
      block.id ∈ ids state.newBlocks → block ∈ state.newBlocks) :
    ids (state.blocks.filter (· ∉ state.newBlocks)) =
      (ids state.blocks).filter (· ∉ ids state.newBlocks) := by
  unfold ids at removes ⊢
  rw [List.filter_map]
  congr 1
  apply List.filter_congr
  intro block member
  simp only [Function.comp_apply, decide_eq_decide]
  constructor
  · intro missing new
    exact missing (removes block member new)
  · intro missing new
    exact missing (List.mem_map_of_mem new)

theorem step_extends (grows : state.Extends blocks)
    (stepped : state.step event = some next) (going : next.stage ≠ .raised) :
    next.Extends blocks := by
  obtain ⟨fresh, ⟨appended, grown, uploaded⟩, freed, cleaned, appends⟩ :=
    grows
  cases event with
  | put block =>
      simp only [step] at stepped
      split at stepped
      · rename_i left stage
        split at stepped <;> cases stepped
        rename_i new
        obtain ⟨other, _⟩ := not_or.mp new
        constructor
        · intro id member
          rcases List.mem_append.mp (by simpa using member) with old | added
          · exact fresh id old
          · simp only [ids, List.map_cons, List.map_nil,
              List.mem_singleton] at added
            subst added
            intro own
            apply other
            rw [grown]
            exact List.mem_append_left _ own
        · exact ⟨appended, grown, fun id member => by
            simp [uploaded id member]⟩
        · intro id member
          simp [freed id member]
        · intro left same
          cases same
        · intro block' left' same
          cases same
          simp
      · cases stepped
  | append =>
      simp only [step] at stepped
      split at stepped
      · rename_i block left stage _
        cases stepped
        refine ⟨fresh, ⟨appended ++ [block.id], ?_, ?_⟩, freed, ?_, ?_⟩
        · rw [ids_append, grown, List.append_assoc]
          rfl
        · intro id member
          rcases List.mem_append.mp member with old | added
          · exact uploaded id old
          · obtain rfl := List.mem_singleton.mp added
            exact mem_ids (appends block left stage)
        · intro left same
          cases same
        · intro block left same
          cases same
      · cases stepped
  | finish =>
      simp only [step] at stepped
      split at stepped <;> cases stepped
      exact ⟨fresh, ⟨appended, grown, uploaded⟩, freed,
        by intros; contradiction, by intros; contradiction⟩
  | fail =>
      simp only [step] at stepped
      split at stepped <;> cases stepped
      all_goals
        refine ⟨fresh, ⟨appended, grown, uploaded⟩, freed, ?_,
          by intros; contradiction⟩
        intro left same
        cases same
        exact fun _ member => member
  | free done =>
      simp only [step] at stepped
      split at stepped
      · rename_i block rest stage
        cases stepped
        have listed := cleaned _ stage
        refine ⟨fresh, ⟨appended, grown, uploaded⟩, ?_, ?_,
          by intros; contradiction⟩
        · intro id member
          simp only at member
          split at member
          · rcases List.mem_cons.mp member with rfl | member
            · exact mem_ids (listed block List.mem_cons_self)
            · exact freed id member
          · exact freed id member
        · intro left same
          cases same
          exact fun other member =>
            listed other (List.mem_cons_of_mem _ member)
      · cases stepped
  | interrupt =>
      simp only [step] at stepped
      split at stepped <;> cases stepped
      exact absurd rfl going
  | remove =>
      simp only [step] at stepped
      split at stepped <;> cases stepped
      exact absurd rfl going
  | lock =>
      simp only [step] at stepped
      split at stepped <;> cases stepped
      exact ⟨fresh, ⟨appended, grown, uploaded⟩, freed, cleaned, appends⟩
  | store renewed =>
      simp only [step] at stepped
      split at stepped
      · cases stepped
      · cases stepped
      · split at stepped <;> cases stepped
        rename_i same
        exact ⟨fresh, ⟨appended, same.1.trans grown, uploaded⟩, freed,
          cleaned, appends⟩
      · cases stepped
  | giveUp =>
      simp only [step] at stepped
      split at stepped <;> cases stepped
      exact ⟨fresh, ⟨appended, grown, uploaded⟩, freed, cleaned, appends⟩

theorem raises (going : state.stage ≠ .raised)
    (stepped : state.step event = some next) (raised : next.stage = .raised) :
    event = .interrupt ∨ event = .remove := by
  cases event with
  | interrupt => exact .inl rfl
  | remove => exact .inr rfl
  | put block =>
      simp only [step] at stepped
      split at stepped
      · split at stepped <;> cases stepped
        cases raised
      · cases stepped
  | append | finish | fail | free done =>
      simp only [step] at stepped
      split at stepped <;> cases stepped
      all_goals cases raised
  | lock | giveUp =>
      simp only [step] at stepped
      split at stepped <;> cases stepped
      exact absurd raised going
  | store renewed =>
      simp only [step] at stepped
      split at stepped
      · cases stepped
      · cases stepped
      · split at stepped <;> cases stepped
        exact absurd raised going
      · cases stepped

theorem removes_of_going (stepped : state.step event = some next)
    (going : next.stage ≠ .raised) : state.Removes event := by
  cases event with
  | interrupt | remove =>
      simp only [step] at stepped
      split at stepped <;> cases stepped
      exact absurd rfl going
  | _ => trivial

theorem raised_stuck (raised : state.stage = .raised) :
    state.step event = none := by
  cases event <;> simp [step, raised]

theorem raise_restored_iff (grows : state.Extends blocks)
    (going : state.stage ≠ .raised) (stepped : state.step event = some next)
    (raised : next.stage = .raised) :
    state.Removes event ↔ next.Restored blocks := by
  obtain ⟨fresh, ⟨appended, grown, uploaded⟩, freed, _, _⟩ := grows
  -- Blocks of the start are never freed.
  have kept : ∀ other, ids other = ids blocks →
      ∀ id ∈ ids other, id ∉ state.freed := by
    intro other same id member gone
    rw [same] at member
    exact fresh id (freed id gone) member
  rcases raises going stepped raised with rfl | rfl
  · simp only [step] at stepped
    split at stepped <;> cases stepped
    constructor
    · intro removes
      have clean : appended = [] := by
        rw [List.eq_nil_iff_forall_not_mem]
        intro id member
        have stored : id ∈ ids state.blocks := by
          rw [grown]
          exact List.mem_append_right _ member
        obtain ⟨block, listed, rfl⟩ := List.mem_map.mp stored
        exact removes block listed (uploaded _ member)
      have same : ids state.blocks = ids blocks := by
        rw [grown, clean, List.append_nil]
      exact ⟨same, kept _ same⟩
    · intro restored block member new
      apply fresh _ new
      rw [← restored.1]
      exact mem_ids member
  · simp only [step] at stepped
    split at stepped <;> cases stepped
    constructor
    · intro removes
      have same : ids (state.blocks.filter (· ∉ state.newBlocks)) =
          ids blocks := by
        rw [filter_ids removes, grown, List.filter_append,
          List.filter_eq_self.mpr, List.filter_eq_nil_iff.mpr,
          List.append_nil]
        · intro id member
          simpa using uploaded id member
        · intro id member
          simp only [decide_eq_true_eq]
          exact fun new => fresh id new member
      exact ⟨same, kept _ same⟩
    · intro restored block member new
      by_contra missing
      have left : block ∈ state.blocks.filter (· ∉ state.newBlocks) := by
        simp [member, missing]
      apply fresh _ new
      rw [← restored.1]
      exact mem_ids left

theorem run_restored_iff {events : List UploadEvent}
    (grows : state.Extends blocks) (going : state.stage ≠ .raised)
    (ran : run step state events = some next)
    (raised : next.stage = .raised) :
    Along step Removes state events ↔ next.Restored blocks := by
  induction events generalizing state with
  | nil =>
      cases ran
      exact absurd raised going
  | cons event rest ih =>
      obtain ⟨middle, stepped, ran⟩ := run_cons.mp ran
      by_cases last : middle.stage = .raised
      · cases rest with
        | nil =>
            cases ran
            rw [← raise_restored_iff grows going stepped last]
            constructor
            · intro along
              exact along.1
            · intro removes
              exact ⟨removes, fun _ _ => trivial⟩
        | cons event rest =>
            obtain ⟨_, impossible, _⟩ := run_cons.mp ran
            rw [raised_stuck last] at impossible
            cases impossible
      · rw [← ih (step_extends grows stepped last) last ran]
        constructor
        · intro along
          exact along.2 middle stepped
        · intro along
          refine ⟨removes_of_going stepped last, ?_⟩
          intro other same
          cases stepped.symm.trans same
          exact along

/-- A call of `_write_backing` that raises leaves the blocks of its handle as
they were, and none that it has freed, if and only if its clean-up finds every
uploaded block as it was uploaded and is not interrupted. -/
theorem failed_upload_restores_iff (blocks : List MemoryBlockHandle)
    (pieces : Nat) {events : List UploadEvent} {final : WriteBacking}
    (ran : run step (start blocks pieces) events = some final)
    (raised : final.stage = .raised) :
    Along step Removes (start blocks pieces) events ↔
      final.Restored blocks := by
  apply run_restored_iff (start_extends blocks pieces) _ ran raised
  intro same
  cases same

/-- A block that an upload has committed, and the same with another lease. -/
def uploaded (id lease : Nat) : MemoryBlockHandle :=
  { abcReady with id := id, leaseExpiresMs := lease }

/-- The second of two uploads fails.  Meanwhile the lease of the first block is
renewed. -/
def renewedUpload : List UploadEvent :=
  [.put (uploaded 8 300), .append, .lock, .store [uploaded 8 400], .fail,
    .free true, .remove]

theorem renewed_block_stays :
    ∃ final, run step (start [] 2) renewedUpload = some final ∧
      final.stage = .raised ∧ final.blocks = [uploaded 8 400] ∧
      final.freed = [8] ∧ ¬final.Restored [] :=
  ⟨_, rfl, rfl, rfl, rfl, by decide⟩

def earlyRenewal : List UploadEvent :=
  [.put (uploaded 8 300), .lock, .store [uploaded 7 400], .append, .fail,
    .free true, .remove]

theorem failed_upload_restores_early :
    ∃ final, run step (start [uploaded 7 300] 2) earlyRenewal = some final ∧
      final.blocks = [uploaded 7 400] ∧
      final.Restored [uploaded 7 300] :=
  ⟨_, rfl, rfl, (@failed_upload_restores_iff [uploaded 7 300] 2 earlyRenewal _
    rfl rfl).mp (by decide)⟩

end WriteBacking

end TrainPool
