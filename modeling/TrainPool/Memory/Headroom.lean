import TrainPool.Memory.Accounting

namespace TrainPool

open Execution Gauge

/-! The headroom that allocations leave for relays.  AllocateLocal tests it
before it reserves, and the reservation itself looks at the budget alone. -/

namespace Word

def saturatingAdd (left right : UInt64) : UInt64 :=
  if left.toNat + right.toNat < 2 ^ 64 then left + right else .ofNat (2 ^ 64 - 1)

def saturatingSub (left right : UInt64) : UInt64 :=
  if right ≤ left then left - right else 0

theorem toNat_saturatingAdd {left right : UInt64}
    (fits : left.toNat + right.toNat < 2 ^ 64) :
    (saturatingAdd left right).toNat = left.toNat + right.toNat := by
  unfold saturatingAdd
  rw [if_pos fits, UInt64.toNat_add, Nat.mod_eq_of_lt fits]

theorem toNat_saturatingAdd_overflow {left right : UInt64}
    (overflows : ¬left.toNat + right.toNat < 2 ^ 64) :
    (saturatingAdd left right).toNat = 2 ^ 64 - 1 := by
  unfold saturatingAdd
  rw [if_neg overflows]
  rfl

theorem toNat_saturatingSub (left right : UInt64) :
    (saturatingSub left right).toNat = left.toNat - right.toNat := by
  unfold saturatingSub
  split
  · rename_i le
    exact UInt64.toNat_sub_of_le _ _ le
  · rename_i more
    have := UInt64.le_iff_toNat_le.not.mp more
    simp
    omega

end Word

def relayHeadroom : UInt64 := 262144

def leavesHeadroom (size budget used : UInt64) : Bool :=
  Word.saturatingAdd size relayHeadroom ≤ Word.saturatingSub budget used

/-- Where an AllocateLocal stands: before it loads the budget, before it loads
what is used, or before `LocalRam::allocate` locks the map of blocks. -/
inductive AllocateLocal where
  | loadBudget (job : Uuid) (size : UInt64)
  | loadUsed (job : Uuid) (size budget : UInt64)
  | allocate (job : Uuid) (size : UInt64)
  deriving DecidableEq, Repr

/-- The accounting of a daemon with the allocations in progress. -/
structure Allocator where
  accounting : Accounting
  requests : List AllocateLocal := []
  deriving DecidableEq

inductive AllocatorEvent where
  | allocateLocal (job : Uuid) (size : UInt64)
  | advance (index : Nat)
  | refuse (index : Nat)
  | accounting (event : AccountingEvent)
  deriving DecidableEq

namespace ReserveCall

def awaits : ReserveCall → Option Nat
  | .load bytes (some _) | .check bytes (some _) _
  | .exchange bytes (some _) _ _ => some bytes.toNat
  | _ => none

def locksBlocks : ReserveCall → Bool
  | .load _ (some _) | .check _ (some _) _ | .exchange _ (some _) _ _
  | .peak _ (some _) _ | .entry _ _ | .count _ _ | .jobPeak _ _ _ => true
  | _ => false

end ReserveCall

def AllocateLocal.awaits : AllocateLocal → Option Nat
  | .allocate _ size => some size.toNat
  | _ => none

/-- The budget that a request has loaded is still in force, and its size does
not saturate the test. -/
def AllocateLocal.Timely (inForce : UInt64) : AllocateLocal → Prop
  | .loadUsed _ size budget => budget ≤ inForce ∧
      (size.toNat + relayHeadroom.toNat < 2 ^ 64 ∨
        budget.toNat < 2 ^ 64 - 1)
  | _ => True

instance (inForce : UInt64) :
    (request : AllocateLocal) → Decidable (request.Timely inForce)
  | .loadUsed _ _ _ => inferInstanceAs (Decidable (_ ∧ (_ ∨ _)))
  | .loadBudget _ _ | .allocate _ _ => isTrue trivial

def ReserveCall.Leaves (counters : RamAccounting) (waiting : List Nat) :
    ReserveCall → Prop
  | .exchange bytes _ used _ => counters.owned = used →
      ∀ size ∈ waiting, counters.owned.toNat + bytes.toNat + size +
        relayHeadroom.toNat ≤ counters.budget.toNat
  | _ => True

instance (counters : RamAccounting) (waiting : List Nat) :
    (call : ReserveCall) → Decidable (call.Leaves counters waiting)
  | .exchange _ _ _ _ => inferInstanceAs (Decidable (_ → _))
  | .load _ _ | .check _ _ _ | .peak _ _ _ | .entry _ _ | .count _ _
  | .jobPeak _ _ _ | .releaseJob _ _ | .release _ => isTrue trivial

namespace Allocator

/-- One step: a request arrives, a request goes on, `LocalRam::allocate`
refuses a block, or somebody else uses the accounting.  Only AllocateLocal
reserves payloads. -/
def step (state : Allocator) : AllocatorEvent → Option Allocator
  | .allocateLocal job size =>
      some { state with
        requests := state.requests ++ [.loadBudget job size] }
  | .advance index => do
      match ← state.requests[index]? with
      | .loadBudget job size =>
          let budget := state.accounting.counters.budget
          some { state with
            requests := state.requests.set index
              (.loadUsed job size budget) }
      | .loadUsed job size budget =>
          if leavesHeadroom size budget state.accounting.counters.owned then
            some { state with
              requests := state.requests.set index (.allocate job size) }
          else
            some { state with requests := state.requests.eraseIdx index }
      | .allocate job size =>
          if state.accounting.calls.any ReserveCall.locksBlocks then
            none
          else do
            let accounting ←
              state.accounting.step (.reservePayload job size)
            some ⟨accounting, state.requests.eraseIdx index⟩
  | .refuse index => do
      match ← state.requests[index]? with
      | .allocate _ _ =>
          some { state with requests := state.requests.eraseIdx index }
      | _ => none
  | .accounting (.reservePayload _ _) => none
  | .accounting event => do
      let accounting ← state.accounting.step event
      some { state with accounting := accounting }

/-- The sizes whose test has passed and that are not reserved yet. -/
def awaiting (state : Allocator) : List Nat :=
  state.requests.filterMap AllocateLocal.awaits ++
    state.accounting.calls.filterMap ReserveCall.awaits

/-- The payload reservation of an AllocateLocal succeeds. -/
def Reserves (state : Allocator) (event : AllocatorEvent) : Prop :=
  ∃ index bytes job budget, event = .accounting (.advance index false) ∧
    state.accounting.calls[index]? = some
      (.exchange bytes (some job) state.accounting.counters.owned budget)

/-- A step takes no memory that an allocation was promised in its test: what
the test has loaded still holds, and where a reservation succeeds or the budget
is set, every other allocation that waits still fits with its headroom. -/
def Spares (state : Allocator) : AllocatorEvent → Prop
  | .advance index => ∀ request ∈ state.requests[index]?,
      request.Timely state.accounting.counters.budget
  | .accounting (.setBudget budget) => ∀ size ∈ state.awaiting,
      state.accounting.owned + size + relayHeadroom.toNat ≤ budget.toNat
  | .accounting (.advance index false) =>
      ∀ call ∈ state.accounting.calls[index]?,
        call.Leaves state.accounting.counters
          (state.requests.filterMap AllocateLocal.awaits ++
            (state.accounting.calls.eraseIdx index).filterMap
              ReserveCall.awaits)
  | _ => True

instance (state : Allocator) :
    (event : AllocatorEvent) → Decidable (state.Spares event)
  | .advance index => inferInstanceAs (Decidable
      (∀ request ∈ state.requests[index]?,
        request.Timely state.accounting.counters.budget))
  | .accounting (.setBudget _) => inferInstanceAs (Decidable
      (∀ size ∈ state.awaiting, _))
  | .accounting (.advance index false) => inferInstanceAs (Decidable
      (∀ call ∈ state.accounting.calls[index]?, call.Leaves _ _))
  | .allocateLocal _ _ | .refuse _ | .accounting (.reserve _)
  | .accounting (.reservePayload _ _) | .accounting (.drop _)
  | .accounting (.advance _ true) => isTrue trivial

def Covered (state : Allocator) : Prop :=
  ∀ size ∈ state.awaiting,
    state.accounting.owned + size + relayHeadroom.toNat ≤
      state.accounting.counters.budget.toNat

end Allocator

namespace RamAccounting

variable {spurious : Bool} {counters next : RamAccounting}
  {call : ReserveCall} {calls : List ReserveCall} {live : List Reservation}

/-- An operation keeps the budget.  It raises `owned` only where a reservation
succeeds, which then waits no longer. -/
theorem proceed_awaits (checked : call.Checked)
    (counted : call.held ≤ counters.owned.toNat)
    (proceeds : counters.proceed spurious call = (next, calls, live)) :
    next.budget = counters.budget ∧
      ((next.owned.toNat ≤ counters.owned.toNat ∧
          ∀ size ∈ calls.filterMap ReserveCall.awaits,
            call.awaits = some size) ∨
        ∃ bytes job budget,
          call = .exchange bytes job counters.owned budget ∧
            spurious = false ∧
            next.owned.toNat = counters.owned.toNat + bytes.toNat ∧
            calls.filterMap ReserveCall.awaits = []) := by
  cases call with
  | load bytes job =>
      cases proceeds
      refine ⟨rfl, .inl ⟨Nat.le_refl _, ?_⟩⟩
      cases job <;> simp [ReserveCall.awaits]
  | check bytes job used =>
      simp only [proceed] at proceeds
      split at proceeds <;> cases proceeds
      · refine ⟨rfl, .inl ⟨Nat.le_refl _, ?_⟩⟩
        cases job <;> simp [ReserveCall.awaits]
      · exact ⟨rfl, .inl ⟨Nat.le_refl _, by simp⟩⟩
  | exchange bytes job used budget =>
      simp only [proceed] at proceeds
      split at proceeds <;> cases proceeds
      · rename_i free
        obtain ⟨rfl, strong⟩ := free
        refine ⟨rfl, .inr ⟨bytes, job, budget, rfl, strong, ?_, rfl⟩⟩
        simp only [UInt64.toNat_add, Nat.mod_eq_of_lt checked.1]
      · refine ⟨rfl, .inl ⟨Nat.le_refl _, ?_⟩⟩
        cases job <;> simp [ReserveCall.awaits]
  | peak bytes job current =>
      cases job <;> cases proceeds <;>
        exact ⟨rfl, .inl ⟨Nat.le_refl _, by simp [ReserveCall.awaits]⟩⟩
  | entry bytes job | count bytes job | releaseJob bytes job
  | jobPeak bytes job current =>
      cases proceeds
      exact ⟨rfl, .inl ⟨Nat.le_refl _, by simp [ReserveCall.awaits]⟩⟩
  | release bytes =>
      cases proceeds
      refine ⟨rfl, .inl ⟨?_, by simp⟩⟩
      simp only [ReserveCall.held] at counted
      simp only [UInt64.toNat_sub_of_le _ _
        (UInt64.le_iff_toNat_le.mpr counted)]
      exact Nat.sub_le _ _

end RamAccounting

namespace Allocator

variable {state next : Allocator} {event : AllocatorEvent}

theorem mem_awaiting {size : Nat} :
    size ∈ state.awaiting ↔
      size ∈ state.requests.filterMap AllocateLocal.awaits ∨
        size ∈ state.accounting.calls.filterMap ReserveCall.awaits :=
  List.mem_append

theorem mem_set_awaits {requests : List AllocateLocal} {index size : Nat}
    {request : AllocateLocal}
    (waits : size ∈ (requests.set index request).filterMap
      AllocateLocal.awaits) :
    size ∈ requests.filterMap AllocateLocal.awaits ∨
      request.awaits = some size := by
  obtain ⟨other, member, same⟩ := List.mem_filterMap.mp waits
  rcases List.mem_or_eq_of_mem_set member with member | rfl
  · exact .inl (List.mem_filterMap.mpr ⟨other, member, same⟩)
  · exact .inr same

theorem mem_eraseIdx_awaits {requests : List AllocateLocal}
    {index size : Nat}
    (waits : size ∈ (requests.eraseIdx index).filterMap
      AllocateLocal.awaits) :
    size ∈ requests.filterMap AllocateLocal.awaits := by
  obtain ⟨other, member, same⟩ := List.mem_filterMap.mp waits
  exact List.mem_filterMap.mpr
    ⟨other, List.mem_of_mem_eraseIdx member, same⟩

theorem leavesHeadroom_fits {size budget used force : UInt64}
    (passes : leavesHeadroom size budget used = true)
    (inForce : budget ≤ force)
    (range : size.toNat + relayHeadroom.toNat < 2 ^ 64 ∨
      budget.toNat < 2 ^ 64 - 1) :
    used.toNat + size.toNat + relayHeadroom.toNat ≤ force.toNat := by
  have test := UInt64.le_iff_toNat_le.mp (of_decide_eq_true passes)
  have bound := UInt64.le_iff_toNat_le.mp inForce
  rw [Word.toNat_saturatingSub] at test
  by_cases fits : size.toNat + relayHeadroom.toNat < 2 ^ 64
  · rw [Word.toNat_saturatingAdd fits] at test
    have headroom : relayHeadroom.toNat = 262144 := rfl
    omega
  · rw [Word.toNat_saturatingAdd_overflow fits] at test
    omega

theorem step_accounting {event : AccountingEvent}
    (stepped : state.step (.accounting event) = some next) :
    ∃ accounting, state.accounting.step event = some accounting ∧
      next = { state with accounting := accounting } ∧
      ∀ job bytes, event ≠ .reservePayload job bytes := by
  cases event with
  | reservePayload job bytes => cases stepped
  | _ =>
      simp only [step, Option.bind_eq_bind,
        Option.bind_eq_some_iff] at stepped
      obtain ⟨accounting, moved, done⟩ := stepped
      cases done
      exact ⟨accounting, moved, rfl, by intros; simp⟩

def Balanced (state : Allocator) : Prop :=
  ∃ seen, Accounting.Balanced seen state.accounting

theorem step_balanced (balanced : state.Balanced)
    (stepped : state.step event = some next) : next.Balanced := by
  obtain ⟨seen, balanced⟩ := balanced
  cases event with
  | allocateLocal job size =>
      cases stepped
      exact ⟨seen, balanced⟩
  | advance index =>
      obtain ⟨request, found, stepped⟩ := Option.bind_eq_some_iff.mp stepped
      cases request with
      | loadBudget job size =>
          cases stepped
          exact ⟨seen, balanced⟩
      | loadUsed job size budget =>
          simp only at stepped
          split at stepped <;> cases stepped
          · exact ⟨seen, balanced⟩
          · exact ⟨seen, balanced⟩
      | allocate job size =>
          simp only at stepped
          split at stepped
          · cases stepped
          · obtain ⟨accounting, reserved, done⟩ :=
              Option.bind_eq_some_iff.mp stepped
            cases done
            exact ⟨_, Accounting.step_balanced balanced reserved⟩
  | refuse index =>
      obtain ⟨request, found, stepped⟩ := Option.bind_eq_some_iff.mp stepped
      cases request <;> cases stepped
      exact ⟨seen, balanced⟩
  | accounting event =>
      obtain ⟨accounting, moved, rfl, _⟩ := step_accounting stepped
      exact ⟨_, Accounting.step_balanced balanced moved⟩

theorem covered_advance {accounting : Accounting} {index : Nat}
    {spurious : Bool} (balanced : state.Balanced) (covered : state.Covered)
    (spares : state.Spares (.accounting (.advance index spurious)))
    (moved : state.accounting.step (.advance index spurious) =
      some accounting) :
    Covered { state with accounting := accounting } := by
  obtain ⟨seen, balanced⟩ := balanced
  obtain ⟨call, found, done⟩ := Option.bind_eq_some_iff.mp moved
  have member := List.mem_of_getElem? found
  generalize proceeds : state.accounting.counters.proceed spurious call =
    result at done
  obtain ⟨counters, calls, live⟩ := result
  cases done
  obtain ⟨budget, level⟩ := RamAccounting.proceed_awaits
    (balanced.checked call member) (balanced.held_le member) proceeds
  intro size waits
  simp only [Accounting.owned, budget]
  rcases mem_awaiting.mp waits with waits | waits
  · rcases level with ⟨lower, _⟩ | ⟨bytes, job, limit, rfl, rfl, raised, _⟩
    · have enough := covered size (mem_awaiting.mpr (.inl waits))
      simp only [Accounting.owned] at enough
      omega
    · have enough := spares _ found rfl size (List.mem_append_left _ waits)
      omega
  · simp only [List.filterMap_append, List.mem_append] at waits
    rcases level with ⟨lower, own⟩ | ⟨bytes, job, limit, rfl, rfl, raised, spent⟩
    · have before : size ∈ state.accounting.calls.filterMap
          ReserveCall.awaits := by
        rw [mem_filterMap_eraseIdx found]
        rcases waits with waits | waits
        · exact .inr waits
        · exact .inl (own size waits)
      have enough := covered size (mem_awaiting.mpr (.inr before))
      simp only [Accounting.owned] at enough
      omega
    · rw [spent] at waits
      rcases waits with waits | waits
      · have enough := spares _ found rfl size (List.mem_append_right _ waits)
        omega
      · cases waits

theorem step_covered (balanced : state.Balanced) (covered : state.Covered)
    (spares : state.Spares event)
    (stepped : state.step event = some next) : next.Covered := by
  cases event with
  | allocateLocal job size =>
      cases stepped
      intro size waits
      apply covered
      simpa [awaiting, AllocateLocal.awaits] using waits
  | advance index =>
      obtain ⟨request, found, stepped⟩ := Option.bind_eq_some_iff.mp stepped
      cases request with
      | loadBudget job size =>
          cases stepped
          intro size waits
          rcases mem_awaiting.mp waits with waits | waits
          · rcases mem_set_awaits waits with waits | own
            · exact covered size (mem_awaiting.mpr (.inl waits))
            · cases own
          · exact covered size (mem_awaiting.mpr (.inr waits))
      | loadUsed job size budget =>
          simp only at stepped
          split at stepped <;> cases stepped
          · rename_i passes
            obtain ⟨inForce, range⟩ := spares _ found
            intro other waits
            rcases mem_awaiting.mp waits with waits | waits
            · rcases mem_set_awaits waits with waits | own
              · exact covered other (mem_awaiting.mpr (.inl waits))
              · cases own
                exact leavesHeadroom_fits passes inForce range
            · exact covered other (mem_awaiting.mpr (.inr waits))
          · intro other waits
            apply covered
            rcases mem_awaiting.mp waits with waits | waits
            · exact mem_awaiting.mpr (.inl (mem_eraseIdx_awaits waits))
            · exact mem_awaiting.mpr (.inr waits)
      | allocate job size =>
          simp only at stepped
          split at stepped
          · cases stepped
          · obtain ⟨accounting, reserved, done⟩ :=
              Option.bind_eq_some_iff.mp stepped
            cases reserved
            cases done
            intro other waits
            apply covered other
            rw [mem_awaiting] at waits ⊢
            simp only [List.filterMap_append, List.mem_append] at waits
            rcases waits with waits | waits | waits
            · exact .inl (mem_eraseIdx_awaits waits)
            · exact .inr waits
            · left
              refine List.mem_filterMap.mpr
                ⟨_, List.mem_of_getElem? found, ?_⟩
              simpa [ReserveCall.awaits, AllocateLocal.awaits,
                eq_comm] using waits
  | refuse index =>
      obtain ⟨request, found, stepped⟩ := Option.bind_eq_some_iff.mp stepped
      cases request <;> cases stepped
      intro other waits
      apply covered
      rcases mem_awaiting.mp waits with waits | waits
      · exact mem_awaiting.mpr (.inl (mem_eraseIdx_awaits waits))
      · exact mem_awaiting.mpr (.inr waits)
  | accounting event =>
      obtain ⟨accounting, moved, rfl, other⟩ := step_accounting stepped
      cases event with
      | reserve bytes =>
          cases moved
          intro size waits
          apply covered
          simpa [awaiting, ReserveCall.awaits] using waits
      | reservePayload job bytes => exact absurd rfl (other job bytes)
      | drop index =>
          obtain ⟨reservation, found, done⟩ :=
            Option.bind_eq_some_iff.mp moved
          cases done
          intro size waits
          apply covered
          cases owner : reservation.job <;>
            simpa [awaiting, ReserveCall.awaits, owner] using waits
      | setBudget budget =>
          cases moved
          exact spares
      | advance index spurious =>
          exact covered_advance balanced covered spares moved

theorem run_covered {start final : Allocator} {events : List AllocatorEvent}
    (balanced : start.Balanced) (covered : start.Covered)
    (spares : Along step Spares start events)
    (ran : run step start events = some final) :
    final.Balanced ∧ final.Covered :=
  run_invariant_along (fun state => state.Balanced ∧ state.Covered)
    (fun _ _ _ inv spares stepped =>
      ⟨step_balanced inv.1 stepped, step_covered inv.1 inv.2 spares stepped⟩)
    ⟨balanced, covered⟩ spares ran

def start (budget : UInt64) : Allocator :=
  ⟨{ counters := { budget := budget } }, []⟩

theorem start_balanced (budget : UInt64) : (start budget).Balanced :=
  ⟨[(start budget).accounting], rfl, fun _ => rfl, by simp [start], by simp,
    .single _, fun _ => .single _⟩

/-- In every run in which no step takes what an allocation was promised, a
payload reservation leaves the headroom for relays at the moment it
succeeds. -/
theorem headroom_kept (budget : UInt64) {events : List AllocatorEvent}
    (spares : Along step Spares (start budget) (events ++ [event]))
    (ran : run step (start budget) events = some state)
    (reserves : state.Reserves event)
    (stepped : state.step event = some next) :
    next.accounting.owned + 262144 ≤
      next.accounting.counters.budget.toNat := by
  have empty : (start budget).Covered := by
    intro size waits
    cases waits
  obtain ⟨before, _⟩ := spares.append ran
  obtain ⟨⟨seen, balanced⟩, covered⟩ :=
    run_covered (start_balanced budget) empty before ran
  obtain ⟨index, bytes, job, limit, rfl, found⟩ := reserves
  obtain ⟨accounting, moved, rfl, _⟩ := step_accounting stepped
  have waits : bytes.toNat ∈ state.awaiting :=
    mem_awaiting.mpr (.inr (List.mem_filterMap.mpr
      ⟨_, List.mem_of_getElem? found, rfl⟩))
  have enough := covered bytes.toNat waits
  obtain ⟨raised, _⟩ :=
    Accounting.exchange_spec balanced.unwrapped found moved
  have kept : accounting.counters.budget = state.accounting.counters.budget := by
    obtain ⟨call, same, done⟩ := Option.bind_eq_some_iff.mp moved
    cases found.symm.trans same
    simp only [RamAccounting.proceed, and_self, if_true,
      Option.some.injEq] at done
    rw [← done]
  have headroom : relayHeadroom.toNat = 262144 := rfl
  simp only [kept, raised]
  omega

def twoAllocations : List AllocatorEvent :=
  [.allocateLocal 1 200000, .allocateLocal 1 200000, .advance 0, .advance 0,
    .advance 1, .advance 1, .advance 0] ++
  List.replicate 7 (.accounting (.advance 0 false)) ++
  [.advance 0, .accounting (.advance 0 false), .accounting (.advance 0 false)]

theorem twoAllocations_exceed :
    ∃ state next,
      run step (start 600000) twoAllocations = some state ∧
        state.Reserves (.accounting (.advance 0 false)) ∧
        state.step (.accounting (.advance 0 false)) = some next ∧
        ¬next.accounting.owned + 262144 ≤
          next.accounting.counters.budget.toNat :=
  ⟨_, _, rfl, ⟨0, 200000, 1, 600000, rfl, rfl⟩, rfl, by decide⟩

/-- A relay reserves its buffer between the test and the reservation. -/
def relayBetween : List AllocatorEvent :=
  [.allocateLocal 1 200000, .advance 0, .advance 0,
    .accounting (.reserve 65536)] ++
  List.replicate 4 (.accounting (.advance 0 false)) ++
  [.advance 0, .accounting (.advance 0 false), .accounting (.advance 0 false)]

theorem headroom_kept_relay :
    ∃ state next,
      run step (start 600000) relayBetween = some state ∧
        state.step (.accounting (.advance 0 false)) = some next ∧
        next.accounting.owned + 262144 ≤
          next.accounting.counters.budget.toNat :=
  ⟨_, _, rfl, rfl, @headroom_kept _ _ _ 600000 relayBetween (by decide) rfl
    ⟨0, 200000, 1, 600000, rfl, rfl⟩ rfl⟩

end Allocator

end TrainPool
