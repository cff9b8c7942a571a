import TrainPool.Basic
import TrainPool.Library.Execution
import TrainPool.Library.Gauge
import TrainPool.Library.Table

namespace TrainPool

open Execution Gauge

structure JobRamAccounting where
  owned : UInt64 := 0
  peak : UInt64 := 0
  deriving DecidableEq, Repr

structure RamAccounting where
  owned : UInt64 := 0
  budget : UInt64 := 0
  peak : UInt64 := 0
  jobs : Table Uuid JobRamAccounting := ∅
  deriving DecidableEq

structure Reservation where
  bytes : UInt64
  job : Option Uuid
  deriving DecidableEq, Repr

/-- Where a call of `reserve`, `reserve_payload` or `drop` stands: before its
next atomic operation.  `check` to `exchange` is the loop of `fetch_update`. -/
inductive ReserveCall where
  | load (bytes : UInt64) (job : Option Uuid)
  | check (bytes : UInt64) (job : Option Uuid) (used : UInt64)
  | exchange (bytes : UInt64) (job : Option Uuid) (used budget : UInt64)
  | peak (bytes : UInt64) (job : Option Uuid) (current : UInt64)
  | entry (bytes : UInt64) (job : Uuid)
  | count (bytes : UInt64) (job : Uuid)
  | jobPeak (bytes : UInt64) (job : Uuid) (current : UInt64)
  | releaseJob (bytes : UInt64) (job : Uuid)
  | release (bytes : UInt64)
  deriving DecidableEq, Repr

/-- The counters with the calls in progress and the live reservations. -/
structure Accounting where
  counters : RamAccounting := {}
  calls : List ReserveCall := []
  live : List Reservation := []
  deriving DecidableEq

/-- `advance` takes the next atomic operation of a call; `spurious` says that
the weak exchange of `fetch_update` fails without a reason. -/
inductive AccountingEvent where
  | reserve (bytes : UInt64)
  | reservePayload (job : Uuid) (bytes : UInt64)
  | drop (index : Nat)
  | setBudget (budget : UInt64)
  | advance (index : Nat) (spurious : Bool)
  deriving DecidableEq

namespace RamAccounting

def job (counters : RamAccounting) (id : Uuid) : JobRamAccounting :=
  (counters.jobs.lookup id).getD {}

def setJob (id : Uuid) (accounting : JobRamAccounting)
    (counters : RamAccounting) : RamAccounting :=
  { counters with jobs := counters.jobs.insert id accounting }

/-- `fetch_max`. -/
def fetchMax (peak current : UInt64) : UInt64 :=
  if peak < current then current else peak

/-- One atomic operation of a call: the counters after it, how the call goes on
and the reservation it returns. -/
def proceed (spurious : Bool) (counters : RamAccounting) :
    ReserveCall → RamAccounting × List ReserveCall × List Reservation
  | .load bytes job => (counters, [.check bytes job counters.owned], [])
  | .check bytes job used =>
      if used.toNat + bytes.toNat < 2 ^ 64 ∧
          used + bytes ≤ counters.budget then
        (counters, [.exchange bytes job used counters.budget], [])
      else
        (counters, [], [])
  | .exchange bytes job used _ =>
      if counters.owned = used ∧ spurious = false then
        ({ counters with owned := used + bytes },
          [.peak bytes job (used + bytes)], [])
      else
        (counters, [.check bytes job counters.owned], [])
  | .peak bytes job current =>
      let counters :=
        { counters with peak := fetchMax counters.peak current }
      match job with
      | none => (counters, [], [⟨bytes, none⟩])
      | some job => (counters, [.entry bytes job], [])
  | .entry bytes job =>
      (counters.setJob job (counters.job job), [.count bytes job], [])
  | .count bytes job =>
      let owned := (counters.job job).owned + bytes
      (counters.setJob job { counters.job job with owned := owned },
        [.jobPeak bytes job owned], [])
  | .jobPeak bytes job current =>
      (counters.setJob job { counters.job job with
          peak := fetchMax (counters.job job).peak current },
        [], [⟨bytes, some job⟩])
  | .releaseJob bytes job =>
      (counters.setJob job { counters.job job with
          owned := (counters.job job).owned - bytes },
        [.release bytes], [])
  | .release bytes =>
      ({ counters with owned := counters.owned - bytes }, [], [])

@[simp] theorem job_setJob (id other : Uuid) (accounting : JobRamAccounting)
    (counters : RamAccounting) :
    (counters.setJob id accounting).job other =
      if other = id then accounting else counters.job other := by
  unfold job setJob
  rw [Table.lookup_insert_eq]
  split <;> rfl

theorem toNat_fetchMax (peak current : UInt64) :
    (fetchMax peak current).toNat = max peak.toNat current.toNat := by
  unfold fetchMax
  split
  · rename_i less
    have := UInt64.lt_iff_toNat_lt.mp less
    omega
  · rename_i more
    have := UInt64.lt_iff_toNat_lt.not.mp more
    omega

end RamAccounting

namespace Accounting

def step (state : Accounting) : AccountingEvent → Option Accounting
  | .reserve bytes =>
      some { state with calls := state.calls ++ [.load bytes none] }
  | .reservePayload job bytes =>
      some { state with calls := state.calls ++ [.load bytes (some job)] }
  | .drop index => do
      let reservation ← state.live[index]?
      let call := match reservation.job with
        | none => ReserveCall.release reservation.bytes
        | some job => .releaseJob reservation.bytes job
      some { state with
        live := state.live.eraseIdx index
        calls := state.calls ++ [call] }
  | .setBudget budget =>
      some { state with counters := { state.counters with budget := budget } }
  | .advance index spurious => do
      let call ← state.calls[index]?
      let (counters, calls, live) := state.counters.proceed spurious call
      some {
        counters := counters
        calls := state.calls.eraseIdx index ++ calls
        live := state.live ++ live }

end Accounting

/-! What a reservation or a call adds to the counters. -/

def Reservation.weight (reservation : Reservation) : Nat :=
  reservation.bytes.toNat

def Reservation.share (job : Uuid) (reservation : Reservation) : Nat :=
  if reservation.job = some job then reservation.bytes.toNat else 0

namespace ReserveCall

/-- The bytes of a call that are counted in `owned`. -/
def held : ReserveCall → Nat
  | .load _ _ | .check _ _ _ | .exchange _ _ _ _ => 0
  | .peak bytes _ _ | .entry bytes _ | .count bytes _ | .jobPeak bytes _ _
  | .releaseJob bytes _ | .release bytes => bytes.toNat

def charged : ReserveCall → Option Uuid
  | .jobPeak _ job _ | .releaseJob _ job => some job
  | _ => none

def share (job : Uuid) (call : ReserveCall) : Nat :=
  if call.charged = some job then call.held else 0

/-- The value of `owned` that a call has yet to record. -/
def pending : ReserveCall → Option Nat
  | .peak _ _ current => some current.toNat
  | _ => none

/-- The value of the counter of a job that a call has yet to record. -/
def pendingJob (job : Uuid) : ReserveCall → Option Nat
  | .jobPeak _ other current =>
      if other = job then some current.toNat else none
  | _ => none

def Checked : ReserveCall → Prop
  | .exchange bytes _ used budget =>
      used.toNat + bytes.toNat < 2 ^ 64 ∧ used + bytes ≤ budget
  | _ => True

theorem share_le (job : Uuid) (call : ReserveCall) :
    call.share job ≤ call.held := by
  unfold share
  split <;> omega

end ReserveCall

namespace RamAccounting

variable {spurious : Bool} {counters next : RamAccounting}
  {call : ReserveCall} {calls : List ReserveCall} {live : List Reservation}

theorem proceed_owned (checked : call.Checked)
    (counted : call.held ≤ counters.owned.toNat)
    (proceeds : counters.proceed spurious call = (next, calls, live)) :
    next.owned.toNat + call.held =
      counters.owned.toNat + total ReserveCall.held calls +
        total Reservation.weight live := by
  cases call with
  | load bytes job =>
      cases proceeds
      simp [ReserveCall.held]
  | check bytes job used =>
      simp only [proceed] at proceeds
      split at proceeds <;> cases proceeds <;> simp [ReserveCall.held]
  | exchange bytes job used budget =>
      simp only [proceed] at proceeds
      split at proceeds <;> cases proceeds
      · rename_i free
        obtain ⟨rfl, _⟩ := free
        simp only [UInt64.toNat_add, Nat.mod_eq_of_lt checked.1]
        simp [ReserveCall.held]
      · simp [ReserveCall.held]
  | peak bytes job current =>
      cases job <;> cases proceeds <;>
        simp [ReserveCall.held, Reservation.weight]
  | entry bytes job | count bytes job | releaseJob bytes job =>
      cases proceeds
      simp [ReserveCall.held, setJob]
  | jobPeak bytes job current =>
      cases proceeds
      simp [ReserveCall.held, Reservation.weight, setJob]
  | release bytes =>
      cases proceeds
      simp only [ReserveCall.held] at counted ⊢
      rw [UInt64.toNat_sub_of_le _ _ (UInt64.le_iff_toNat_le.mpr counted)]
      simp
      omega

theorem proceed_job (job : Uuid)
    (counted : call.share job ≤ (counters.job job).owned.toNat)
    (fits : ∀ bytes, call = .count bytes job →
      (counters.job job).owned.toNat + bytes.toNat < 2 ^ 64)
    (proceeds : counters.proceed spurious call = (next, calls, live)) :
    (next.job job).owned.toNat + call.share job =
      (counters.job job).owned.toNat + total (ReserveCall.share job) calls +
        total (Reservation.share job) live := by
  cases call with
  | load bytes other =>
      cases proceeds
      simp [ReserveCall.share, ReserveCall.charged]
  | check bytes other used =>
      simp only [proceed] at proceeds
      split at proceeds <;> cases proceeds <;>
        simp [ReserveCall.share, ReserveCall.charged]
  | exchange bytes other used budget =>
      simp only [proceed] at proceeds
      split at proceeds <;> cases proceeds <;>
        simp [ReserveCall.share, ReserveCall.charged, RamAccounting.job]
  | peak bytes other current =>
      cases other <;> cases proceeds <;>
        simp [ReserveCall.share, ReserveCall.charged, Reservation.share,
          RamAccounting.job]
  | entry bytes other =>
      cases proceeds
      by_cases same : job = other
      · subst same
        simp [ReserveCall.share, ReserveCall.charged]
      · simp [ReserveCall.share, ReserveCall.charged, same]
  | count bytes other =>
      cases proceeds
      by_cases same : job = other
      · subst same
        simp only [job_setJob, if_true, UInt64.toNat_add,
          Nat.mod_eq_of_lt (fits bytes rfl)]
        simp [ReserveCall.share, ReserveCall.charged, ReserveCall.held]
      · simp [ReserveCall.share, ReserveCall.charged, same, Ne.symm same]
  | jobPeak bytes other current =>
      cases proceeds
      by_cases same : job = other
      · subst same
        simp [ReserveCall.share, ReserveCall.charged, ReserveCall.held,
          Reservation.share]
      · simp [ReserveCall.share, ReserveCall.charged, Reservation.share,
          same, Ne.symm same]
  | releaseJob bytes other =>
      cases proceeds
      by_cases same : job = other
      · subst same
        simp only [ReserveCall.share, ReserveCall.charged, if_true,
          ReserveCall.held] at counted
        simp only [job_setJob, if_true, UInt64.toNat_sub_of_le _ _
          (UInt64.le_iff_toNat_le.mpr counted)]
        simp [ReserveCall.share, ReserveCall.charged, ReserveCall.held]
        omega
      · simp [ReserveCall.share, ReserveCall.charged, same, Ne.symm same]
  | release bytes =>
      cases proceeds
      simp [ReserveCall.share, ReserveCall.charged, RamAccounting.job]

/-- What becomes of the peak: it is left alone, a new value awaits its record,
or a value is recorded. -/
theorem proceed_peak
    (proceeds : counters.proceed spurious call = (next, calls, live)) :
    (next.peak = counters.peak ∧ call.pending = none ∧
      calls.filterMap ReserveCall.pending = [] ∧
      (next.owned = counters.owned ∨ ∃ bytes, call = .release bytes)) ∨
    (next.peak = counters.peak ∧ call.pending = none ∧
      calls.filterMap ReserveCall.pending = [next.owned.toNat]) ∨
    ∃ current, call.pending = some current ∧
      next.peak.toNat = max counters.peak.toNat current ∧
      calls.filterMap ReserveCall.pending = [] ∧
      next.owned = counters.owned := by
  cases call with
  | load bytes job | entry bytes job | count bytes job
  | jobPeak bytes job current | releaseJob bytes job =>
      cases proceeds
      exact .inl ⟨rfl, rfl, rfl, .inl rfl⟩
  | check bytes job used =>
      simp only [proceed] at proceeds
      split at proceeds <;> cases proceeds <;>
        exact .inl ⟨rfl, rfl, rfl, .inl rfl⟩
  | exchange bytes job used budget =>
      simp only [proceed] at proceeds
      split at proceeds <;> cases proceeds
      · exact .inr (.inl ⟨rfl, rfl, rfl⟩)
      · exact .inl ⟨rfl, rfl, rfl, .inl rfl⟩
  | peak bytes job current =>
      refine .inr (.inr ⟨current.toNat, rfl, ?_⟩)
      cases job <;> cases proceeds <;>
        exact ⟨toNat_fetchMax _ _, rfl, rfl⟩
  | release bytes =>
      cases proceeds
      exact .inl ⟨rfl, rfl, rfl, .inr ⟨bytes, rfl⟩⟩

theorem proceed_jobPeak (job : Uuid)
    (proceeds : counters.proceed spurious call = (next, calls, live)) :
    ((next.job job).peak = (counters.job job).peak ∧
      call.pendingJob job = none ∧
      calls.filterMap (ReserveCall.pendingJob job) = [] ∧
      ((next.job job).owned = (counters.job job).owned ∨
        ∃ bytes, call = .releaseJob bytes job)) ∨
    ((next.job job).peak = (counters.job job).peak ∧
      call.pendingJob job = none ∧
      calls.filterMap (ReserveCall.pendingJob job) =
        [(next.job job).owned.toNat]) ∨
    ∃ current, call.pendingJob job = some current ∧
      (next.job job).peak.toNat =
        max (counters.job job).peak.toNat current ∧
      calls.filterMap (ReserveCall.pendingJob job) = [] ∧
      (next.job job).owned = (counters.job job).owned := by
  cases call with
  | load bytes other | release bytes =>
      cases proceeds
      exact .inl ⟨rfl, rfl, rfl, .inl rfl⟩
  | check bytes other used =>
      simp only [proceed] at proceeds
      split at proceeds <;> cases proceeds <;>
        exact .inl ⟨rfl, rfl, rfl, .inl rfl⟩
  | exchange bytes other used budget =>
      simp only [proceed] at proceeds
      split at proceeds <;> cases proceeds <;>
        exact .inl ⟨rfl, rfl, rfl, .inl rfl⟩
  | peak bytes other current =>
      cases other <;> cases proceeds <;>
        exact .inl ⟨rfl, rfl, rfl, .inl rfl⟩
  | entry bytes other =>
      cases proceeds
      by_cases same : job = other
      · subst same
        exact .inl ⟨by simp, rfl, rfl, .inl (by simp)⟩
      · exact .inl ⟨by simp [same], rfl, rfl, .inl (by simp [same])⟩
  | count bytes other =>
      cases proceeds
      by_cases same : job = other
      · subst same
        exact .inr (.inl ⟨by simp, rfl, by simp [ReserveCall.pendingJob]⟩)
      · exact .inl ⟨by simp [same], rfl,
          by simp [ReserveCall.pendingJob, Ne.symm same],
          .inl (by simp [same])⟩
  | jobPeak bytes other current =>
      cases proceeds
      by_cases same : job = other
      · subst same
        exact .inr (.inr ⟨current.toNat, by simp [ReserveCall.pendingJob],
          by simp [toNat_fetchMax], rfl, by simp⟩)
      · exact .inl ⟨by simp [same],
          by simp [ReserveCall.pendingJob, Ne.symm same], rfl,
          .inl (by simp [same])⟩
  | releaseJob bytes other =>
      cases proceeds
      by_cases same : job = other
      · subst same
        exact .inl ⟨by simp, rfl, rfl, .inr ⟨bytes, rfl⟩⟩
      · exact .inl ⟨by simp [same], rfl, rfl, .inl (by simp [same])⟩

theorem proceed_checked
    (proceeds : counters.proceed spurious call = (next, calls, live)) :
    ∀ later ∈ calls, later.Checked := by
  cases call with
  | check bytes job used =>
      simp only [proceed] at proceeds
      split at proceeds <;> cases proceeds
      · rename_i passed
        simpa [ReserveCall.Checked] using passed
      · simp
  | exchange bytes job used budget =>
      simp only [proceed] at proceeds
      split at proceeds <;> cases proceeds <;> simp [ReserveCall.Checked]
  | peak bytes job current =>
      cases job <;> cases proceeds <;> simp [ReserveCall.Checked]
  | load bytes job | entry bytes job | count bytes job
  | jobPeak bytes job current | releaseJob bytes job | release bytes =>
      cases proceeds
      simp [ReserveCall.Checked]

end RamAccounting

namespace Accounting

def owned (state : Accounting) : Nat := state.counters.owned.toNat

def jobOwned (job : Uuid) (state : Accounting) : Nat :=
  (state.counters.job job).owned.toNat

structure Balanced (seen : List Accounting) (state : Accounting) : Prop where
  owned : state.owned = total Reservation.weight state.live +
    total ReserveCall.held state.calls
  jobs : ∀ job, state.jobOwned job =
    total (Reservation.share job) state.live +
      total (ReserveCall.share job) state.calls
  checked : ∀ call ∈ state.calls, call.Checked
  latest : state ∈ seen
  peak : Marks Accounting.owned seen state.counters.peak.toNat
    (state.calls.filterMap ReserveCall.pending)
  jobPeak : ∀ job, Marks (jobOwned job) seen
    (state.counters.job job).peak.toNat
    (state.calls.filterMap (ReserveCall.pendingJob job))

variable {seen : List Accounting} {state next : Accounting}

theorem Balanced.held_le (balanced : Balanced seen state)
    {call : ReserveCall} (member : call ∈ state.calls) :
    call.held ≤ state.owned := by
  obtain ⟨index, found⟩ := List.getElem?_of_mem member
  have split := @total_eraseIdx _ ReserveCall.held _ _ _ found
  have sum := balanced.owned
  omega

theorem Balanced.share_le (balanced : Balanced seen state)
    {call : ReserveCall} (member : call ∈ state.calls) (job : Uuid) :
    call.share job ≤ state.jobOwned job := by
  obtain ⟨index, found⟩ := List.getElem?_of_mem member
  have split := @total_eraseIdx _ (ReserveCall.share job) _ _ _ found
  have sum := balanced.jobs job
  omega

theorem total_share_le (job : Uuid) (live : List Reservation) :
    total (Reservation.share job) live ≤ total Reservation.weight live := by
  apply total_mono
  intro reservation _
  unfold Reservation.share Reservation.weight
  split <;> omega

theorem total_callShare_le (job : Uuid) (calls : List ReserveCall) :
    total (ReserveCall.share job) calls ≤ total ReserveCall.held calls :=
  total_mono fun call _ => call.share_le job

theorem Balanced.count_fits (balanced : Balanced seen state)
    {bytes : UInt64} {job : Uuid}
    (member : .count bytes job ∈ state.calls) :
    state.jobOwned job + bytes.toNat < 2 ^ 64 := by
  obtain ⟨index, found⟩ := List.getElem?_of_mem member
  have held := @total_eraseIdx _ ReserveCall.held _ _ _ found
  have share := @total_eraseIdx _ (ReserveCall.share job) _ _ _ found
  have none : (ReserveCall.count bytes job).share job = 0 := rfl
  have all : (ReserveCall.count bytes job).held = bytes.toNat := rfl
  have sum := balanced.owned
  have part := balanced.jobs job
  have live := total_share_le job state.live
  have calls := total_callShare_le job (state.calls.eraseIdx index)
  have bound : state.owned < 2 ^ 64 := state.counters.owned.toNat_lt
  omega

theorem Balanced.jobs_le (balanced : Balanced seen state) :
    total (fun job => state.jobOwned job) state.counters.jobs.keys ≤
      state.owned := by
  have distinct : state.counters.jobs.keys.Nodup :=
    state.counters.jobs.keys_nodup
  have live := total_parts_le
    (fun (reservation : Reservation) => total_indicator_le distinct
      reservation.job reservation.bytes.toNat) state.live
  have calls := total_parts_le
    (fun (call : ReserveCall) => total_indicator_le distinct call.charged
      call.held) state.calls
  have split : total (fun job => state.jobOwned job)
        state.counters.jobs.keys =
      total (fun job => total (Reservation.share job) state.live)
          state.counters.jobs.keys +
        total (fun job => total (ReserveCall.share job) state.calls)
          state.counters.jobs.keys := by
    simp only [total, ← List.sum_map_add]
    simp only [balanced.jobs, total]
  rw [split, balanced.owned]
  exact Nat.add_le_add live calls

theorem Balanced.start (balanced : Balanced seen state)
    {live : List Reservation} {call : ReserveCall}
    (counters : next.counters.owned = state.counters.owned ∧
      next.counters.peak = state.counters.peak ∧
      next.counters.jobs = state.counters.jobs)
    (calls : next.calls = state.calls ++ [call]) (lives : next.live = live)
    (owned : total Reservation.weight live + call.held =
      total Reservation.weight state.live)
    (jobs : ∀ job, total (Reservation.share job) live + call.share job =
      total (Reservation.share job) state.live)
    (checked : call.Checked) (quiet : call.pending = none)
    (quietJob : ∀ job, call.pendingJob job = none) :
    Balanced (seen ++ [next]) next := by
  obtain ⟨sameOwned, samePeak, sameJobs⟩ := counters
  have sameJob : ∀ job, next.counters.job job = state.counters.job job := by
    intro job
    simp [RamAccounting.job, sameJobs]
  refine ⟨?_, ?_, ?_, by simp, ?_, ?_⟩
  · have sum := balanced.owned
    simp only [Accounting.owned, sameOwned, calls, lives, total_append,
      total_cons, total_nil] at sum ⊢
    omega
  · intro job
    have sum := balanced.jobs job
    have part := jobs job
    simp only [jobOwned, sameJob, calls, lives, total_append, total_cons,
      total_nil] at sum ⊢
    omega
  · intro other member
    rw [calls] at member
    rcases List.mem_append.mp member with member | member
    · exact balanced.checked other member
    · exact List.mem_singleton.mp member ▸ checked
  · rw [samePeak]
    refine balanced.peak.stay balanced.latest ?_ ?_
    · simp [Accounting.owned, sameOwned]
    · simp [calls, quiet]
  · intro job
    rw [sameJob]
    refine (balanced.jobPeak job).stay balanced.latest ?_ ?_
    · simp [jobOwned, sameJob]
    · simp [calls, quietJob]

theorem Balanced.advance (balanced : Balanced seen state) {index : Nat}
    {call : ReserveCall} {spurious : Bool} {counters : RamAccounting}
    {calls : List ReserveCall} {live : List Reservation}
    (found : state.calls[index]? = some call)
    (proceeds : state.counters.proceed spurious call =
      (counters, calls, live)) :
    Balanced (seen ++ [⟨counters, state.calls.eraseIdx index ++ calls,
        state.live ++ live⟩])
      ⟨counters, state.calls.eraseIdx index ++ calls, state.live ++ live⟩ := by
  have member := List.mem_of_getElem? found
  have held := balanced.held_le member
  refine ⟨?_, ?_, ?_, by simp, ?_, ?_⟩
  · have moved := RamAccounting.proceed_owned
      (balanced.checked call member) held proceeds
    have split := @total_eraseIdx _ ReserveCall.held _ _ _ found
    have sum := balanced.owned
    simp only [Accounting.owned, total_append] at sum ⊢
    omega
  · intro job
    have moved := RamAccounting.proceed_job job
      (balanced.share_le member job)
      (fun bytes same => balanced.count_fits (same ▸ member)) proceeds
    have split := @total_eraseIdx _ (ReserveCall.share job) _ _ _ found
    have sum := balanced.jobs job
    simp only [jobOwned, total_append] at sum ⊢
    omega
  · intro other listed
    rcases List.mem_append.mp listed with listed | listed
    · exact balanced.checked other (List.mem_of_mem_eraseIdx listed)
    · exact RamAccounting.proceed_checked proceeds other listed
  · have awaiting :=
      @mem_filterMap_eraseIdx _ _ ReserveCall.pending _ _ _ found
    rcases RamAccounting.proceed_peak proceeds with
      ⟨peak, quiet, none, level⟩ | ⟨peak, quiet, one⟩ |
        ⟨current, pending, peak, none, level⟩
    · rw [peak]
      refine balanced.peak.stay balanced.latest ?_ ?_
      · rcases level with same | ⟨bytes, rfl⟩
        · simp [Accounting.owned, same]
        · cases proceeds
          simp only [Accounting.owned]
          rw [UInt64.toNat_sub_of_le _ _ (UInt64.le_iff_toNat_le.mpr held)]
          exact Nat.sub_le _ _
      · intro value
        simp [awaiting, quiet, none]
    · rw [peak]
      refine balanced.peak.rise ?_
      intro value
      simp [awaiting, quiet, one, Accounting.owned, or_comm]
    · rw [peak]
      refine balanced.peak.record balanced.latest ?_ ?_
      · simp [Accounting.owned, level]
      · intro value
        simp [awaiting, pending, none, eq_comm]
  · intro job
    have share := balanced.share_le member job
    have awaiting :=
      @mem_filterMap_eraseIdx _ _ (ReserveCall.pendingJob job) _ _ _ found
    rcases RamAccounting.proceed_jobPeak job proceeds with
      ⟨peak, quiet, none, level⟩ | ⟨peak, quiet, one⟩ |
        ⟨current, pending, peak, none, level⟩
    · dsimp only
      rw [peak]
      refine (balanced.jobPeak job).stay balanced.latest ?_ ?_
      · rcases level with same | ⟨bytes, rfl⟩
        · simp [jobOwned, same]
        · cases proceeds
          simp only [ReserveCall.share, ReserveCall.charged, if_true,
            ReserveCall.held] at share
          simp only [jobOwned, RamAccounting.job_setJob, if_true]
          rw [UInt64.toNat_sub_of_le _ _ (UInt64.le_iff_toNat_le.mpr share)]
          exact Nat.sub_le _ _
      · intro value
        simp [awaiting, quiet, none]
    · dsimp only
      rw [peak]
      refine (balanced.jobPeak job).rise ?_
      intro value
      simp [awaiting, quiet, one, jobOwned, or_comm]
    · dsimp only
      rw [peak]
      refine (balanced.jobPeak job).record balanced.latest ?_ ?_
      · simp [jobOwned, level]
      · intro value
        simp [awaiting, pending, none, eq_comm]

theorem step_balanced (balanced : Balanced seen state)
    {event : AccountingEvent} (stepped : state.step event = some next) :
    Balanced (seen ++ [next]) next := by
  cases event with
  | reserve bytes | reservePayload job bytes =>
      cases stepped
      exact balanced.start ⟨rfl, rfl, rfl⟩ rfl rfl rfl (fun _ => rfl) trivial
        rfl (fun _ => rfl)
  | drop index =>
      obtain ⟨reservation, found, done⟩ := Option.bind_eq_some_iff.mp stepped
      cases done
      obtain ⟨bytes, owner⟩ := reservation
      have weight := @total_eraseIdx _ Reservation.weight _ _ _ found
      have share := fun job =>
        @total_eraseIdx _ (Reservation.share job) _ _ _ found
      cases owner with
      | none =>
          refine balanced.start ⟨rfl, rfl, rfl⟩ rfl rfl ?_ ?_ trivial rfl
            (fun _ => rfl)
          · rw [weight, Nat.add_comm]
            rfl
          · intro job
            rw [share job, Nat.add_comm]
            simp [ReserveCall.share, ReserveCall.charged, Reservation.share]
      | some owner =>
          refine balanced.start ⟨rfl, rfl, rfl⟩ rfl rfl ?_ ?_ trivial rfl
            (fun _ => rfl)
          · rw [weight, Nat.add_comm]
            rfl
          · intro job
            rw [share job, Nat.add_comm]
            simp [ReserveCall.share, ReserveCall.charged, Reservation.share,
              ReserveCall.held]
  | setBudget budget =>
      cases stepped
      refine ⟨balanced.owned, balanced.jobs, balanced.checked, by simp, ?_, ?_⟩
      · refine balanced.peak.stay balanced.latest ?_ fun _ => Iff.rfl
        exact Nat.le_refl _
      · intro job
        refine (balanced.jobPeak job).stay balanced.latest ?_
          fun _ => Iff.rfl
        exact Nat.le_refl _
  | advance index spurious =>
      obtain ⟨call, found, done⟩ := Option.bind_eq_some_iff.mp stepped
      simp only [Option.some.injEq] at done
      subst done
      exact balanced.advance found rfl

/-- No atomic addition or subtraction that a call is about to make wraps, and
no exchange exceeds the budget that its check loaded. -/
structure Unwrapped (state : Accounting) : Prop where
  exchange : ∀ bytes job used budget,
    .exchange bytes job used budget ∈ state.calls →
      used.toNat + bytes.toNat < 2 ^ 64 ∧ used + bytes ≤ budget
  count : ∀ bytes job, .count bytes job ∈ state.calls →
    state.jobOwned job + bytes.toNat < 2 ^ 64
  releaseJob : ∀ bytes job, .releaseJob bytes job ∈ state.calls →
    bytes.toNat ≤ state.jobOwned job
  release : ∀ bytes, .release bytes ∈ state.calls →
    bytes.toNat ≤ state.owned

/-- The counters when no call is in progress; `seen` are the states so far. -/
structure Settled (seen : List Accounting) (state : Accounting) : Prop where
  owned : state.owned = total Reservation.weight state.live
  jobs : ∀ job, state.jobOwned job = total (Reservation.share job) state.live
  peak : (∀ other ∈ seen, other.owned ≤ state.counters.peak.toNat) ∧
    ∃ other ∈ seen, other.owned = state.counters.peak.toNat
  jobPeak : ∀ job,
    (∀ other ∈ seen,
      other.jobOwned job ≤ (state.counters.job job).peak.toNat) ∧
    ∃ other ∈ seen,
      other.jobOwned job = (state.counters.job job).peak.toNat

theorem Balanced.unwrapped (balanced : Balanced seen state) :
    state.Unwrapped where
  exchange := fun bytes job used budget member =>
    balanced.checked _ member
  count := fun _ _ member => balanced.count_fits member
  releaseJob := by
    intro bytes job member
    simpa [ReserveCall.share, ReserveCall.charged, ReserveCall.held] using
      balanced.share_le member job
  release := fun _ member => balanced.held_le member

theorem Balanced.settled (balanced : Balanced seen state)
    (quiet : state.calls = []) : state.Settled seen where
  owned := by simpa [quiet] using balanced.owned
  jobs := fun job => by simpa [quiet] using balanced.jobs job
  peak := by
    have peak := balanced.peak
    rw [quiet] at peak
    exact peak.exact
  jobPeak := by
    intro job
    have peak := balanced.jobPeak job
    rw [quiet] at peak
    exact peak.exact

/-- A `reserve` that succeeds adds its bytes and stays within the budget that
its check loaded. -/
theorem exchange_spec {index : Nat} {bytes budget : UInt64}
    {job : Option Uuid}
    (unwrapped : state.Unwrapped)
    (found : state.calls[index]? =
      some (.exchange bytes job state.counters.owned budget))
    (stepped : state.step (.advance index false) = some next) :
    next.owned = state.owned + bytes.toNat ∧
      next.counters.owned ≤ budget := by
  obtain ⟨call, same, done⟩ := Option.bind_eq_some_iff.mp stepped
  cases found.symm.trans same
  obtain ⟨fits, within⟩ := unwrapped.exchange _ _ _ _
    (List.mem_of_getElem? found)
  simp only [RamAccounting.proceed, and_self, if_true,
    Option.some.injEq] at done
  subst done
  refine ⟨?_, within⟩
  simp only [Accounting.owned, UInt64.toNat_add, Nat.mod_eq_of_lt fits]

/-- The RAM accounting, from its start and for every interleaving of the atomic
operations of its calls. -/
theorem accounting_exact (budget : UInt64) (events : List AccountingEvent)
    {final : Accounting}
    (ran : run step { counters := { budget := budget } } events =
      some final) :
    final.Unwrapped ∧
      total (fun job => final.jobOwned job) final.counters.jobs.keys ≤
        final.owned ∧
      (∀ index bytes job budget next, final.calls[index]? =
          some (.exchange bytes job final.counters.owned budget) →
        final.step (.advance index false) = some next →
          next.owned = final.owned + bytes.toNat ∧
            next.counters.owned ≤ budget) ∧
      (final.calls = [] → final.Settled
        ({ counters := { budget := budget } } ::
          passed step { counters := { budget := budget } } events)) := by
  have start : Balanced [{ counters := { budget := budget } }]
      { counters := { budget := budget } } :=
    ⟨rfl, fun _ => rfl, nofun, by simp, .single _, fun _ => .single _⟩
  have balanced := run_invariant_passed Balanced
    (fun _ _ _ _ balanced stepped => step_balanced balanced stepped)
    start ran
  exact ⟨balanced.unwrapped, balanced.jobs_le,
    fun _ _ _ _ _ found stepped =>
      exchange_spec balanced.unwrapped found stepped,
    balanced.settled⟩

/-- Two reservations race: both pass their check, and one loses the exchange. -/
def sampleRace : List AccountingEvent :=
  [.reserve 3, .reservePayload 1 3] ++ List.replicate 8 (.advance 0 false)

theorem accounting_exact_race :
    ∃ final,
      run step { counters := { budget := 5 } } sampleRace = some final ∧
      final.live = [⟨3, none⟩] ∧
      final.Settled ({ counters := { budget := 5 } } ::
        passed step { counters := { budget := 5 } } sampleRace) :=
  ⟨_, rfl, rfl, (accounting_exact 5 sampleRace rfl).2.2.2 rfl⟩

end Accounting

end TrainPool
