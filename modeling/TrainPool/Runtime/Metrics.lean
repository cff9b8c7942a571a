import TrainPool.Library.Gauge
import TrainPool.Runtime.Completion
import TrainPool.Runtime.Incoming
import TrainPool.Runtime.Ranges
import TrainPool.Transport.Reader

namespace TrainPool

open Execution Gauge

/-! The gauge of active transfer sessions.  Tasks change it under the lock of
the metrics, some time after the change that they count. -/

structure JobMetrics where
  activeTransferSessions : Nat := 0
  deriving DecidableEq

structure Metrics where
  jobs : Table Uuid JobMetrics := ∅
  deriving DecidableEq

namespace JobMetrics

def addSession (metrics : JobMetrics) : JobMetrics :=
  { metrics with
    activeTransferSessions := metrics.activeTransferSessions + 1 }

def removeSession (metrics : JobMetrics) : JobMetrics :=
  { metrics with
    activeTransferSessions := metrics.activeTransferSessions - 1 }

end JobMetrics

namespace Metrics

variable (metrics : Metrics)

def job (id : Uuid) : JobMetrics := (metrics.jobs.lookup id).getD {}

def change (id : Uuid) (change : JobMetrics → JobMetrics) : Metrics :=
  { jobs := metrics.jobs.insert id (change (metrics.job id)) }

def addSession (id : Uuid) : Metrics := metrics.change id .addSession

def removeSession (id : Uuid) : Metrics := metrics.change id .removeSession

def active (id : Uuid) : Nat := (metrics.job id).activeTransferSessions

end Metrics

/-- What a task has yet to do to the gauge.  A read response is counted by the
handler of its request, for the object of the request, and uncounted by its own
task, for the job of the block.  A transfer of a client is counted until it
ends; FIN and ABORT still have to uncount the session they have removed. -/
inductive Meter where
  | reading (object job : Uuid) (counted served : Bool)
  | transferring (job : Uuid)
  | closing (object : Uuid)
  deriving DecidableEq

/-- A read response whose task has yet to take the lock of the metrics. -/
def Meter.serving : Meter → Bool
  | .reading _ _ _ served => !served
  | _ => false

structure MeteredDaemon where
  daemon : Daemon := .empty
  metrics : Metrics := {}
  pending : List Meter := []
  deriving DecidableEq

/-- A step of the daemon, the start of a tracked transfer, the two changes of
the gauge by a task, or the end of a transfer that is dropped with its
connection. -/
inductive MeteredEvent where
  | daemon (event : DaemonEvent)
  | transfer (job : Uuid)
  | count (index : Nat)
  | uncount (index : Nat)
  | drop (index : Nat)
  deriving DecidableEq

def UdpServerState.expiredObjects (config : Config) (instant : Nat)
    (udp : UdpServerState) : List Uuid :=
  (udp.incoming.entries.filter fun entry =>
    !decide (instant - entry.2.lastActivity < incomingExpiryMs config)).map
      (·.2.object)

namespace Handler

/-- START takes the lock of the metrics while it holds that of the sessions, so
that it changes both in one step. -/
def startMetrics (config : Config) (source : SocketAddr) (instant : Nat)
    (before after : UdpServerState) (handler : Handler) (metrics : Metrics) :
    Metrics :=
  if handler.stage = .startSession then
    let metrics := (before.expiredObjects config instant).foldl
      Metrics.removeSession metrics
    let key := handler.packet.key source
    if key ∉ (before.expireIncoming config instant).incoming ∧
        key ∈ after.incoming then
      metrics.addSession handler.packet.objectId
    else
      metrics
  else
    metrics

/-- What is left to do for the metrics after a step of the handler. -/
def unmetered (source : SocketAddr) (before : UdpServerState)
    (outcome : Outcome) (handler : Handler) : List Meter :=
  match handler.stage with
  | .readLock _ => outcome.responses.map fun response =>
      .reading handler.packet.objectId response.handle.jobId false false
  | .finRelease => [.closing handler.packet.objectId]
  | .abortSession =>
      if handler.packet.key source ∈ before.incoming then
        [.closing handler.packet.objectId]
      else
        []
  | _ => []

end Handler

namespace MeteredDaemon

section Steps

variable (config : Config) (blake3 : List UInt8 → Digest) (self : Identity)

def handle (index : Nat) (choice : Choice) (state : MeteredDaemon) :
    Option MeteredDaemon := do
  let daemon := state.daemon
  let (source, handler) ← daemon.running index
  let (shared, outcome) ← handler.run config blake3 source daemon.now
    daemon.instant choice daemon.shared
  let next ← daemon.handle config blake3 index choice
  some {
    daemon := next
    metrics := handler.startMetrics config source daemon.instant daemon.shared.udp
      shared.udp state.metrics
    pending := state.pending ++
      handler.unmetered source daemon.shared.udp outcome }

def count (index : Nat) (state : MeteredDaemon) : Option MeteredDaemon :=
  match state.pending[index]? with
  | some (.reading object job false served) =>
      some { state with
        metrics := state.metrics.addSession object
        pending := if served then state.pending.eraseIdx index
          else state.pending.set index (.reading object job true false) }
  | _ => none

def uncount (index : Nat) (state : MeteredDaemon) : Option MeteredDaemon :=
  match state.pending[index]? with
  | some (.reading object job counted false) =>
      some { state with
        metrics := state.metrics.removeSession job
        pending := if counted then state.pending.eraseIdx index
          else state.pending.set index (.reading object job false true) }
  | some (.transferring job) =>
      some { state with
        metrics := state.metrics.removeSession job
        pending := state.pending.eraseIdx index }
  | some (.closing object) =>
      some { state with
        metrics := state.metrics.removeSession object
        pending := state.pending.eraseIdx index }
  | _ => none

def drop (index : Nat) (state : MeteredDaemon) : Option MeteredDaemon :=
  match state.pending[index]? with
  | some (.transferring _) =>
      some { state with pending := state.pending.eraseIdx index }
  | _ => none

def step (state : MeteredDaemon) : MeteredEvent → Option MeteredDaemon
  | .daemon (.handle index choice) => state.handle config blake3 index choice
  | .daemon (.responded response) =>
      -- A response leaves `active_reads` after it has left the gauge.
      if state.pending.countP Meter.serving <
          state.daemon.responses.length then do
        let daemon ← state.daemon.step config blake3 self (.responded response)
        some { state with daemon := daemon }
      else
        none
  | .daemon event => do
      let daemon ← state.daemon.step config blake3 self event
      some { state with daemon := daemon }
  | .transfer job =>
      some { state with
        metrics := state.metrics.addSession job
        pending := state.pending ++ [.transferring job] }
  | .count index => state.count index
  | .uncount index => state.uncount index
  | .drop index => state.drop index

end Steps

/-- No handler, read response or tracked transfer is in progress. -/
def Idle (state : MeteredDaemon) : Prop :=
  (∀ task ∈ state.daemon.tasks, task.handlers = []) ∧
    state.daemon.responses = [] ∧ state.pending = []

instance (state : MeteredDaemon) : Decidable state.Idle :=
  inferInstanceAs (Decidable (_ ∧ _ ∧ _))

def sessions (state : MeteredDaemon) (job : Uuid) : Nat :=
  state.daemon.shared.udp.incoming.count (·.object = job)

end MeteredDaemon

namespace Metrics

variable (metrics : Metrics) (id job : Uuid)

@[simp] theorem active_addSession :
    (metrics.addSession id).active job =
      metrics.active job + if id = job then 1 else 0 := by
  unfold active Metrics.job addSession change
  rw [Table.lookup_insert_eq]
  by_cases same : job = id
  · subst same
    simp [JobMetrics.addSession, Metrics.job]
  · simp [same, Ne.symm same]

@[simp] theorem active_removeSession :
    (metrics.removeSession id).active job =
      metrics.active job - if id = job then 1 else 0 := by
  unfold active Metrics.job removeSession change
  rw [Table.lookup_insert_eq]
  by_cases same : job = id
  · subst same
    simp [JobMetrics.removeSession, Metrics.job]
  · simp [same, Ne.symm same]

theorem active_removeSessions (objects : List Uuid) :
    (objects.foldl removeSession metrics).active job =
      metrics.active job - objects.count job := by
  induction objects generalizing metrics with
  | nil => simp
  | cons object rest ih =>
      rw [List.foldl_cons, ih, active_removeSession, List.count_cons]
      simp only [beq_iff_eq]
      omega

end Metrics

/-! Every session is in the table, held by the FIN that has taken it, or left
to be uncounted. -/

namespace Meter

def weight (job : Uuid) : Meter → Nat
  | .reading object _ counted served =>
      if object = job ∧ counted = true ∧ served = false then 1 else 0
  | .transferring other => if other = job then 1 else 0
  | .closing object => if object = job then 1 else 0

/-- A read response is counted before it is uncounted, for one job. -/
def Orderly : Meter → Prop
  | .reading object job _ served => object = job ∧ served = false
  | _ => True

def Counted : Meter → Prop
  | .reading _ _ counted _ => counted = true
  | _ => True

instance : (meter : Meter) → Decidable meter.Counted
  | .reading _ _ counted _ => inferInstanceAs (Decidable (counted = true))
  | .transferring _ | .closing _ => isTrue trivial

end Meter

def Stage.holds (job object : Uuid) : Stage → Nat
  | .finBlock session | .finWrite session _ =>
      if session.object = job then 1 else 0
  | .finInsert | .finEvict | .finRelease => if object = job then 1 else 0
  | _ => 0

/-- FIN completes what it has taken, and FIN and ABORT name the object of the
session that they remove. -/
def Stage.Settles (source : SocketAddr) (now : Nat) (shared : Shared)
    (packet : Packet) : Stage → Prop
  | .finBlock _ => (shared.ram.get packet.blockId).isOk = true
  | .finWrite session arc =>
      session.object = packet.objectId ∧
        ∀ block ∈ shared.ram.lock? arc,
          (block.finishUdp now packet.leaseToken session.generation
            session.baseOffset session.buffer packet.transferId).isOk = true
  | .abortSession =>
      ∀ session ∈ shared.udp.incoming.lookup (packet.key source),
        session.object = packet.objectId
  | _ => True

instance Stage.decidableSettles (source : SocketAddr) (now : Nat)
    (shared : Shared) (packet : Packet) :
    (stage : Stage) → Decidable (stage.Settles source now shared packet)
  | .finBlock _ => inferInstanceAs
      (Decidable ((shared.ram.get packet.blockId).isOk = true))
  | .finWrite session arc => inferInstanceAs
      (Decidable (session.object = packet.objectId ∧
        ∀ block ∈ shared.ram.lock? arc, _ = true))
  | .abortSession => inferInstanceAs (Decidable
      (∀ session ∈ shared.udp.incoming.lookup (packet.key source), _))
  | .enter | .readBlock | .readLock _ | .startBlock | .startLock _
  | .startSession | .dataCompleted | .dataSession | .dataFinishing
  | .batchCompleted | .batchSession | .batchFinishing | .finCompleted
  | .finSession | .finFinishing | .finInsert | .finEvict | .finRelease
  | .finFail _ => isTrue trivial

theorem Stage.holds_of_untaken {stage : Stage} (job object : Uuid)
    (untaken : stage.taken = false) : stage.holds job object = 0 := by
  cases stage <;> first | rfl | cases untaken

namespace Handler

def holds (job : Uuid) (handler : Handler) : Nat :=
  handler.stage.holds job handler.packet.objectId

end Handler

def Task.holds (job : Uuid) (task : Task) : Nat :=
  total (Handler.holds job) task.handlers

namespace Outcome

def holds (job : Uuid) (packet : Packet) : Outcome → Nat
  | .next stage => stage.holds job packet.objectId
  | _ => 0

theorem total_remaining {outcome : Outcome} (job : Uuid) (handler : Handler)
    (rest : List Handler) (orderly : outcome ≠ .panic) :
    total (Handler.holds job) (outcome.remaining handler rest) =
      outcome.holds job handler.packet +
        total (Handler.holds job) rest := by
  cases outcome with
  | panic => exact absurd rfl orderly
  | next stage => simp [remaining, holds, Handler.holds]
  | answer reply => simp [remaining, holds]
  | respond response => simp [remaining, holds]
  | fail message => simp [remaining, holds]

end Outcome

theorem RamBlock.readUdp_job {now : Nat} {packet : Packet} {block : RamBlock}
    {payload : List UInt8}
    (read : block.readUdp now packet = .ok payload) :
    block.handle.jobId = packet.objectId := by
  simp only [RamBlock.readUdp, RamBlock.authorize_bind_ok,
    ensure_bind_ok] at read
  exact read.2.1.1

namespace Handler

variable {config : Config} {blake3 : List UInt8 → Digest}
  {source : SocketAddr} {now instant : Nat} {choice : Choice}
  {shared next : Shared} {outcome : Outcome} {handler : Handler} {job : Uuid}

theorem Changes.count {udp after : UdpServerState}
    (changes : handler.Changes config source instant udp after)
    (start : handler.stage ≠ .startSession)
    (fin : handler.stage ≠ .finSession)
    (abort : handler.stage ≠ .abortSession) :
    after.incoming.count (·.object = job) =
      udp.incoming.count (·.object = job) := by
  cases changes with
  | same after incoming finishing => rw [incoming]
  | opened reserved stage => exact absurd stage start
  | stored before stored stage found grows =>
      rw [Table.count_erase (·.object = job) found]
      simp only [UdpServerState.setSession, Table.count_insert, grows.object]
  | taken session stage found full => exact absurd stage fin
  | released stage => rfl
  | aborted stage => exact absurd stage abort

theorem run_holds
    (ran : handler.run config blake3 source now instant choice shared =
      some (next, outcome)) (untaken : handler.stage.taken = false)
    (fin : handler.stage ≠ .finSession) :
    outcome.holds job handler.packet = 0 := by
  cases outcome with
  | next stage =>
      apply Stage.holds_of_untaken
      by_contra taken
      rcases run_taken ran (by simpa using taken) with old | ⟨stage, _⟩
      · rw [untaken] at old
        cases old
      · exact fin stage
  | _ => rfl

theorem total_unmetered_reading (source : SocketAddr) (udp : UdpServerState)
    (outcome : Outcome) {arc : Arc} (stage : handler.stage = .readLock arc) :
    total (Meter.weight job) (handler.unmetered source udp outcome) = 0 := by
  apply total_eq_zero
  intro meter member
  unfold unmetered at member
  rw [stage] at member
  obtain ⟨response, _, rfl⟩ := List.mem_map.mp member
  simp [Meter.weight]

theorem total_unmetered_untaken (source : SocketAddr) (udp : UdpServerState)
    (outcome : Outcome) (untaken : handler.stage.taken = false)
    (abort : handler.stage ≠ .abortSession) :
    total (Meter.weight job) (handler.unmetered source udp outcome) = 0 := by
  obtain ⟨packet, rest, stage⟩ := handler
  cases stage with
  | readLock arc => exact total_unmetered_reading source udp outcome rfl
  | abortSession => exact absurd rfl abort
  | finRelease => cases untaken
  | _ => rfl

theorem run_balanced_abort
    (stage : handler.stage = .abortSession)
    (settles : handler.stage.Settles source now shared handler.packet)
    (ran : handler.run config blake3 source now instant choice shared =
      some (next, outcome)) :
    next.udp.incoming.count (·.object = job) +
        outcome.holds job handler.packet +
        total (Meter.weight job) (handler.unmetered source shared.udp outcome) =
      shared.udp.incoming.count (·.object = job) + handler.holds job := by
  obtain ⟨packet, rest, _⟩ := handler
  obtain rfl : _ = Stage.abortSession := stage
  cases ran
  simp only [Handler.holds, Outcome.holds, Stage.holds, unmetered]
  cases found : shared.udp.incoming.lookup (packet.key source) with
  | none =>
      rw [Table.erase_of_lookup found,
        if_neg (AList.lookup_eq_none.mp found)]
      rfl
  | some session =>
      have named : session.object = packet.objectId :=
        settles session (by simp [found])
      have present : packet.key source ∈ shared.udp.incoming :=
        AList.lookup_isSome.mp (by simp [found])
      rw [if_pos present, Table.count_erase (·.object = job) found]
      simp [Meter.weight, named]

theorem run_balanced_fin
    (stage : handler.stage = .finSession)
    (ran : handler.run config blake3 source now instant choice shared =
      some (next, outcome)) :
    next.udp.incoming.count (·.object = job) +
        outcome.holds job handler.packet +
        total (Meter.weight job) (handler.unmetered source shared.udp outcome) =
      shared.udp.incoming.count (·.object = job) + handler.holds job := by
  obtain ⟨packet, rest, _⟩ := handler
  obtain rfl : _ = Stage.finSession := stage
  simp only [run, runFinSession] at ran
  split at ran
  · cases ran
    rfl
  · rename_i session found
    split at ran
    · cases ran
      rfl
    · split at ran
      · cases ran
        rfl
      · split at ran
        · cases ran
          rfl
        · cases ran
          rw [Table.count_erase (·.object = job) found]
          simp [UdpServerState.takeSession, Outcome.holds, Stage.holds,
            unmetered, Handler.holds]

theorem run_balanced
    (settles : handler.stage.Settles source now shared handler.packet)
    (ran : handler.run config blake3 source now instant choice shared =
      some (next, outcome)) (start : handler.stage ≠ .startSession) :
    next.udp.incoming.count (·.object = job) +
        outcome.holds job handler.packet +
        total (Meter.weight job) (handler.unmetered source shared.udp outcome) =
      shared.udp.incoming.count (·.object = job) + handler.holds job := by
  by_cases abort : handler.stage = .abortSession
  · exact run_balanced_abort abort settles ran
  by_cases fin : handler.stage = .finSession
  · exact run_balanced_fin fin ran
  rw [(run_changes ran).count start fin abort]
  by_cases untaken : handler.stage.taken = false
  · rw [run_holds ran untaken fin, total_unmetered_untaken source _ _ untaken
      abort, Handler.holds, Stage.holds_of_untaken _ _ untaken]
  -- FIN has taken its session and hands it on from stage to stage.
  rw [Nat.add_assoc]
  congr 1
  obtain ⟨packet, rest, stage⟩ := handler
  cases stage with
  | finBlock session =>
      simp only [run, Option.some.injEq, Prod.mk.injEq] at ran
      obtain ⟨_, rfl⟩ := ran
      have got : (shared.ram.get packet.blockId).isOk = true := settles
      split
      · rfl
      · rename_i failed
        rw [failed] at got
        cases got
      · rename_i failed
        rw [failed] at got
        cases got
  | finWrite session arc =>
      obtain ⟨block, free, ran⟩ := Option.bind_eq_some_iff.mp ran
      obtain ⟨named, finishes⟩ := settles
      have finished := finishes block free
      split at ran
      · cases ran
        simp [Outcome.holds, Handler.holds, Stage.holds, unmetered, named]
      · rename_i failed
        rw [failed] at finished
        cases finished
      · rename_i failed
        rw [failed] at finished
        cases finished
  | finEvict =>
      simp only [run, runFinEvict] at ran
      split at ran
      · obtain ⟨oldest, _, ran⟩ := Option.bind_eq_some_iff.mp ran
        split at ran <;> cases ran
        rfl
      · cases ran
        rfl
  | finInsert | finFail message =>
      cases ran
      rfl
  | finRelease =>
      cases ran
      simp [Outcome.holds, Handler.holds, Stage.holds, unmetered, Meter.weight]
  | _ => exact absurd rfl untaken

theorem run_orderly
    (settles : handler.stage.Settles source now shared handler.packet)
    (ran : handler.run config blake3 source now instant choice shared =
      some (next, outcome)) : outcome ≠ .panic := by
  rintro rfl
  obtain ⟨session, arc, block, stage, free, panics⟩ :=
    run_panic.mp ⟨_, ran, rfl⟩
  rw [stage] at settles
  have finished := settles.2 block free
  rw [panics] at finished
  cases finished

theorem run_startSession (stage : handler.stage = .startSession)
    (ran : handler.run config blake3 source now instant choice shared =
      some (next, outcome)) :
    next.udp = (shared.udp.startSession config instant choice.reserved source
      handler.packet).1 := by
  obtain ⟨packet, rest, _⟩ := handler
  obtain rfl : _ = Stage.startSession := stage
  simp only [run, runStartSession, Option.some.injEq, Prod.mk.injEq] at ran
  rw [← ran.1]

theorem startSession_balanced {udp : UdpServerState} {metrics : Metrics}
    {reserved : Bool} (stage : handler.stage = .startSession)
    (counted : udp.incoming.count (·.object = job) ≤ metrics.active job) :
    (handler.startMetrics config source instant udp
          (udp.startSession config instant reserved source handler.packet).1
          metrics).active job +
        udp.incoming.count (·.object = job) =
      metrics.active job +
        (udp.startSession config instant reserved source
          handler.packet).1.incoming.count (·.object = job) := by
  have split := Table.count_retain (fun session : IncomingSession =>
    decide (session.object = job)) (fun _ session =>
      decide (instant - session.lastActivity < incomingExpiryMs config))
    udp.incoming
  have expired : (udp.expiredObjects config instant).count job =
      (udp.incoming.entries.filter fun entry =>
        !decide (instant - entry.2.lastActivity <
          incomingExpiryMs config)).countP (·.2.object = job) := by
    unfold UdpServerState.expiredObjects List.count
    rw [List.countP_map]
    rfl
  rw [← expired] at split
  have kept : (udp.expireIncoming config instant).incoming.count
      (·.object = job) + (udp.expiredObjects config instant).count job =
        udp.incoming.count (·.object = job) := split.symm
  unfold startMetrics UdpServerState.startSession
  simp only [if_pos stage]
  split
  · rename_i present
    rw [if_neg fun fresh => fresh.1 present, Metrics.active_removeSessions]
    simp only
    omega
  · rename_i absent
    split
    · rw [if_neg fun fresh => absent fresh.2, Metrics.active_removeSessions]
      simp only
      omega
    · split
      · rw [if_neg fun fresh => absent fresh.2,
          Metrics.active_removeSessions]
        simp only
        omega
      · rw [if_pos ⟨absent, (AList.mem_insert _).mpr (.inl rfl)⟩,
          Metrics.active_addSession, Metrics.active_removeSessions,
          Table.count_insert, Table.erase_of_lookup
            (AList.lookup_eq_none.mpr absent)]
        simp only [decide_eq_true_eq]
        omega

end Handler

namespace MeteredDaemon

variable {config : Config} {blake3 : List UInt8 → Digest} {self : Identity}
  {state next : MeteredDaemon} {event : MeteredEvent}

/-- The steps that keep the gauge exact: no transfer is dropped, no response is
uncounted before it is counted, and FIN and ABORT settle. -/
def Settles (state : MeteredDaemon) : MeteredEvent → Prop
  | .daemon (.handle index _) =>
      ∀ entry ∈ state.daemon.running index,
        entry.2.stage.Settles entry.1 state.daemon.now state.daemon.shared
          entry.2.packet
  | .uncount index => ∀ meter ∈ state.pending[index]?, meter.Counted
  | .drop _ => False
  | _ => True

instance decidableSettles (state : MeteredDaemon) :
    (event : MeteredEvent) → Decidable (state.Settles event)
  | .daemon (.handle index _) => inferInstanceAs
      (Decidable (∀ entry ∈ state.daemon.running index, _))
  | .uncount index => inferInstanceAs
      (Decidable (∀ meter ∈ state.pending[index]?, meter.Counted))
  | .drop _ => isFalse id
  | .daemon (.receive _ _) | .daemon (.request _) | .daemon (.responded _)
  | .daemon (.clock _ _) | .transfer _ | .count _ => isTrue trivial

def held (state : MeteredDaemon) (job : Uuid) : Nat :=
  total (Task.holds job) state.daemon.tasks

/-- The gauge counts the sessions, those that FIN holds, and what is still to
be uncounted. -/
structure Exact (state : MeteredDaemon) : Prop where
  gauge : ∀ job, state.metrics.active job =
    state.sessions job + state.held job +
      total (Meter.weight job) state.pending
  orderly : ∀ meter ∈ state.pending, meter.Orderly

theorem Exact.of_daemon (exact : state.Exact) {daemon : Daemon}
    (incoming : daemon.shared.udp.incoming =
      state.daemon.shared.udp.incoming)
    (tasks : ∀ job, total (Task.holds job) daemon.tasks = state.held job) :
    Exact { state with daemon := daemon } := by
  refine ⟨?_, exact.orderly⟩
  intro job
  rw [exact.gauge job, sessions, sessions, incoming, held, held, tasks job,
    held]

theorem held_received (datagrams : List Datagram) (job : Uuid) :
    total (Handler.holds job) (udpDatagrams datagrams) = 0 := by
  apply total_eq_zero
  intro handler member
  apply Stage.holds_of_untaken
  rcases (udpDatagrams_spec member).2 with ⟨stage, _⟩ | ⟨stage, _⟩
  · rw [stage]
    rfl
  · rw [stage]
    rfl

theorem handle_cases {index : Nat} {choice : Choice}
    (handled : state.handle config blake3 index choice = some next) :
    ∃ source handler rest outcome,
      state.daemon.running index = some (source, handler) ∧
        state.daemon.tasks[index]? = some ⟨source, handler :: rest⟩ ∧
        handler.run config blake3 source state.daemon.now
          state.daemon.instant choice state.daemon.shared =
            some (next.daemon.shared, outcome) ∧
        next.daemon.tasks = state.daemon.tasks.set index
          ⟨source, outcome.remaining handler rest⟩ ∧
        next.metrics = handler.startMetrics config source state.daemon.instant
          state.daemon.shared.udp next.daemon.shared.udp state.metrics ∧
        next.pending = state.pending ++
          handler.unmetered source state.daemon.shared.udp outcome := by
  obtain ⟨⟨source, handler⟩, running, handled⟩ :=
    Option.bind_eq_some_iff.mp handled
  obtain ⟨⟨shared, outcome⟩, ran, handled⟩ :=
    Option.bind_eq_some_iff.mp handled
  obtain ⟨daemon, stepped, done⟩ := Option.bind_eq_some_iff.mp handled
  cases done
  obtain ⟨origin, other, rest, later, result, found, again, rfl⟩ :=
    Daemon.handle_eq_some.mp stepped
  cases running.symm.trans (Daemon.running_of_tasks found)
  cases ran.symm.trans again
  exact ⟨source, handler, rest, outcome, running, found, ran, rfl, rfl, rfl⟩

theorem unmetered_orderly {source : SocketAddr} {now instant : Nat}
    {choice : Choice} {shared later : Shared} {handler : Handler}
    {outcome : Outcome}
    (ran : handler.run config blake3 source now instant choice shared =
      some (later, outcome)) :
    ∀ meter ∈ handler.unmetered source shared.udp outcome, meter.Orderly := by
  intro meter member
  obtain ⟨packet, rest, stage⟩ := handler
  unfold Handler.unmetered at member
  split at member
  · rename_i arc stage
    simp only at stage
    subst stage
    obtain ⟨block, _, ran⟩ := Option.bind_eq_some_iff.mp ran
    split at ran
    · cases ran
      cases member
    · cases ran
      cases member
    · rename_i payload read
      split at ran
      · cases ran
        obtain rfl := List.mem_singleton.mp member
        exact ⟨(RamBlock.readUdp_job read).symm, rfl⟩
      · cases ran
        cases member
  · obtain rfl := List.mem_singleton.mp member
    trivial
  · split at member
    · obtain rfl := List.mem_singleton.mp member
      trivial
    · cases member
  · cases member

theorem Exact.handles (exact : state.Exact) {index : Nat} {choice : Choice}
    (settles : state.Settles (.daemon (.handle index choice)))
    (handled : state.handle config blake3 index choice = some next) :
    next.Exact := by
  obtain ⟨source, handler, rest, outcome, running, found, ran, tasks,
    metrics, pending⟩ := handle_cases handled
  have settled : handler.stage.Settles source state.daemon.now
      state.daemon.shared handler.packet := settles _ running
  have orderly := Handler.run_orderly settled ran
  refine ⟨?_, ?_⟩
  · intro job
    have gauge := exact.gauge job
    have set := @total_set _ (Task.holds job) _ _ _ found
      ⟨source, outcome.remaining handler rest⟩
    have before : Task.holds job ⟨source, handler :: rest⟩ =
        handler.holds job + total (Handler.holds job) rest :=
      total_cons _ _ _
    have after : Task.holds job ⟨source, outcome.remaining handler rest⟩ =
        outcome.holds job handler.packet +
          total (Handler.holds job) rest :=
      outcome.total_remaining job handler rest orderly
    rw [before, after, ← tasks] at set
    rw [pending, total_append, metrics]
    unfold sessions held at gauge ⊢
    by_cases start : handler.stage = .startSession
    · have opened : next.daemon.shared.udp =
          (state.daemon.shared.udp.startSession config state.daemon.instant
            choice.reserved source handler.packet).1 :=
        Handler.run_startSession start ran
      have balanced := @Handler.startSession_balanced config source
        state.daemon.instant handler job state.daemon.shared.udp
        state.metrics choice.reserved start (by omega)
      have holds : outcome.holds job handler.packet = 0 :=
        Handler.run_holds ran (by rw [start]; rfl) (by simp [start])
      have own : handler.holds job = 0 := by
        rw [Handler.holds, start]
        rfl
      have pending : total (Meter.weight job) (handler.unmetered source
          state.daemon.shared.udp outcome) = 0 := by
        rw [Handler.unmetered, start]
        rfl
      rw [← opened] at balanced
      omega
    · have balanced := @Handler.run_balanced _ _ _ _ _ _ _ _ _ _ job
        settled ran start
      rw [Handler.startMetrics, if_neg start]
      omega
  · intro meter member
    rw [pending] at member
    rcases List.mem_append.mp member with old | new
    · exact exact.orderly meter old
    · exact unmetered_orderly ran meter new

theorem Exact.counts (exact : state.Exact) {index : Nat}
    (counted : state.count index = some next) : next.Exact := by
  unfold count at counted
  split at counted
  · rename_i object job served found
    cases counted
    obtain ⟨same, unserved⟩ := exact.orderly _ (List.mem_of_getElem? found)
    subst same unserved
    refine ⟨?_, ?_⟩
    · intro other
      have gauge := exact.gauge other
      have set := @total_set _ (Meter.weight other) _ _ _ found
        (.reading object object true false)
      simp only [Meter.weight] at set
      unfold sessions held at gauge ⊢
      simp only [Metrics.active_addSession]
      simp at set
      simp
      omega
    · intro meter member
      rcases List.mem_or_eq_of_mem_set member with old | rfl
      · exact exact.orderly meter old
      · exact ⟨rfl, rfl⟩
  · cases counted

theorem Exact.closes (exact : state.Exact) {index : Nat} {meter : Meter}
    {object : Uuid} (found : state.pending[index]? = some meter)
    (weight : ∀ job, meter.weight job = if object = job then 1 else 0) :
    Exact { state with
      metrics := state.metrics.removeSession object
      pending := state.pending.eraseIdx index } := by
  refine ⟨?_, ?_⟩
  · intro job
    have gauge := exact.gauge job
    have erased := @total_eraseIdx _ (Meter.weight job) _ _ _ found
    rw [weight job] at erased
    unfold sessions held at gauge ⊢
    rw [Metrics.active_removeSession]
    simp only
    omega
  · intro other member
    exact exact.orderly other (List.mem_of_mem_eraseIdx member)

theorem Exact.uncounts (exact : state.Exact) {index : Nat}
    (settles : state.Settles (.uncount index))
    (uncounted : state.uncount index = some next) : next.Exact := by
  unfold uncount at uncounted
  split at uncounted
  · rename_i object job counted found
    have counts : counted = true := settles _ found
    obtain ⟨same, _⟩ := exact.orderly _ (List.mem_of_getElem? found)
    subst same counts
    cases uncounted
    exact exact.closes found (by simp [Meter.weight])
  · rename_i job found
    cases uncounted
    exact exact.closes found (by simp [Meter.weight])
  · rename_i object found
    cases uncounted
    exact exact.closes found (by simp [Meter.weight])
  · cases uncounted

theorem step_exact (exact : state.Exact) (settles : state.Settles event)
    (stepped : state.step config blake3 self event = some next) :
    next.Exact := by
  cases event with
  | daemon event =>
      cases event with
      | handle index choice => exact exact.handles settles stepped
      | receive source datagrams =>
          cases stepped
          refine exact.of_daemon ?_ ?_
          · rfl
          · intro job
            rw [held, total_append, total_cons, Task.holds,
              held_received datagrams job]
            rfl
      | request event =>
          obtain ⟨daemon, requested, done⟩ :=
            Option.bind_eq_some_iff.mp stepped
          obtain ⟨ram, _, same⟩ := Option.bind_eq_some_iff.mp requested
          cases same
          cases done
          exact exact.of_daemon rfl fun _ => rfl
      | responded response =>
          simp only [step] at stepped
          split at stepped
          · obtain ⟨daemon, responded, done⟩ :=
              Option.bind_eq_some_iff.mp stepped
            simp only [Daemon.step] at responded
            split at responded <;> cases responded
            cases done
            exact exact.of_daemon rfl fun _ => rfl
          · cases stepped
      | clock now instant =>
          obtain ⟨daemon, passed, done⟩ := Option.bind_eq_some_iff.mp stepped
          simp only [Daemon.step] at passed
          split at passed <;> cases passed
          cases done
          exact exact.of_daemon rfl fun _ => rfl
  | transfer job =>
      cases stepped
      refine ⟨?_, ?_⟩
      · intro other
        have gauge := exact.gauge other
        unfold sessions held at gauge ⊢
        simp only [Metrics.active_addSession, total_append, total_cons,
          total_nil, Meter.weight]
        omega
      · intro meter member
        rcases List.mem_append.mp member with old | new
        · exact exact.orderly meter old
        · obtain rfl := List.mem_singleton.mp new
          trivial
  | count index => exact exact.counts stepped
  | uncount index => exact exact.uncounts settles stepped
  | drop index => exact settles.elim

theorem empty_exact : Exact {} where
  gauge := fun _ => rfl
  orderly := by
    intro meter member
    cases member

/-- In a daemon that is idle, the gauge of a job is the number of its sessions,
as long as no step has lost one. -/
theorem active_sessions_exact (config : Config)
    (blake3 : List UInt8 → Digest) (self : Identity)
    (events : List MeteredEvent) {final : MeteredDaemon}
    (settles : Along (step config blake3 self) Settles {} events)
    (ran : run (step config blake3 self) {} events = some final)
    (idle : final.Idle) (job : Uuid) :
    final.metrics.active job = final.sessions job ∧
      ((∀ key, ∀ session ∈ final.daemon.shared.udp.incoming.lookup key,
        session.object ≠ job) → final.metrics.active job = 0) := by
  have exact := run_invariant_along Exact
    (fun _ _ _ exact settles stepped => step_exact exact settles stepped)
    empty_exact settles ran
  obtain ⟨tasks, _, pending⟩ := idle
  have held : final.held job = 0 := by
    apply total_eq_zero
    intro task member
    rw [Task.holds, tasks task member, total_nil]
  have gauge : final.metrics.active job = final.sessions job := by
    rw [exact.gauge job, held, pending]
    rfl
  refine ⟨gauge, ?_⟩
  intro ended
  rw [gauge, sessions, Table.count, List.countP_eq_zero]
  intro entry member
  have other := ended entry.1 entry.2 (Table.mem_entries.mp member)
  simpa using other

/-! A write that completes beside one that goes on, and runs that lose a
session. -/

def abcGauged : List MeteredEvent :=
  let events : List DaemonEvent := Daemon.abcSession ++
    [.receive 4 [.ok (abcWrite.startPacket {} abcHash)],
      .handle 2 {}, .handle 2 {}, .handle 2 {}, .handle 2 {},
      .receive 1 [.ok (abcWrite.finPacket {} abcHash)],
      .handle 3 {}, .handle 3 {}, .handle 3 {}, .handle 3 {}, .handle 3 {},
      .handle 3 {}, .handle 3 {}, .handle 3 {}]
  events.map .daemon ++ [.uncount 0]

theorem active_sessions_exact_abc :
    ∃ final, run (step {} abcHash ⟨2, 20⟩) {} abcGauged = some final ∧
      final.sessions 3 = 1 ∧ final.metrics.active 3 = final.sessions 3 := by
  have done : (run (step {} abcHash ⟨2, 20⟩) {} abcGauged).map
      (fun final => (decide final.Idle, final.sessions 3)) =
        some (true, 1) := by
    decide +kernel
  obtain ⟨final, ran, found⟩ := Option.map_eq_some_iff.mp done
  have idle : final.Idle := of_decide_eq_true (congrArg Prod.fst found)
  have settles : Along (step {} abcHash ⟨2, 20⟩) Settles {} abcGauged := by
    decide +kernel
  exact ⟨final, ran, congrArg Prod.snd found,
    (active_sessions_exact {} abcHash ⟨2, 20⟩ abcGauged settles ran idle
      3).1⟩

def abcUnwritten : List MeteredEvent :=
  let events : List DaemonEvent := Daemon.abcSession ++
    [.request (.remove 7 0 5),
      .receive 1 [.ok (abcWrite.finPacket {} abcHash)],
      .handle 2 {}, .handle 2 {}, .handle 2 {}, .handle 2 {}, .handle 2 {}]
  events.map .daemon

def abcMisnamed : List MeteredEvent :=
  let events : List DaemonEvent := Daemon.abcSession ++
    [.receive 1 [.ok { abcWrite.abortPacket with objectId := 4 }],
      .handle 2 {}, .handle 2 {}]
  events.map .daemon ++ [.uncount 0]

/-- A read response ends before the handler of its request has counted it. -/
def abcServedFirst : List MeteredEvent :=
  let request : ReadPayload := ⟨abcReady, 9, 0, 3⟩
  let events : List DaemonEvent := Daemon.abcUpload ++
    [.receive 1 [.ok request.requestPacket],
      .handle 0 {}, .handle 0 {}, .handle 0 {}]
  events.map .daemon ++ [.uncount 0, .count 0, .daemon (.responded 0)]

/-- The connection that waits for a transfer reaches its deadline. -/
def abcDropped : List MeteredEvent := [.transfer 3, .drop 0]

/-- A run after which an idle daemon counts a session that it does not have. -/
def Leaks (events : List MeteredEvent) : Prop :=
  ∃ final, run (step {} abcHash ⟨2, 20⟩) {} events = some final ∧
    final.Idle ∧ final.sessions 3 = 0 ∧ final.metrics.active 3 = 1

theorem leaks_of_run {events : List MeteredEvent}
    (found : (run (step {} abcHash ⟨2, 20⟩) {} events).map (fun final =>
      (decide final.Idle, final.sessions 3, final.metrics.active 3)) =
        some (true, 0, 1)) : Leaks events := by
  obtain ⟨final, ran, found⟩ := Option.map_eq_some_iff.mp found
  simp only [Prod.mk.injEq, decide_eq_true_eq] at found
  exact ⟨final, ran, found⟩

theorem active_sessions_leak :
    Leaks abcUnwritten ∧ Leaks abcMisnamed ∧ Leaks abcServedFirst ∧
      Leaks abcDropped := by
  refine ⟨?_, ?_, ?_, ?_⟩
  · exact leaks_of_run (by decide +kernel)
  · exact leaks_of_run (by decide +kernel)
  · exact leaks_of_run (by decide +kernel)
  · exact leaks_of_run (by decide +kernel)

end MeteredDaemon

end TrainPool
