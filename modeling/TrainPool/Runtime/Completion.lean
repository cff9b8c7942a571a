import TrainPool.Runtime.Sessions
import TrainPool.Transport.Sender

namespace TrainPool

open Execution

/-! The completion of a write session under concurrent handlers: what the
handlers of late DATA and FIN datagrams answer once a FIN has taken the session
out of `incoming`. -/

/-- The DATA and FIN datagrams of the transfer whose session starts at
`base`. -/
def Packet.Belongs (config : Config) (base : Nat) (packet : Packet) : Prop :=
  packet.kind = .data ∧
      packet.offset = base + packet.sequenceId * config.udpPayloadBytes ∨
    packet.kind = .fin ∧ packet.offset = base

instance (config : Config) (base : Nat) (packet : Packet) :
    Decidable (packet.Belongs config base) :=
  inferInstanceAs (Decidable (_ ∨ _))

/-- A handler that found its transfer not completed and has yet to look for the
session in `incoming` or `finishing`. -/
def Stage.between : Stage → Bool
  | .dataSession | .dataFinishing | .batchSession | .batchFinishing
  | .finSession | .finFinishing => true
  | _ => false

def Stage.failing : Stage → Bool
  | .finFail _ => true
  | _ => false

namespace Daemon

/-- No handler of the session is at a stage that satisfies `bad`. -/
def Without (bad : Stage → Bool) (key : SessionKey) (daemon : Daemon) :
    Prop :=
  ∀ task ∈ daemon.tasks, ∀ handler ∈ task.handlers,
    handler.packet.key task.source = key → bad handler.stage = false

instance (bad : Stage → Bool) (key : SessionKey) (daemon : Daemon) :
    Decidable (daemon.Without bad key) :=
  inferInstanceAs (Decidable (∀ task ∈ daemon.tasks,
    ∀ handler ∈ task.handlers, _ → _))

def Completed (key : SessionKey) (base : Nat) (daemon : Daemon) : Prop :=
  (daemon.shared.udp.completed.lookup (key, base)).isSome

instance (key : SessionKey) (base : Nat) (daemon : Daemon) :
    Decidable (daemon.Completed key base) :=
  inferInstanceAs (Decidable (_ = true))

structure Live (key : SessionKey) (base : Nat) (daemon : Daemon) : Prop where
  session : (daemon.shared.udp.incoming.lookup key).map (·.baseOffset) =
    some base
  unfinished : key ∉ daemon.shared.udp.finishing ∧ ¬daemon.Completed key base
  idle : daemon.Without (fun _ => true) key

structure Taken (key : SessionKey) (daemon : Daemon) : Prop where
  gone : daemon.shared.udp.incoming.lookup key = none
  finishing : key ∈ daemon.shared.udp.finishing

section

variable (config : Config) (blake3 : List UInt8 → Digest) (self : Identity)
  (key : SessionKey) (base : Nat)

/-- Only DATA and FIN datagrams of its transfer reach the session. -/
def Receives : DaemonEvent → Prop
  | .receive source datagrams => ∀ packet ∈ validPackets datagrams,
      packet.key source = key → packet.Belongs config base
  | _ => True

instance : (event : DaemonEvent) → Decidable (Receives config key base event)
  | .receive _ datagrams => inferInstanceAs
      (Decidable (∀ packet ∈ validPackets datagrams, _ → _))
  | .handle _ _ | .request _ | .responded _ | .clock _ _ => isTrue trivial

/-- The finalization does not fail, and its completion is neither evicted nor
aged out. -/
def Succeeds (daemon : Daemon) (event : DaemonEvent) : Prop :=
  ∀ next ∈ daemon.step config blake3 self event,
    next.Without Stage.failing key ∧
      (daemon.Completed key base → next.Completed key base)

instance (daemon : Daemon) (event : DaemonEvent) :
    Decidable (Succeeds config blake3 self key base daemon event) :=
  inferInstanceAs (Decidable (∀ next ∈ _, _ ∧ (_ → _)))

/-- A FIN gives the session up only when no other handler of it stands between
its look at `completed` and its look at `incoming` and `finishing`. -/
def ReleasesLast (daemon : Daemon) : DaemonEvent → Prop
  | .handle index _ => ∀ task ∈ daemon.tasks[index]?,
      ∀ handler ∈ task.handlers.head?,
        handler.packet.key task.source = key →
          handler.stage = .finRelease →
          daemon.Without Stage.between key
  | _ => True

instance (daemon : Daemon) :
    (event : DaemonEvent) → Decidable (ReleasesLast key daemon event)
  | .handle index _ => inferInstanceAs (Decidable
      (∀ task ∈ daemon.tasks[index]?, ∀ handler ∈ task.handlers.head?,
        _ → _ → _))
  | .receive _ _ | .request _ | .responded _ | .clock _ _ => isTrue trivial

/-- No datagram of the session is answered with an error between two states. -/
def Unfailing (earlier later : Daemon) : Prop :=
  ∀ reply ∈ later.sent.drop earlier.sent.length,
    reply.1 = key.source → reply.2.transferId = key.transfer →
      reply.2.blockId = key.block →
        reply.2.kind = .ack ∨ reply.2.kind = .complete

instance (earlier later : Daemon) :
    Decidable (Unfailing key earlier later) :=
  inferInstanceAs (Decidable (∀ reply ∈ _, _ → _ → _ → _))

end

end Daemon

/-- What a handler of the session knows of its packet. -/
def Stage.Serves (config : Config) (base : Nat) (packet : Packet) :
    Stage → Prop
  | .enter => packet.Belongs config base
  | .dataCompleted | .dataSession | .dataFinishing | .batchCompleted
  | .batchSession | .batchFinishing =>
      packet.offset = base + packet.sequenceId * config.udpPayloadBytes
  | .finCompleted | .finSession | .finFinishing | .finBlock _
  | .finWrite _ _ | .finInsert | .finEvict | .finRelease | .finFail _ =>
      packet.offset = base
  | .readBlock | .readLock _ | .startBlock | .startLock _ | .startSession
  | .abortSession => False

section

variable {config : Config} {blake3 : List UInt8 → Digest} {self : Identity}
  {key : SessionKey} {base : Nat}

theorem completedBase_of_offset {packet : Packet}
    (offset : packet.offset =
      base + packet.sequenceId * config.udpPayloadBytes) :
    completedBase config packet = some base := by
  simp [completedBase, offset]

theorem isCompleted_of_offset {udp : UdpServerState} {source : SocketAddr}
    {packet : Packet} (same : packet.key source = key)
    (offset : packet.offset =
      base + packet.sequenceId * config.udpPayloadBytes) :
    udp.isCompleted config source packet =
      (udp.completed.lookup (key, base)).isSome := by
  subst same
  simp [UdpServerState.isCompleted, completedBase_of_offset offset]

namespace Handler

variable {source : SocketAddr} {now instant : Nat} {choice : Choice}
  {shared next : Shared} {handler : Handler}

/-- Where a handler of the session can go: it looks for the session only after
it missed the completion, and gives it up only after it recorded it. -/
theorem serves_next {stage : Stage} (same : handler.packet.key source = key)
    (serves : handler.stage.Serves config base handler.packet)
    (ran : handler.run config blake3 source now instant choice shared =
      some (next, .next stage)) :
    stage.Serves config base handler.packet ∧
      (stage = .finEvict →
        (next.udp.completed.lookup (key, base)).isSome) ∧
      (stage = .finRelease → handler.stage = .finEvict) ∧
      (stage.between = true → handler.stage.between = true ∨
        shared.udp.completed.lookup (key, base) = none) := by
  obtain ⟨packet, rest, here⟩ := handler
  dsimp only at same serves ⊢
  cases here with
  | enter =>
      simp only [run, Option.some.injEq, Prod.mk.injEq] at ran
      rcases serves with ⟨kind, offset⟩ | ⟨kind, offset⟩
      · simp only [dispatch, kind, Outcome.next.injEq] at ran
        obtain ⟨_, rfl⟩ := ran
        exact ⟨offset, by simp [Stage.between]⟩
      · simp only [dispatch, kind, Outcome.next.injEq] at ran
        obtain ⟨_, rfl⟩ := ran
        exact ⟨offset, by simp [Stage.between]⟩
  | dataCompleted | batchCompleted =>
      simp only [run, Option.some.injEq, Prod.mk.injEq] at ran
      replace ran := ran.2
      split at ran <;> cases ran
      rename_i missed
      refine ⟨serves, by simp, by simp, ?_⟩
      rw [isCompleted_of_offset same serves] at missed
      exact fun _ => .inr (by simpa using missed)
  | dataSession =>
      simp only [run, runDataSession] at ran
      split at ran
      · cases ran
        exact ⟨serves, by simp [Stage.between]⟩
      · simp only [Option.some.injEq, Prod.mk.injEq] at ran
        replace ran := ran.2
        split at ran <;> cases ran
  | batchSession =>
      simp only [run, runBatchSession] at ran
      split at ran
      · cases ran
        exact ⟨serves, by simp [Stage.between]⟩
      · simp only [Option.some.injEq, Prod.mk.injEq] at ran
        replace ran := ran.2
        split at ran <;> cases ran
  | dataFinishing | batchFinishing | finFinishing =>
      simp only [run, Option.some.injEq, Prod.mk.injEq] at ran
      replace ran := ran.2
      split at ran <;> cases ran
  | finCompleted =>
      simp only [run, Option.some.injEq, Prod.mk.injEq] at ran
      replace ran := ran.2
      split at ran <;> cases ran
      rename_i missed
      refine ⟨serves, by simp, by simp, ?_⟩
      rw [same, show packet.offset = base from serves] at missed
      exact fun _ => .inr (by simpa using missed)
  | finSession =>
      simp only [run, runFinSession] at ran
      split at ran
      · cases ran
        exact ⟨serves, by simp [Stage.between]⟩
      · split at ran
        · cases ran
        · split at ran
          · cases ran
          · split at ran <;> cases ran
            exact ⟨serves, by simp [Stage.between]⟩
  | finBlock session =>
      simp only [run, Option.some.injEq, Prod.mk.injEq] at ran
      replace ran := ran.2
      split at ran <;> cases ran
      · exact ⟨serves, by simp [Stage.between]⟩
      · exact ⟨serves, by simp [Stage.between]⟩
  | finWrite session arc =>
      obtain ⟨block, _, ran⟩ := Option.bind_eq_some_iff.mp ran
      split at ran <;> cases ran
      · exact ⟨serves, by simp [Stage.between]⟩
      · exact ⟨serves, by simp [Stage.between]⟩
  | finInsert =>
      cases ran
      refine ⟨serves, ?_, by simp, by simp [Stage.between]⟩
      simp [same, show packet.offset = base from serves]
  | finEvict =>
      simp only [run, runFinEvict] at ran
      split at ran
      · obtain ⟨oldest, _, ran⟩ := Option.bind_eq_some_iff.mp ran
        split at ran <;> cases ran
        exact ⟨serves, by simp [Stage.between]⟩
      · cases ran
        exact ⟨serves, by simp [Stage.between]⟩
  | finRelease => cases ran
  | finFail message => cases ran
  | readBlock | readLock arc | startBlock | startLock arc | startSession |
      abortSession => exact serves.elim

/-- After the session is taken, its handlers answer with acknowledgements and
completions only, as long as `finishing` covers those that missed the
completion. -/
theorem taken_run {outcome : Outcome}
    (same : handler.packet.key source = key)
    (serves : handler.stage.Serves config base handler.packet)
    (gone : shared.udp.incoming.lookup key = none)
    (covered : handler.stage.between = true → key ∈ shared.udp.finishing)
    (succeeds : handler.stage.failing = false)
    (ran : handler.run config blake3 source now instant choice shared =
      some (next, outcome)) :
    next.udp.incoming.lookup key = none ∧
      (handler.stage ≠ .finRelease →
        (key ∈ next.udp.finishing ↔ key ∈ shared.udp.finishing)) ∧
      ∀ reply ∈ outcome.replies handler.packet,
        reply.kind = .ack ∨ reply.kind = .complete := by
  obtain ⟨packet, rest, here⟩ := handler
  dsimp only at same serves succeeds covered ⊢
  subst same
  cases here with
  | enter =>
      simp only [run, Option.some.injEq, Prod.mk.injEq] at ran
      obtain ⟨rfl, rfl⟩ := ran
      refine ⟨gone, fun _ => Iff.rfl, ?_⟩
      rcases serves with ⟨kind, _⟩ | ⟨kind, _⟩
      · simp [dispatch, kind, Outcome.replies]
      · simp [dispatch, kind, Outcome.replies]
  | dataCompleted | batchCompleted =>
      simp only [run, Option.some.injEq, Prod.mk.injEq] at ran
      obtain ⟨rfl, rfl⟩ := ran
      refine ⟨gone, fun _ => Iff.rfl, ?_⟩
      split <;> simp [Outcome.replies]
  | dataSession =>
      simp only [run, runDataSession, gone] at ran
      cases ran
      exact ⟨gone, fun _ => Iff.rfl, by simp [Outcome.replies]⟩
  | batchSession =>
      simp only [run, runBatchSession, gone] at ran
      cases ran
      exact ⟨gone, fun _ => Iff.rfl, by simp [Outcome.replies]⟩
  | finSession =>
      simp only [run, runFinSession, gone] at ran
      cases ran
      exact ⟨gone, fun _ => Iff.rfl, by simp [Outcome.replies]⟩
  | dataFinishing | batchFinishing | finFinishing =>
      simp only [run, covered rfl, if_true] at ran
      cases ran
      exact ⟨gone, fun _ => Iff.rfl, by simp [Outcome.replies]⟩
  | finCompleted =>
      simp only [run, Option.some.injEq, Prod.mk.injEq] at ran
      obtain ⟨rfl, rfl⟩ := ran
      refine ⟨gone, fun _ => Iff.rfl, ?_⟩
      split <;> simp [Outcome.replies]
  | finBlock session =>
      simp only [run, Option.some.injEq, Prod.mk.injEq] at ran
      obtain ⟨rfl, rfl⟩ := ran
      refine ⟨gone, fun _ => Iff.rfl, ?_⟩
      split <;> simp [Outcome.replies]
  | finWrite session arc =>
      obtain ⟨block, _, ran⟩ := Option.bind_eq_some_iff.mp ran
      split at ran <;> cases ran <;>
        exact ⟨gone, fun _ => Iff.rfl, by simp [Outcome.replies]⟩
  | finInsert =>
      cases ran
      exact ⟨gone, fun _ => Iff.rfl, by simp [Outcome.replies]⟩
  | finEvict =>
      simp only [run, runFinEvict] at ran
      split at ran
      · obtain ⟨oldest, _, ran⟩ := Option.bind_eq_some_iff.mp ran
        split at ran <;> cases ran
        exact ⟨gone, fun _ => Iff.rfl, by simp [Outcome.replies]⟩
      · cases ran
        exact ⟨gone, fun _ => Iff.rfl, by simp [Outcome.replies]⟩
  | finRelease =>
      cases ran
      exact ⟨gone, by simp, by simp [Outcome.replies]⟩
  | finFail message => cases succeeds
  | readBlock | readLock arc | startBlock | startLock arc | startSession |
      abortSession => exact serves.elim

end Handler

namespace Daemon

/-- The handlers of the session are those of its DATA and FIN datagrams, and
one that is about to give it up has recorded its completion. -/
structure Served (config : Config) (key : SessionKey) (base : Nat)
    (daemon : Daemon) : Prop where
  coherent : daemon.Coherent
  serves : ∀ source handler, daemon.Handles source handler →
    handler.packet.key source = key →
      handler.stage.Serves config base handler.packet
  recorded : ∀ source handler, daemon.Handles source handler →
    handler.packet.key source = key →
      handler.stage = .finEvict ∨ handler.stage = .finRelease →
        daemon.Completed key base
  succeeds : daemon.Without Stage.failing key

structure Shielded (config : Config) (key : SessionKey) (base : Nat)
    (daemon : Daemon) : Prop where
  served : daemon.Served config key base
  gone : daemon.shared.udp.incoming.lookup key = none
  covered : key ∈ daemon.shared.udp.finishing ∨
    daemon.Completed key base ∧ daemon.Without Stage.between key

theorem without_iff {bad : Stage → Bool} {daemon : Daemon} :
    daemon.Without bad key ↔ ∀ source handler,
      daemon.Handles source handler → handler.packet.key source = key →
        bad handler.stage = false := by
  constructor
  · intro without source handler given same
    obtain ⟨task, member, rfl, listed⟩ := given
    exact without task member handler listed same
  · intro without task member handler listed same
    exact without task.source handler ⟨task, member, rfl, listed⟩ same

theorem Live.served {daemon : Daemon} (live : daemon.Live key base)
    (coherent : daemon.Coherent) : daemon.Served config key base := by
  have idle := without_iff.mp live.idle
  refine ⟨coherent, ?_, ?_, ?_⟩
  · intro source handler handles same
    simpa using idle source handler handles same
  · intro source handler handles same
    simpa using idle source handler handles same
  · exact without_iff.mpr fun source handler handles same => by
      simpa using idle source handler handles same

theorem receives_serves {source : SocketAddr}
    {datagrams : List Datagram} {handler : Handler}
    (receives : Receives config key base (.receive source datagrams))
    (member : handler ∈ udpDatagrams datagrams)
    (same : handler.packet.key source = key) :
    handler.stage.Serves config base handler.packet ∧
      (handler.stage = .enter ∨ handler.stage = .batchCompleted) := by
  obtain ⟨arrived, start⟩ := udpDatagrams_spec member
  have belongs := receives handler.packet
    (mem_validPackets.mpr arrived) same
  rcases start with ⟨start, _⟩ | ⟨start, batch⟩
  · rw [start]
    exact ⟨belongs, .inl rfl⟩
  · rw [start]
    refine ⟨?_, .inr rfl⟩
    have data := (batch handler.packet (by simp)).2.1
    rcases belongs with ⟨_, offset⟩ | ⟨fin, _⟩
    · exact offset
    · rw [data] at fin
      cases fin

theorem step_served {daemon next : Daemon} {event : DaemonEvent}
    (served : daemon.Served config key base)
    (receives : Receives config key base event)
    (succeeds : Succeeds config blake3 self key base daemon event)
    (stepped : daemon.step config blake3 self event = some next) :
    next.Served config key base := by
  obtain ⟨unfailing, kept⟩ := succeeds next stepped
  -- Each handler of the next state is an old one, a new one, or the one that
  -- took the step.
  have both : ∀ origin other, next.Handles origin other →
      other.packet.key origin = key →
        other.stage.Serves config base other.packet ∧
          (other.stage = .finEvict ∨ other.stage = .finRelease →
            next.Completed key base) := by
    intro origin other handles same
    have old : daemon.Handles origin other →
        other.stage.Serves config base other.packet ∧
          (other.stage = .finEvict ∨ other.stage = .finRelease →
            next.Completed key base) := fun handles =>
      ⟨served.serves origin other handles same,
        fun late => kept (served.recorded origin other handles same late)⟩
    rcases step_cases stepped with ⟨source, datagrams, rfl, rfl⟩ |
        ⟨index, choice, _, handled⟩ | ⟨tasks, _⟩
    · rcases receive_handles handles with handles | ⟨rfl, member⟩
      · exact old handles
      · obtain ⟨serves, start⟩ := receives_serves receives member same
        refine ⟨serves, ?_⟩
        rcases start with start | start <;> simp [start]
    · obtain ⟨source, handler, _, outcome, _, running, ran, others, _⟩ :=
        handle_handles handled
      rcases others origin other handles with
        handles | ⟨rfl, stage, rfl, rfl⟩
      · exact old handles
      · have here : handler.packet.key origin = key := same
        obtain ⟨serves, inserted, evicted, _⟩ := Handler.serves_next here
          (served.serves origin handler running here) ran
        refine ⟨serves, ?_⟩
        rintro (late | late)
        · exact inserted late
        · exact kept (served.recorded origin handler running same
            (.inl (evicted late)))
    · exact old (handles.of_tasks tasks)
  exact ⟨step_coherent served.coherent stepped,
    fun origin other handles same => (both origin other handles same).1,
    fun origin other handles same => (both origin other handles same).2,
    unfailing⟩

/-- One step after the session is taken: it stays covered, and nothing of it is
answered with an error. -/
theorem step_shielded {daemon next : Daemon} {event : DaemonEvent}
    (shielded : daemon.Shielded config key base)
    (receives : Receives config key base event)
    (succeeds : Succeeds config blake3 self key base daemon event)
    (releases : ReleasesLast key daemon event)
    (stepped : daemon.step config blake3 self event = some next) :
    next.Shielded config key base ∧ Unfailing key daemon next ∧
      daemon.sent <+: next.sent := by
  obtain ⟨served, gone, covered⟩ := shielded
  have nextServed := step_served served receives succeeds stepped
  have kept := (succeeds next stepped).2
  rcases step_cases stepped with ⟨source, datagrams, rfl, rfl⟩ |
      ⟨index, choice, rfl, handled⟩ |
      ⟨tasks, sent, incoming, finishing, completed⟩
  · refine ⟨⟨nextServed, gone, covered.imp id ?_⟩, ?_,
      List.prefix_refl _⟩
    · intro given
      obtain ⟨done, without⟩ := given
      refine ⟨done, without_iff.mpr ?_⟩
      intro origin other handles same
      rcases receive_handles handles with handles | ⟨rfl, member⟩
      · exact without_iff.mp without origin other handles same
      · obtain ⟨_, start⟩ := receives_serves receives member same
        rcases start with start | start <;> rw [start] <;> rfl
    · simp [Unfailing]
  · obtain ⟨source, handler, rest, outcome, found, running, ran, others, sent,
      _⟩ := handle_handles handled
    -- Nobody gets between its two looks once the completion is recorded.
    have without : daemon.Completed key base →
        daemon.Without Stage.between key →
          next.Without Stage.between key := by
      intro done without
      refine without_iff.mpr ?_
      intro origin other handles same
      rcases others origin other handles with
        handles | ⟨rfl, stage, rfl, rfl⟩
      · exact without_iff.mp without origin other handles same
      · have here : handler.packet.key origin = key := same
        have notYet := without_iff.mp without origin handler running here
        by_contra between
        rcases (Handler.serves_next here
            (served.serves origin handler running here) ran).2.2.2
              (by simpa using between) with earlier | missed
        · simp [earlier] at notYet
        · simp [Completed, missed] at done
    by_cases same : handler.packet.key source = key
    · have serves := served.serves source handler running same
      have succeeded :=
        without_iff.mp served.succeeds source handler running same
      have shelter : handler.stage.between = true →
          key ∈ daemon.shared.udp.finishing := by
        intro between
        rcases covered with finishing | ⟨_, without⟩
        · exact finishing
        · have notYet := without_iff.mp without source handler running same
          simp [between] at notYet
      obtain ⟨nextGone, finishing, replies⟩ :=
        Handler.taken_run same serves gone shelter succeeded ran
      refine ⟨⟨nextServed, nextGone, ?_⟩, ?_, by simp [sent]⟩
      · by_cases release : handler.stage = .finRelease
        · have done := served.recorded source handler running same
            (.inr release)
          have last : daemon.Without Stage.between key :=
            releases _ found handler rfl same release
          exact .inr ⟨kept done, without done last⟩
        · rw [finishing release]
          exact covered.imp id fun ⟨done, before⟩ =>
            ⟨kept done, without done before⟩
      · intro reply answered _ _ _
        rw [sent, List.drop_left] at answered
        obtain ⟨packet, member, rfl⟩ := List.mem_map.mp answered
        exact replies packet member
    · have quiet := Handler.run_quiet ran (Ne.symm same)
      refine ⟨⟨nextServed, ?_, ?_⟩, ?_, by simp [sent]⟩
      · rw [Option.eq_none_iff_forall_not_mem]
        intro session stored
        have before := quiet.incoming session stored
        simp [gone] at before
      · rw [quiet.finishing]
        exact covered.imp id fun ⟨done, before⟩ =>
          ⟨kept done, without done before⟩
      · intro reply answered origin transfer block
        rw [sent, List.drop_left] at answered
        obtain ⟨packet, member, rfl⟩ := List.mem_map.mp answered
        have ids := Handler.run_replies
          (served.coherent source handler running) ran member
        exfalso
        apply same
        rw [Packet.key, ← ids.1, ← ids.2, transfer, block,
          show source = key.source from origin]
  · refine ⟨⟨nextServed, incoming ▸ gone, ?_⟩, ?_,
      sent ▸ List.prefix_refl _⟩
    · rw [finishing]
      refine covered.imp id ?_
      intro given
      obtain ⟨done, without⟩ := given
      refine ⟨kept done, without_iff.mpr ?_⟩
      intro origin other handles same
      exact without_iff.mp without origin other (handles.of_tasks tasks) same
    · simp [Unfailing, sent]

theorem Unfailing.trans {first second third : Daemon}
    (early : first.sent <+: second.sent) (late : second.sent <+: third.sent)
    (before : Unfailing key first second)
    (after : Unfailing key second third) : Unfailing key first third := by
  obtain ⟨answers, early⟩ := early
  obtain ⟨more, late⟩ := late
  intro reply answered
  rw [← late, ← early, List.append_assoc, List.drop_left,
    List.mem_append] at answered
  rcases answered with answered | answered
  · refine before reply ?_
    rw [← early, List.drop_left]
    exact answered
  · refine after reply ?_
    rw [← late, List.drop_left]
    exact answered

theorem run_unfailing {daemon final : Daemon} {events : List DaemonEvent}
    (shielded : daemon.Shielded config key base)
    (along : Along (step config blake3 self) (fun daemon event =>
      Receives config key base event ∧
        Succeeds config blake3 self key base daemon event ∧
        ReleasesLast key daemon event) daemon events)
    (ran : run (step config blake3 self) daemon events = some final) :
    Unfailing key daemon final ∧ daemon.sent <+: final.sent := by
  induction events generalizing daemon with
  | nil =>
      cases ran
      exact ⟨by simp [Unfailing], List.prefix_refl _⟩
  | cons event rest ih =>
      obtain ⟨next, stepped, ran⟩ := run_cons.mp ran
      obtain ⟨⟨receives, succeeds, releases⟩, along⟩ := along
      obtain ⟨shielded, unfailing, grown⟩ :=
        step_shielded shielded receives succeeds releases stepped
      obtain ⟨later, grownMore⟩ := ih shielded (along next stepped) ran
      exact ⟨unfailing.trans grown grownMore later, grown.trans grownMore⟩

/-- Once a FIN has taken its session and its finalization succeeds, no DATA or
FIN datagram of the transfer is answered with an error, in every run in which
the FIN gives the session up only when no other handler of it stands between
its look at `completed` and its look at `incoming` and `finishing`. -/
theorem late_datagrams_never_fail (setup front back : List DaemonEvent)
    {daemon middle final : Daemon}
    (started : run (step config blake3 self) empty setup = some daemon)
    (live : daemon.Live key base)
    (along : Along (step config blake3 self) (fun daemon event =>
      Receives config key base event ∧
        Succeeds config blake3 self key base daemon event ∧
        ReleasesLast key daemon event) daemon (front ++ back))
    (reached : run (step config blake3 self) daemon front = some middle)
    (taken : middle.Taken key)
    (continued : run (step config blake3 self) middle back = some final) :
    Unfailing key middle final := by
  have coherent : daemon.Coherent :=
    run_invariant Coherent
      (fun _ _ _ coherent stepped => step_coherent coherent stepped)
      empty_coherent started
  obtain ⟨alongFront, alongBack⟩ := along.append reached
  have served : middle.Served config key base :=
    run_invariant_along (Served config key base)
      (fun _ _ _ served allowed stepped =>
        step_served served allowed.1 allowed.2.1 stepped)
      (live.served coherent) alongFront reached
  exact (run_unfailing ⟨served, taken.gone, .inl taken.finishing⟩ alongBack
    continued).1

/-- The session of `abcWrite` from address 1. -/
def abcKey : SessionKey := ⟨1, 9, 7⟩

/-- The block is allocated and the session has received all its data. -/
def abcSession : List DaemonEvent :=
  [.request (.allocateLocal abcHandle true true),
    .receive 1 [.ok (abcWrite.startPacket {} abcHash)],
    .handle 0 {}, .handle 0 {}, .handle 0 {}, .handle 0 {},
    .receive 1 [.ok (abcWrite.dataPacket {} 0)],
    .handle 1 {}, .handle 1 {}, .handle 1 {}]

/-- A FIN takes the session before a retransmission looks at `completed`, and
completes. -/
def abcOrderly : List DaemonEvent × List DaemonEvent :=
  ([.receive 1 [.ok (abcWrite.dataPacket {} 0)], .handle 2 {},
    .receive 1 [.ok (abcWrite.finPacket {} abcHash)],
    .handle 3 {}, .handle 3 {}, .handle 3 {}],
  [.handle 3 {}, .handle 3 {}, .handle 3 {}, .handle 3 {}, .handle 3 {},
    .handle 2 {}])

theorem late_datagrams_never_fail_abc :
    ∃ daemon middle final,
      run (step {} abcHash ⟨2, 20⟩) empty abcSession = some daemon ∧
        run (step {} abcHash ⟨2, 20⟩) daemon abcOrderly.1 = some middle ∧
        run (step {} abcHash ⟨2, 20⟩) middle abcOrderly.2 = some final ∧
        (final.sent.drop middle.sent.length).map (·.2.kind) =
          [.complete, .ack] ∧
        Unfailing abcKey middle final :=
  ⟨_, _, _, rfl, rfl, rfl, rfl,
    @late_datagrams_never_fail {} abcHash ⟨2, 20⟩ abcKey 0 abcSession
      abcOrderly.1 abcOrderly.2 _ _ _ rfl ⟨rfl, by decide, by decide⟩
      (by decide +kernel) rfl ⟨rfl, by decide⟩ rfl⟩

/-! A late DATA datagram that is answered with an error. -/

/-- A retransmission misses the completion, and a FIN takes the session. -/
def abcTaken : List DaemonEvent :=
  [.receive 1 [.ok (abcWrite.dataPacket {} 0)], .handle 2 {}, .handle 2 {},
    .receive 1 [.ok (abcWrite.finPacket {} abcHash)],
    .handle 3 {}, .handle 3 {}, .handle 3 {}]

def abcLate : List DaemonEvent :=
  [.handle 3 {}, .handle 3 {}, .handle 3 {}, .handle 3 {}, .handle 3 {},
    .handle 2 {}, .handle 2 {}]

theorem late_data_fails :
    ∃ daemon middle final,
      run (step {} abcHash ⟨2, 20⟩) empty abcSession = some daemon ∧
        daemon.Live abcKey 0 ∧
        Along (step {} abcHash ⟨2, 20⟩) (fun daemon event =>
          Receives {} abcKey 0 event ∧
            Succeeds {} abcHash ⟨2, 20⟩ abcKey 0 daemon event)
          daemon (abcTaken ++ abcLate) ∧
        run (step {} abcHash ⟨2, 20⟩) daemon abcTaken = some middle ∧
        middle.Taken abcKey ∧
        run (step {} abcHash ⟨2, 20⟩) middle abcLate = some final ∧
        final.Completed abcKey 0 ∧ ¬Unfailing abcKey middle final := by
  refine ⟨_, _, _, rfl, ⟨rfl, by decide, by decide⟩, ?_, rfl,
    ⟨rfl, by decide⟩, rfl, rfl, ?_⟩
  · decide +kernel
  · decide +kernel

end Daemon

end

end TrainPool
