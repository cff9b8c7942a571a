import TrainPool.Runtime.Daemon

namespace TrainPool

/-! What the handlers of one session can do to another, and to the tasks of
their daemon. -/

/-- A step that belongs to another session: it may at most forget what the
daemon knows of the session `key`. -/
structure UdpServerState.Quiet (key : SessionKey)
    (before after : UdpServerState) : Prop where
  incoming : ∀ session, after.incoming.lookup key = some session →
    before.incoming.lookup key = some session
  finishing : key ∈ after.finishing ↔ key ∈ before.finishing
  completed : ∀ offset time,
    after.completed.lookup (key, offset) = some time →
      before.completed.lookup (key, offset) = some time

namespace UdpServerState

variable {key other : SessionKey} {udp : UdpServerState}

theorem Quiet.refl (key : SessionKey) (udp : UdpServerState) :
    Quiet key udp udp :=
  ⟨fun _ found => found, Iff.rfl, fun _ _ found => found⟩

theorem ageCompleted_quiet (instant : Nat) :
    Quiet key udp (udp.ageCompleted instant) where
  incoming := fun _ found => found
  finishing := Iff.rfl
  completed := fun _ _ found => (Table.lookup_retain.mp found).1

theorem expireIncoming_quiet (config : Config) (instant : Nat) :
    Quiet key udp (udp.expireIncoming config instant) where
  incoming := fun _ found => (Table.lookup_retain.mp found).1
  finishing := Iff.rfl
  completed := fun _ _ found => found

theorem setSession_quiet (different : key ≠ other)
    (session : IncomingSession) :
    Quiet key udp (udp.setSession other session) where
  incoming := by
    intro found stored
    rwa [setSession, Table.lookup_insert_eq, if_neg different] at stored
  finishing := Iff.rfl
  completed := fun _ _ found => found

theorem takeSession_quiet (different : key ≠ other) :
    Quiet key udp (udp.takeSession other) where
  incoming := by
    intro found stored
    rwa [takeSession, Table.lookup_erase_eq, if_neg different] at stored
  finishing := by simp [takeSession, different]
  completed := fun _ _ found => found

theorem release_quiet (different : key ≠ other) :
    Quiet key udp (udp.release other) where
  incoming := fun _ found => found
  finishing := by simp [release, different]
  completed := fun _ _ found => found

theorem startSession_quiet {config : Config} {instant : Nat}
    {reserved : Bool} {source : SocketAddr} {packet : Packet}
    (different : key ≠ packet.key source) :
    Quiet key udp
      (udp.startSession config instant reserved source packet).1 := by
  have expired : Quiet key udp (udp.expireIncoming config instant) :=
    expireIncoming_quiet config instant
  unfold startSession
  simp only
  split
  · exact expired
  · split
    · exact expired
    · split
      · exact expired
      · refine ⟨?_, expired.finishing, expired.completed⟩
        intro session stored
        rw [Table.lookup_insert_eq, if_neg different] at stored
        exact expired.incoming session stored

end UdpServerState

namespace Handler

variable {config : Config} {blake3 : List UInt8 → Digest}
  {source : SocketAddr} {now instant : Nat} {choice : Choice}
  {shared next : Shared} {outcome : Outcome} {key : SessionKey}
  {handler : Handler}

theorem run_quiet
    (ran : handler.run config blake3 source now instant choice shared =
      some (next, outcome))
    (different : key ≠ handler.packet.key source) :
    UdpServerState.Quiet key shared.udp next.udp := by
  open UdpServerState in
  obtain ⟨packet, rest, stage⟩ := handler
  change key ≠ packet.key source at different
  cases stage with
  | enter =>
      cases ran
      exact ageCompleted_quiet instant
  | readLock arc =>
      obtain ⟨block, _, ran⟩ := Option.bind_eq_some_iff.mp ran
      split at ran
      · cases ran; exact .refl key _
      · cases ran; exact .refl key _
      · split at ran
        · cases ran
          exact ⟨fun _ found => found, Iff.rfl, fun _ _ found => found⟩
        · cases ran; exact .refl key _
  | startLock arc =>
      obtain ⟨block, _, ran⟩ := Option.bind_eq_some_iff.mp ran
      cases ran
      exact .refl key _
  | startSession =>
      cases ran
      exact startSession_quiet different
  | dataSession =>
      simp only [run, runDataSession] at ran
      split at ran
      · cases ran; exact .refl key _
      · cases ran; exact setSession_quiet different _
  | batchSession =>
      simp only [run, runBatchSession] at ran
      split at ran
      · cases ran; exact .refl key _
      · cases ran; exact setSession_quiet different _
  | finSession =>
      simp only [run, runFinSession] at ran
      split at ran
      · cases ran; exact .refl key _
      · split at ran
        · cases ran; exact .refl key _
        · split at ran
          · cases ran; exact .refl key _
          · split at ran
            · cases ran; exact .refl key _
            · cases ran; exact takeSession_quiet different
  | finWrite session arc =>
      obtain ⟨block, _, ran⟩ := Option.bind_eq_some_iff.mp ran
      split at ran <;> cases ran <;> exact .refl key _
  | finInsert =>
      cases ran
      refine ⟨fun _ found => found, Iff.rfl, ?_⟩
      intro offset time stored
      rw [Table.lookup_insert_eq, if_neg] at stored
      · exact stored
      · intro same
        exact different (Prod.mk.inj same).1
  | finEvict =>
      simp only [run, runFinEvict] at ran
      split at ran
      · obtain ⟨oldest, _, ran⟩ := Option.bind_eq_some_iff.mp ran
        split at ran <;> cases ran
        refine ⟨fun _ found => found, Iff.rfl, ?_⟩
        intro offset time stored
        rw [Table.lookup_erase_eq] at stored
        split at stored
        · cases stored
        · exact stored
      · cases ran; exact .refl key _
  | finRelease =>
      cases ran
      exact release_quiet different
  | finFail message =>
      cases ran
      exact release_quiet different
  | abortSession =>
      cases ran
      refine ⟨?_, Iff.rfl, fun _ _ found => found⟩
      intro session stored
      rwa [Table.lookup_erase_eq, if_neg different] at stored
  | _ =>
      cases ran
      exact .refl key _

end Handler

/-! The handlers that a daemon has, running or waiting in their task. -/

def Daemon.Handles (daemon : Daemon) (source : SocketAddr)
    (handler : Handler) : Prop :=
  ∃ task ∈ daemon.tasks, task.source = source ∧ handler ∈ task.handlers

theorem udpDatagrams_spec {datagrams : List Datagram}
    {handler : Handler} (member : handler ∈ udpDatagrams datagrams) :
    .ok handler.packet ∈ datagrams ∧
      (handler.stage = .enter ∧ handler.rest = [] ∨
        handler.stage = .batchCompleted ∧
          ∀ packet ∈ handler.packet :: handler.rest,
            .ok packet ∈ datagrams ∧ SameData handler.packet packet) := by
  unfold udpDatagrams at member
  split at member
  · simp at member
  · rename_i first rest decoded
    have listed : ∀ packet ∈ first :: rest, .ok packet ∈ datagrams := by
      intro packet listed
      rw [← decoded] at listed
      exact mem_validPackets.mp listed
    split at member
    · rename_i batch
      obtain rfl := List.mem_singleton.mp member
      refine ⟨listed first (by simp), .inr ⟨rfl, ?_⟩⟩
      intro packet packetMember
      exact ⟨listed packet packetMember, batch.2.2 packet packetMember⟩
    · obtain ⟨packet, packetMember, rfl⟩ := List.mem_map.mp member
      exact ⟨listed packet packetMember, .inl ⟨rfl, rfl⟩⟩

namespace Daemon

variable {config : Config} {blake3 : List UInt8 → Digest}

/-- A step of a handler: where it leads the handler and what it answers.  Every
other handler is as before. -/
theorem handle_handles {daemon next : Daemon} {index : Nat} {choice : Choice}
    (handled : daemon.handle config blake3 index choice = some next) :
    ∃ source handler rest outcome,
      daemon.tasks[index]? = some ⟨source, handler :: rest⟩ ∧
        daemon.Handles source handler ∧
        handler.run config blake3 source daemon.now daemon.instant choice
          daemon.shared = some (next.shared, outcome) ∧
        (∀ origin other, next.Handles origin other →
          daemon.Handles origin other ∨ origin = source ∧
            ∃ stage, outcome = .next stage ∧
              other = { handler with stage := stage }) ∧
        next.sent = daemon.sent ++
          (outcome.replies handler.packet).map (source, ·) ∧
        next.now = daemon.now ∧ next.instant = daemon.instant := by
  obtain ⟨source, handler, rest, shared, outcome, found, ran, rfl⟩ :=
    handle_eq_some.mp handled
  have stored := List.mem_of_getElem? found
  refine ⟨source, handler, rest, outcome, found, ⟨_, stored, rfl, by simp⟩,
    ran, ?_, rfl, rfl, rfl⟩
  intro origin other given
  obtain ⟨task, member, rfl, listed⟩ := given
  rcases List.mem_or_eq_of_mem_set member with member | rfl
  · exact .inl ⟨task, member, rfl, listed⟩
  · cases outcome with
    | next stage =>
        rcases List.mem_cons.mp listed with rfl | listed
        · exact .inr ⟨rfl, stage, rfl, rfl⟩
        · exact .inl ⟨_, stored, rfl, List.mem_cons_of_mem _ listed⟩
    | panic => simp [Outcome.remaining] at listed
    | answer => exact .inl ⟨_, stored, rfl, List.mem_cons_of_mem _ listed⟩
    | respond => exact .inl ⟨_, stored, rfl, List.mem_cons_of_mem _ listed⟩
    | fail => exact .inl ⟨_, stored, rfl, List.mem_cons_of_mem _ listed⟩

theorem handles_of_running {daemon : Daemon} {index : Nat}
    {source : SocketAddr} {handler : Handler}
    (found : daemon.running index = some (source, handler)) :
    daemon.Handles source handler := by
  obtain ⟨task, stored, found⟩ := Option.bind_eq_some_iff.mp found
  obtain ⟨first, head, found⟩ := Option.bind_eq_some_iff.mp found
  cases found
  exact ⟨task, List.mem_of_getElem? stored, rfl, List.mem_of_head? head⟩

theorem running_of_tasks {daemon : Daemon} {index : Nat}
    {source : SocketAddr} {handler : Handler} {rest : List Handler}
    (found : daemon.tasks[index]? = some ⟨source, handler :: rest⟩) :
    daemon.running index = some (source, handler) := by
  simp [running, found]

/-- The packets of a batch belong to one session. -/
def Coherent (daemon : Daemon) : Prop :=
  ∀ source handler, daemon.Handles source handler →
    ∀ packet ∈ handler.rest, packet.transferId = handler.packet.transferId ∧
      packet.blockId = handler.packet.blockId

theorem receive_handles {daemon : Daemon} {source origin : SocketAddr}
    {datagrams : List Datagram} {handler : Handler}
    (handles : Handles { daemon with
      tasks := daemon.tasks ++ [⟨source, udpDatagrams datagrams⟩] }
      origin handler) :
    daemon.Handles origin handler ∨
      origin = source ∧ handler ∈ udpDatagrams datagrams := by
  obtain ⟨task, member, rfl, listed⟩ := handles
  rcases List.mem_append.mp member with member | member
  · exact .inl ⟨task, member, rfl, listed⟩
  · obtain rfl := List.mem_singleton.mp member
    exact .inr ⟨rfl, listed⟩

/-- A step of the daemon: new handlers, one handler that goes on, or a step that
concerns no session. -/
theorem step_cases {self : Identity} {daemon next : Daemon}
    {event : DaemonEvent}
    (stepped : daemon.step config blake3 self event = some next) :
    (∃ source datagrams, event = .receive source datagrams ∧
        next = { daemon with
          tasks := daemon.tasks ++ [⟨source, udpDatagrams datagrams⟩] }) ∨
      (∃ index choice, event = .handle index choice ∧
        daemon.handle config blake3 index choice = some next) ∨
      (next.tasks = daemon.tasks ∧ next.sent = daemon.sent ∧
        next.shared.udp.incoming = daemon.shared.udp.incoming ∧
        next.shared.udp.finishing = daemon.shared.udp.finishing ∧
        next.shared.udp.completed = daemon.shared.udp.completed) := by
  cases event with
  | receive source datagrams =>
      cases stepped
      exact .inl ⟨source, datagrams, rfl, rfl⟩
  | handle index choice => exact .inr (.inl ⟨index, choice, rfl, stepped⟩)
  | request event =>
      obtain ⟨ram, _, done⟩ := Option.bind_eq_some_iff.mp stepped
      cases done
      exact .inr (.inr ⟨rfl, rfl, rfl, rfl, rfl⟩)
  | responded response =>
      simp only [step] at stepped
      split at stepped <;> cases stepped
      exact .inr (.inr ⟨rfl, rfl, rfl, rfl, rfl⟩)
  | clock now instant =>
      simp only [step] at stepped
      split at stepped <;> cases stepped
      exact .inr (.inr ⟨rfl, rfl, rfl, rfl, rfl⟩)

theorem Handles.of_tasks {daemon next : Daemon} {source : SocketAddr}
    {handler : Handler} (same : next.tasks = daemon.tasks)
    (handles : next.Handles source handler) :
    daemon.Handles source handler := by
  obtain ⟨task, member, origin, listed⟩ := handles
  exact ⟨task, same ▸ member, origin, listed⟩

theorem step_coherent {self : Identity} {daemon next : Daemon}
    {event : DaemonEvent} (coherent : daemon.Coherent)
    (stepped : daemon.step config blake3 self event = some next) :
    next.Coherent := by
  intro origin other otherHandles
  rcases step_cases stepped with ⟨source, datagrams, _, rfl⟩ |
      ⟨index, choice, _, handled⟩ | ⟨tasks, _⟩
  · rcases receive_handles otherHandles with handles | ⟨_, member⟩
    · exact coherent origin other handles
    · rcases (udpDatagrams_spec member).2 with ⟨_, single⟩ | ⟨_, batch⟩
      · simp [single]
      · intro packet listed
        obtain ⟨_, _, transfer, _, block⟩ :=
          batch packet (List.mem_cons_of_mem _ listed)
        exact ⟨transfer, block⟩
  · obtain ⟨source, handler, _, outcome, _, handles, _, others, _⟩ :=
      handle_handles handled
    rcases others origin other otherHandles with old | ⟨_, _, _, rfl⟩
    · exact coherent origin other old
    · exact coherent source handler handles
  · exact coherent origin other (otherHandles.of_tasks tasks)

theorem empty_coherent : empty.Coherent := by
  intro source handler given
  obtain ⟨task, member, _⟩ := given
  simp [empty] at member

end Daemon

namespace Handler

variable {config : Config} {blake3 : List UInt8 → Digest}
  {source : SocketAddr} {now instant : Nat} {choice : Choice}
  {shared next : Shared} {outcome : Outcome} {handler : Handler}

@[simp] theorem ofResult_ne_answer {α : Type} {stage : α → Stage}
    {result : Result α} {reply : Option Packet} :
    Outcome.ofResult stage result ≠ .answer reply := by
  unfold Outcome.ofResult
  split <;> simp

@[simp] theorem dispatch_ne_answer {packet reply : Packet} :
    dispatch config packet ≠ .answer (some reply) := by
  unfold dispatch
  split
  · simp
  · split <;> simp
  all_goals simp

theorem lastD_of_coherent
    (coherent : ∀ packet ∈ handler.rest,
      packet.transferId = handler.packet.transferId ∧
        packet.blockId = handler.packet.blockId) :
    (handler.rest.getLastD handler.packet).transferId =
        handler.packet.transferId ∧
      (handler.rest.getLastD handler.packet).blockId =
        handler.packet.blockId := by
  rw [List.getLastD_eq_getLast?]
  cases last : handler.rest.getLast? with
  | none => exact ⟨rfl, rfl⟩
  | some packet => exact coherent packet (List.mem_of_getLast? last)

/-- What a handler can answer: the stage that answers, what it has found there
and the answer. -/
inductive Answers (config : Config) (source : SocketAddr) (instant : Nat)
    (handler : Handler) (shared next : Shared) : Packet → Prop
  | started (stage : handler.stage = .startSession) :
      Answers config source instant handler shared next
        (handler.packet.response .startAck
          (Bytes.toBigEndian 2 (min config.udpWindowPackets ackBits)))
  | stored (stage : handler.stage = .dataSession)
      (session : IncomingSession) (payload : List UInt8)
      (found : shared.udp.incoming.lookup (handler.packet.key source) =
        some session)
      (received : (session.receiveData instant config.udpWindowPackets
        handler.packet).2 = .ok (some payload))
      (set : next.udp.incoming.lookup (handler.packet.key source) =
        some (session.receiveData instant config.udpWindowPackets
          handler.packet).1) :
      Answers config source instant handler shared next
        (handler.packet.response .ack payload)
  | storedAll (stage : handler.stage = .batchSession)
      (session after : IncomingSession)
      (found : shared.udp.incoming.lookup (handler.packet.key source) =
        some session)
      (received : session.receiveAll (handler.packet :: handler.rest) =
        (after, .ok ()))
      (set : next.udp.incoming.lookup (handler.packet.key source) =
        some { after with lastActivity := instant }) :
      Answers config source instant handler shared next
        ((handler.rest.getLastD handler.packet).response .ack
          (after.ackPayload (handler.rest.getLastD handler.packet).sequenceId
            config.udpWindowPackets))
  | known (stage : handler.stage = .dataCompleted ∧
          shared.udp.isCompleted config source handler.packet = true ∨
        handler.stage = .dataFinishing ∧
          handler.packet.key source ∈ shared.udp.finishing) :
      Answers config source instant handler shared next
        (completedDataAck handler.packet config.udpWindowPackets)
  | knownAll (stage : handler.stage = .batchCompleted ∧
          shared.udp.isCompleted config source handler.packet = true ∨
        handler.stage = .batchFinishing ∧
          handler.packet.key source ∈ shared.udp.finishing) :
      Answers config source instant handler shared next
        (completedDataAck (handler.rest.getLastD handler.packet)
          config.udpWindowPackets)
  | missing (stage : handler.stage = .finSession) (session : IncomingSession)
      (found : shared.udp.incoming.lookup (handler.packet.key source) =
        some session)
      (kept : next = shared) :
      Answers config source instant handler shared next
        (handler.packet.response .nack
          (session.nackPayload config.udpWindowPackets))
  | completed (stage : handler.stage = .finCompleted ∨
        handler.stage = .finRelease) :
      Answers config source instant handler shared next
        (handler.packet.response .complete [])

theorem dataSession_answers {packet reply : Packet} {rest : List Packet}
    (ran : runDataSession config source instant packet shared =
      (next, .answer (some reply))) :
    Answers config source instant ⟨packet, rest, .dataSession⟩ shared next
      reply := by
  unfold runDataSession at ran
  split at ran
  · cases ran
  · rename_i session found
    simp only [Prod.mk.injEq] at ran
    obtain ⟨rfl, answered⟩ := ran
    split at answered
    · rename_i payload received
      simp only [Outcome.answer.injEq, Option.map_eq_some_iff] at answered
      obtain ⟨bits, rfl, rfl⟩ := answered
      exact .stored rfl session bits found received
        (by simp [UdpServerState.setSession])
    · cases answered
    · cases answered

theorem batchSession_answers {packet reply : Packet} {rest : List Packet}
    (ran : runBatchSession config source instant packet rest shared =
      (next, .answer (some reply))) :
    Answers config source instant ⟨packet, rest, .batchSession⟩ shared next
      reply := by
  unfold runBatchSession at ran
  split at ran
  · cases ran
  · rename_i session found
    rcases received : session.receiveAll (packet :: rest) with
      ⟨after, result⟩
    simp only [received, Prod.mk.injEq] at ran
    obtain ⟨rfl, answered⟩ := ran
    split at answered <;> cases answered
    exact .storedAll rfl session after found received
      (by simp [UdpServerState.setSession])

theorem finSession_answers {packet reply : Packet} {rest : List Packet}
    (ran : runFinSession config blake3 source packet shared =
      (next, .answer (some reply))) :
    Answers config source instant ⟨packet, rest, .finSession⟩ shared next
      reply := by
  unfold runFinSession at ran
  split at ran
  · cases ran
  · rename_i session found
    split at ran
    · cases ran
      exact .missing rfl session found rfl
    · split at ran
      · cases ran
      · split at ran <;> cases ran

theorem run_answers {reply : Packet}
    (ran : handler.run config blake3 source now instant choice shared =
      some (next, .answer (some reply))) :
    Answers config source instant handler shared next reply := by
  obtain ⟨packet, rest, stage⟩ := handler
  cases stage with
  | enter | readBlock | startBlock =>
      simp [run] at ran
  | readLock arc =>
      obtain ⟨block, _, ran⟩ := Option.bind_eq_some_iff.mp ran
      split at ran
      · cases ran
      · cases ran
      · split at ran <;> cases ran
  | startLock arc =>
      obtain ⟨block, _, ran⟩ := Option.bind_eq_some_iff.mp ran
      simp at ran
  | startSession =>
      simp only [run, runStartSession, Option.some.injEq,
        Prod.mk.injEq] at ran
      replace ran := ran.2
      split at ran <;> cases ran
      exact .started rfl
  | dataSession => exact dataSession_answers (Option.some.inj ran)
  | batchSession => exact batchSession_answers (Option.some.inj ran)
  | finSession => exact finSession_answers (Option.some.inj ran)
  | dataCompleted =>
      simp only [run, Option.some.injEq, Prod.mk.injEq] at ran
      replace ran := ran.2
      split at ran <;> cases ran
      exact .known (.inl ⟨rfl, ‹_›⟩)
  | dataFinishing =>
      simp only [run, Option.some.injEq, Prod.mk.injEq] at ran
      replace ran := ran.2
      split at ran <;> cases ran
      exact .known (.inr ⟨rfl, ‹_›⟩)
  | batchCompleted =>
      simp only [run, Option.some.injEq, Prod.mk.injEq] at ran
      replace ran := ran.2
      split at ran <;> cases ran
      exact .knownAll (.inl ⟨rfl, ‹_›⟩)
  | batchFinishing =>
      simp only [run, Option.some.injEq, Prod.mk.injEq] at ran
      replace ran := ran.2
      split at ran <;> cases ran
      exact .knownAll (.inr ⟨rfl, ‹_›⟩)
  | finCompleted =>
      simp only [run, Option.some.injEq, Prod.mk.injEq] at ran
      replace ran := ran.2
      split at ran <;> cases ran
      exact .completed (.inl rfl)
  | finRelease =>
      cases ran
      exact .completed (.inr rfl)
  | finWrite session arc =>
      obtain ⟨block, _, ran⟩ := Option.bind_eq_some_iff.mp ran
      split at ran <;> cases ran
  | finEvict =>
      simp only [run, runFinEvict] at ran
      split at ran
      · obtain ⟨oldest, _, ran⟩ := Option.bind_eq_some_iff.mp ran
        split at ran <;> cases ran
      · cases ran
  | finFinishing | finBlock session =>
      simp only [run, Option.some.injEq, Prod.mk.injEq] at ran
      replace ran := ran.2
      split at ran <;> cases ran
  | finInsert | finFail message | abortSession => cases ran

theorem run_answer
    (coherent : ∀ packet ∈ handler.rest,
      packet.transferId = handler.packet.transferId ∧
        packet.blockId = handler.packet.blockId)
    {reply : Packet}
    (ran : handler.run config blake3 source now instant choice shared =
      some (next, .answer (some reply))) :
    reply.transferId = handler.packet.transferId ∧
      reply.blockId = handler.packet.blockId := by
  cases run_answers ran with
  | storedAll => exact lastD_of_coherent coherent
  | knownAll => exact lastD_of_coherent coherent
  | _ => exact ⟨rfl, rfl⟩

theorem run_replies
    (coherent : ∀ packet ∈ handler.rest,
      packet.transferId = handler.packet.transferId ∧
        packet.blockId = handler.packet.blockId)
    (ran : handler.run config blake3 source now instant choice shared =
      some (next, outcome)) {reply : Packet}
    (replied : reply ∈ outcome.replies handler.packet) :
    reply.transferId = handler.packet.transferId ∧
      reply.blockId = handler.packet.blockId := by
  cases outcome with
  | answer sent =>
      obtain rfl := Option.mem_toList.mp replied
      exact run_answer coherent ran
  | fail message =>
      unfold Outcome.replies errorReply at replied
      simp only at replied
      split at replied
      · obtain rfl := List.mem_singleton.mp replied
        exact ⟨rfl, rfl⟩
      · cases replied
  | next stage => cases replied
  | respond response => cases replied
  | panic => cases replied

end Handler

end TrainPool
