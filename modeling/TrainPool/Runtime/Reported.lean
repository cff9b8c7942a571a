import TrainPool.Runtime.Duplicates
import TrainPool.Runtime.Incoming
import TrainPool.Runtime.ReadReports
import TrainPool.Runtime.Replies
import TrainPool.Transport.Reports

namespace TrainPool

open Execution

/-! What the sender of a write knows to be received, the daemon has received. -/

namespace IncomingSession

variable {config : Config} {session : IncomingSession}

theorem WellFormed.small (formed : session.WellFormed config)
    (valid : config.Valid) : session.packetCount < 2 ^ 32 := by
  have chunk := formed.chunk
  have limit := valid.chunk.2
  have pieces := valid.payload.1
  have count : session.packetCount ≤ session.buffer.length := by
    rw [formed.count, formed.pieces]
    exact Slice.divCeil_le (by omega) _
  omega

theorem Assembles.all_received {pieceSize : Nat} {payload : List UInt8}
    (assembles : session.Assembles pieceSize payload)
    (full : session.receivedCount = session.packetCount) :
    ∀ sequence < session.packetCount, session.isReceived sequence = true := by
  have all : ∀ received ∈ session.received, true = received := by
    rw [← List.count_eq_length, ← assembles.counted, full, assembles.slots]
  intro sequence inside
  rw [← assembles.slots] at inside
  unfold isReceived
  rw [List.getD_eq_getElem?_getD, List.getElem?_eq_getElem inside]
  exact (all _ (List.getElem_mem inside)).symm

theorem received_of_ack {packet : Packet} {sequence window other : ℕ}
    (small : sequence < 2 ^ 32)
    (member : other ∈
      (packet.response .ack (session.ackPayload sequence window)).report) :
    session.isReceived other = true := by
  obtain ⟨after, bit⟩ := Packet.mem_report_bits
    (Nat.lt_of_le_of_lt (Nat.div_mul_le_self sequence ackBits) small)
    rfl member
  have inside := (List.getElem?_eq_some_iff.mp bit).1
  rw [List.length_map, List.length_range] at inside
  rw [List.getElem?_map, List.getElem?_range inside] at bit
  simpa [Nat.add_sub_of_le after] using bit

theorem received_of_nack {packet : Packet} {window other : ℕ}
    (small : session.received.length < 2 ^ 32)
    (member : other ∈
      (packet.response .nack (session.nackPayload window)).cleared)
    (slot : other < session.received.length) :
    session.isReceived other = true := by
  have first : (if session.received.findIdx (!·) < session.received.length
      then session.received.findIdx (!·) else 0) < 2 ^ 32 := by
    split <;> omega
  obtain ⟨after, inside, clear⟩ := Packet.mem_cleared_bits
    (Nat.lt_of_le_of_lt (Nat.div_mul_le_self _ ackBits) first)
    rfl member
  rw [List.getElem?_map, List.getElem?_range inside] at clear
  simp only [Option.map_some, Nat.add_sub_of_le after] at clear
  unfold isReceived
  rw [List.getD_eq_getElem?_getD, List.getElem?_eq_getElem slot] at clear ⊢
  simpa using clear

variable {instant window : Nat} {packet : Packet}

theorem receiveData_answer {payload : List UInt8}
    (answered : (session.receiveData instant window packet).2 =
      .ok (some payload)) :
    packet.sequenceId < session.packetCount ∧
      payload = (session.receiveData instant window packet).1.ackPayload
        packet.sequenceId window := by
  unfold receiveData at answered ⊢
  split at answered
  · cases answered
  · simp only at answered ⊢
    split at answered
    · cases answered
    · rename_i range
      have inside := (checkRange_ok.mp range).1
      simp only [Except.ok.injEq, Option.ite_none_right_eq_some,
        Option.some.injEq] at answered
      exact ⟨inside, answered.2.symm⟩

theorem receiveAll_inside {packets : List Packet}
    (accepted : (session.receiveAll packets).2 = .ok ()) :
    ∀ packet ∈ packets, packet.sequenceId < session.packetCount := by
  induction packets generalizing session with
  | nil =>
      intro packet member
      cases member
  | cons first rest ih =>
      unfold receiveAll at accepted
      split at accepted
      · cases accepted
      · rename_i checked
        have inside := (checkRange_ok.mp (checked_ok.mp checked).2).1
        have later : ∀ packet ∈ rest,
            packet.sequenceId < session.packetCount := by
          split at accepted
          · exact ih accepted
          · have stored := @ih (session.store first) accepted
            exact stored
        intro packet member
        rcases List.mem_cons.mp member with rfl | member
        · exact inside
        · exact later packet member

end IncomingSession

namespace Handler

/-- The step does not take the session `key` away before it is complete: it
neither aborts nor expires it. -/
def Spares (config : Config) (key : SessionKey) (source : SocketAddr)
    (instant : Nat) (udp : UdpServerState) (handler : Handler) : Prop :=
  ∀ session ∈ udp.incoming.lookup key,
    (handler.stage = .abortSession → handler.packet.key source ≠ key) ∧
      (handler.stage = .startSession →
        instant - session.lastActivity < incomingExpiryMs config)

instance (config : Config) (key : SessionKey) (source : SocketAddr)
    (instant : Nat) (udp : UdpServerState) (handler : Handler) :
    Decidable (handler.Spares config key source instant udp) :=
  inferInstanceAs (Decidable (∀ session ∈ udp.incoming.lookup key,
    (handler.stage = .abortSession → handler.packet.key source ≠ key) ∧ _))

variable {config : Config} {key : SessionKey} {source : SocketAddr}
  {instant : Nat} {udp after : UdpServerState} {handler : Handler}

theorem startSession_keeps {reserved : Bool} {packet : Packet}
    {session : IncomingSession}
    (found : udp.incoming.lookup key = some session)
    (timely : instant - session.lastActivity < incomingExpiryMs config) :
    (udp.startSession config instant reserved source packet).1.incoming.lookup
      key = some session := by
  have kept : (udp.expireIncoming config instant).incoming.lookup key =
      some session := Table.lookup_retain.mpr ⟨found, by simpa using timely⟩
  unfold UdpServerState.startSession
  simp only
  split
  · exact kept
  · rename_i absent
    split
    · exact kept
    · split
      · exact kept
      · rw [Table.lookup_insert_eq, if_neg]
        · exact kept
        · intro same
          apply absent
          rw [← same]
          exact AList.lookup_isSome.mp (by simp [kept])

theorem Changes.keeps (changes : handler.Changes config source instant udp
    after) {session : IncomingSession}
    (found : udp.incoming.lookup key = some session)
    (spares : handler.Spares config key source instant udp) :
    (∃ later, after.incoming.lookup key = some later ∧
      session.Grows later) ∨
      handler.packet.key source = key ∧
        session.receivedCount = session.packetCount := by
  obtain ⟨kept, timely⟩ := spares session found
  cases changes with
  | same after incoming finishing =>
      exact .inl ⟨session, incoming ▸ found, .refl session⟩
  | opened reserved stage =>
      exact .inl ⟨session, startSession_keeps found (timely stage),
        .refl session⟩
  | stored before stored stage present grows =>
      left
      simp only [UdpServerState.setSession, Table.lookup_insert_eq]
      split
      · rename_i same
        rw [← same] at present
        cases found.symm.trans present
        exact ⟨stored, rfl, grows⟩
      · exact ⟨session, found, .refl session⟩
  | taken other stage present full =>
      by_cases same : handler.packet.key source = key
      · rw [same] at present
        cases found.symm.trans present
        exact .inr ⟨same, full⟩
      · left
        refine ⟨session, ?_, .refl session⟩
        simp only [UdpServerState.takeSession, Table.lookup_erase_eq]
        rwa [if_neg (Ne.symm same)]
  | released stage => exact .inl ⟨session, found, .refl session⟩
  | aborted stage =>
      left
      refine ⟨session, ?_, .refl session⟩
      rw [Table.lookup_erase_eq, if_neg (Ne.symm (kept stage))]
      exact found

theorem Changes.finishing (changes : handler.Changes config source instant
    udp after) (member : key ∈ after.finishing) :
    key ∈ udp.finishing ∨
      handler.stage = .finSession ∧ handler.packet.key source = key ∧
        ∃ session, udp.incoming.lookup key = some session ∧
          session.receivedCount = session.packetCount := by
  cases changes with
  | same after incoming finishing => exact .inl (finishing ▸ member)
  | opened reserved stage =>
      left
      unfold UdpServerState.startSession at member
      simp only at member
      split at member
      · exact member
      · split at member
        · exact member
        · split at member <;> exact member
  | stored before stored stage present grows => exact .inl member
  | taken other stage present full =>
      rcases Finset.mem_insert.mp member with same | old
      · exact .inr ⟨stage, same.symm, other, same ▸ present, full⟩
      · exact .inl old
  | released stage => exact .inl (Finset.mem_of_mem_erase member)
  | aborted stage => exact .inl member

end Handler

namespace Write

variable (write : Write)

def packetCount : ℕ := write.request.packetCount write.sender

def received (udp : UdpServerState) : Set ℕ :=
  { sequence | ∃ session ∈ udp.incoming.lookup write.key,
      session.isReceived sequence = true }

/-- The session of the transfer has received every packet. -/
def Whole (state : WriteState) : Prop :=
  ∃ session ∈ state.daemon.shared.udp.incoming.lookup write.key,
    ∀ sequence < write.packetCount, session.isReceived sequence = true

/-- The step neither aborts nor expires the session of the transfer. -/
def Spares (state : WriteState) : WriteEvent → Prop
  | .daemon (.handle index _) =>
      ∀ entry ∈ state.daemon.running index,
        entry.2.Spares write.receiver write.key entry.1 state.daemon.instant
          state.daemon.shared.udp
  | _ => True

instance (state : WriteState) :
    (event : WriteEvent) → Decidable (write.Spares state event)
  | .daemon (.handle index _) => inferInstanceAs (Decidable
      (∀ entry ∈ state.daemon.running index, _))
  | .daemon (.receive _ _) | .daemon (.request _) | .daemon (.responded _)
  | .daemon (.clock _ _) | .sender _ => isTrue trivial

/-- The daemon knows nothing of the transfer and has told its sender nothing
about it. -/
structure Unused (daemon : Daemon) : Prop where
  fresh : write.Fresh daemon
  finishing : write.key ∉ daemon.shared.udp.finishing
  answers : ∀ packet, (write.address, packet) ∈ daemon.sent →
    packet.transferId ≠ write.request.transferId

/-- The transfer as long as its session is not complete: whatever the sender
knows or can learn from the answers on their way, the session has received. -/
structure Current (state : WriteState) : Prop where
  finishing : write.key ∉ state.daemon.shared.udp.finishing
  completed : ∀ offset,
    state.daemon.shared.udp.completed.lookup (write.key, offset) = none
  untaken : ∀ handler, state.daemon.Handles write.address handler →
    handler.packet.transferId = write.request.transferId →
      handler.stage.taken = false
  answered : ∀ packet, (write.address, packet) ∈ state.daemon.sent →
    packet.transferId = write.request.transferId →
      ∀ sequence ∈ packet.vouches, sequence < write.packetCount →
        sequence ∈ write.received state.daemon.shared.udp
  backed : state.phase.Backed write.packetCount
    (write.received state.daemon.shared.udp)
  begun : state.phase.Begun write.packetCount
  unfinished : ∀ packet ∈ state.emitted, packet.kind ≠ .fin

structure Reported (seen : List WriteState) (state : WriteState) : Prop where
  invariant : write.Invariant state
  formed : state.daemon.Formed write.receiver
  present : state ∈ seen
  slots : state.phase.Backed write.packetCount Set.univ
  current : (∃ earlier ∈ seen, write.Whole earlier) ∨ write.Current state

section Reports

variable {write} {now instant : Nat} {choice : Choice}
  {shared next : Shared} {outcome : Outcome} {handler : Handler}

theorem key_of_data {packet : Packet} (data : write.IsData packet) :
    packet.key write.address = write.key := by
  obtain ⟨sequence, rfl⟩ := data
  rfl

theorem key_of_fin {packet : Packet} (fin : write.IsFin packet) :
    packet.key write.address = write.key := by
  obtain rfl : packet = _ := fin
  rfl

theorem genuine_count {session : IncomingSession}
    (genuine : write.Genuine session) :
    session.packetCount = write.packetCount :=
  genuine.receives.assembles.count

theorem not_isCompleted {udp : UdpServerState} {packet : Packet}
    (keyed : packet.key write.address = write.key)
    (completed : ∀ offset, udp.completed.lookup (write.key, offset) = none) :
    udp.isCompleted write.receiver write.address packet = false := by
  unfold UdpServerState.isCompleted
  split
  · rename_i base _
    rw [keyed, completed base]
    rfl
  · rfl

theorem carries_key (carries : write.Carries shared.ram handler)
    (stage : handler.stage = .dataSession ∨ handler.stage = .batchSession ∨
      handler.stage = .dataCompleted ∨ handler.stage = .dataFinishing ∨
      handler.stage = .batchCompleted ∨ handler.stage = .batchFinishing ∨
      handler.stage = .finSession) :
    handler.packet.key write.address = write.key := by
  obtain ⟨packet, rest, here⟩ := handler
  rcases stage with rfl | rfl | rfl | rfl | rfl | rfl | rfl
  · exact key_of_data carries
  · exact key_of_data (carries packet List.mem_cons_self)
  · exact key_of_data carries
  · exact key_of_data carries
  · exact key_of_data (carries packet List.mem_cons_self)
  · exact key_of_data (carries packet List.mem_cons_self)
  · exact key_of_fin carries

theorem not_remembered {packet : Packet}
    (keyed : packet.key write.address = write.key)
    (finishing : write.key ∉ shared.udp.finishing)
    (completed : ∀ offset,
      shared.udp.completed.lookup (write.key, offset) = none)
    {first second : Prop}
    (known : first ∧ shared.udp.isCompleted write.receiver write.address
        packet = true ∨
      second ∧ packet.key write.address ∈ shared.udp.finishing) : False := by
  rcases known with ⟨_, known⟩ | ⟨_, known⟩
  · rw [not_isCompleted keyed completed] at known
    cases known
  · rw [keyed] at known
    exact finishing known

theorem run_vouches (valid : write.receiver.Valid) {reply : Packet}
    (carries : write.Carries shared.ram handler)
    (genuine : write.SessionsGenuine shared.udp.incoming)
    (formed : SessionsFormed write.receiver shared.udp)
    (finishing : write.key ∉ shared.udp.finishing)
    (completed : ∀ offset,
      shared.udp.completed.lookup (write.key, offset) = none)
    (ran : handler.run write.receiver write.blake3 write.address now instant
      choice shared = some (next, .answer (some reply))) :
    ∀ sequence ∈ reply.vouches, sequence < write.packetCount →
      sequence ∈ write.received next.udp := by
  intro sequence vouched inside
  cases Handler.run_answers ran with
  | started stage => exact absurd vouched (Packet.vouches_other nofun nofun)
  | completed stage => exact absurd vouched (Packet.vouches_other nofun nofun)
  | known stage =>
      refine (not_remembered (carries_key carries ?_) finishing completed
        stage).elim
      rcases stage with ⟨stage, _⟩ | ⟨stage, _⟩ <;> simp [stage]
  | knownAll stage =>
      refine (not_remembered (carries_key carries ?_) finishing completed
        stage).elim
      rcases stage with ⟨stage, _⟩ | ⟨stage, _⟩ <;> simp [stage]
  | stored stage session payload found received set =>
      obtain ⟨slot, rfl⟩ := IncomingSession.receiveData_answer received
      have small : handler.packet.sequenceId < 2 ^ 32 :=
        Nat.lt_trans slot ((formed _ _ found).small valid)
      rcases vouched with ⟨_, member⟩ | ⟨nack, _⟩
      · refine ⟨_, ?_, IncomingSession.received_of_ack small member⟩
        rw [← carries_key carries (.inl stage)]
        exact set
      · cases nack
  | storedAll stage session after found received set =>
      have slot := IncomingSession.receiveAll_inside
        (congrArg Prod.snd received) _ List.getLastD_mem_cons
      have small : (handler.rest.getLastD handler.packet).sequenceId <
          2 ^ 32 := Nat.lt_trans slot ((formed _ _ found).small valid)
      rcases vouched with ⟨_, member⟩ | ⟨nack, _⟩
      · have has : after.isReceived sequence = true :=
          IncomingSession.received_of_ack small member
        refine ⟨{ after with lastActivity := instant }, ?_, has⟩
        rw [← carries_key carries (.inr (.inl stage))]
        exact set
      · cases nack
  | missing stage session found kept =>
      rw [carries_key carries (by simp [stage])] at found
      have genuine := genuine _ session ⟨rfl, rfl⟩ found
      have slots := genuine.receives.assembles.slots
      have small : session.received.length < 2 ^ 32 := by
        rw [slots]
        exact (formed _ _ found).small valid
      rcases vouched with ⟨ack, _⟩ | ⟨_, member⟩
      · cases ack
      · rw [kept]
        refine ⟨session, found,
          IncomingSession.received_of_nack small member ?_⟩
        rw [slots, genuine_count genuine]
        exact inside

end Reports

section Steps

variable {write} {seen : List WriteState} {state next : WriteState}
  {event : WriteEvent}

theorem whole_of_full (invariant : write.Invariant state)
    {session : IncomingSession}
    (found : state.daemon.shared.udp.incoming.lookup write.key =
      some session)
    (full : session.receivedCount = session.packetCount) :
    write.Whole state := by
  have genuine := invariant.sessions _ session ⟨rfl, rfl⟩ found
  refine ⟨session, found, ?_⟩
  rw [← genuine_count genuine]
  exact genuine.receives.assembles.all_received full

theorem whole_of_all (positive : 0 < write.packetCount)
    (all : ∀ sequence < write.packetCount,
      sequence ∈ write.received state.daemon.shared.udp) :
    write.Whole state := by
  obtain ⟨session, found, _⟩ := all 0 positive
  refine ⟨session, found, ?_⟩
  intro sequence inside
  obtain ⟨other, same, received⟩ := all sequence inside
  cases found.symm.trans same
  exact received

theorem step_keeps (spares : write.Spares state event)
    (stepped : write.step state event = some next)
    {session : IncomingSession}
    (found : state.daemon.shared.udp.incoming.lookup write.key =
      some session) :
    (∃ later, next.daemon.shared.udp.incoming.lookup write.key =
        some later ∧ session.Grows later) ∨
      session.receivedCount = session.packetCount := by
  rcases step_cases stepped with ⟨_, _, _, _, _, _, rfl⟩ |
      ⟨taken, daemon, rfl, _, taken, rfl⟩
  · exact .inl ⟨session, found, .refl session⟩
  · rcases Daemon.step_cases taken with ⟨source, datagrams, rfl, rfl⟩ |
        ⟨index, choice, rfl, handled⟩ | ⟨_, _, incoming, _⟩
    · exact .inl ⟨session, found, .refl session⟩
    · obtain ⟨source, handler, rest, outcome, running, _, ran, _⟩ :=
        Daemon.handle_handles handled
      have spared := spares _ (Daemon.running_of_tasks running)
      exact ((Handler.run_changes ran).keeps found spared).imp id And.right
    · exact .inl ⟨session, incoming ▸ found, .refl session⟩

theorem received_grows (invariant : write.Invariant state)
    (spares : write.Spares state event)
    (stepped : write.step state event = some next)
    (unfull : ¬write.Whole state) :
    write.received state.daemon.shared.udp ⊆
      write.received next.daemon.shared.udp := by
  intro sequence given
  obtain ⟨session, found, received⟩ := given
  rcases step_keeps spares stepped found with ⟨later, kept, grows⟩ | full
  · exact ⟨later, kept, grows.received sequence received⟩
  · exact absurd (whole_of_full invariant found full) unfull

theorem Current.sender {sent : SendEvent} {phase : Phase}
    {packets : List Packet} (valid : 0 < write.sender.udpPayloadBytes)
    (current : write.Current state) (unfull : ¬write.Whole state)
    (returns : write.Returns state sent)
    (stepped : write.request.step write.sender write.blake3
      write.destination state.phase sent = some (phase, packets)) :
    write.Current { state with
      phase := phase, emitted := state.emitted ++ packets } := by
  obtain ⟨finishing, completed, untaken, answered, backed, begun,
    unfinished⟩ := current
  refine ⟨finishing, completed, untaken, answered, ?_,
    SendPayload.step_begun valid begun stepped, ?_⟩
  · refine SendPayload.step_backed backed ?_ stepped
    rintro datagrams rfl packet listed transfer
    rcases returns rfl packet (mem_validPackets.mpr listed) with
      sent | other
    · exact answered packet sent transfer
    · exact absurd transfer other
  · intro packet member
    rcases List.mem_append.mp member with old | new
    · exact unfinished packet old
    · intro fin
      obtain ⟨attempt, phase⟩ := SendPayload.step_fin stepped new fin
      rw [phase] at backed begun
      exact unfull (whole_of_all begun backed)

theorem Current.handles (valid : write.receiver.Valid)
    (reported : write.Reported seen state) (current : write.Current state)
    (unfull : ¬write.Whole state) {daemon : Daemon} {index : Nat}
    {choice : Choice}
    (grown : write.received state.daemon.shared.udp ⊆
      write.received daemon.shared.udp)
    (handled : state.daemon.handle write.receiver write.blake3 index choice =
      some daemon) : write.Current { state with daemon := daemon } := by
  obtain ⟨finishing, completed, untaken, answered, backed, begun,
    unfinished⟩ := current
  obtain ⟨source, handler, rest, outcome, _, handles, ran, others, sent,
    _⟩ := Daemon.handle_handles handled
  have changes := Handler.run_changes ran
  refine ⟨?_, ?_, ?_, ?_, backed.mono grown, begun, unfinished⟩
  · intro member
    rcases changes.finishing member with old | ⟨_, _, session, found, full⟩
    · exact finishing old
    · exact unfull (whole_of_full reported.invariant found full)
  · intro offset
    cases stored : daemon.shared.udp.completed.lookup
        (write.key, offset) with
    | none => rfl
    | some time =>
        exfalso
        rcases Handler.run_completed ran stored with old | ⟨stage, same⟩
        · rw [completed offset] at old
          cases old
        · have keyed := (Prod.mk.inj same).1
          obtain rfl : write.address = source :=
            congrArg SessionKey.source keyed
          have transfer : handler.packet.transferId =
              write.request.transferId :=
            (congrArg SessionKey.transfer keyed).symm
          have fresh := untaken handler handles transfer
          rw [stage] at fresh
          cases fresh
  · intro other otherHandles transfer
    rcases others _ other otherHandles with old | ⟨rfl, stage, rfl, rfl⟩
    · exact untaken other old transfer
    · by_contra taken
      rcases Handler.run_taken ran (by simpa using taken) with old |
          ⟨finSession, session, found, full⟩
      · rw [untaken handler handles transfer] at old
        cases old
      · have carries := reported.invariant.handlers handler handles transfer
        unfold Carries at carries
        rw [finSession] at carries
        rw [key_of_fin carries] at found
        exact unfull (whole_of_full reported.invariant found full)
  · intro packet member transfer
    rw [sent] at member
    rcases List.mem_append.mp member with old | new
    · intro sequence vouched inside
      exact grown (answered packet old transfer sequence vouched inside)
    · obtain ⟨reply, replied, same⟩ := List.mem_map.mp new
      cases same
      have coherent := reported.invariant.coherent _ handler handles
      have named := Handler.run_replies coherent ran replied
      have own := named.1.symm.trans transfer
      intro sequence vouched inside
      cases outcome with
      | answer reply =>
          obtain rfl := Option.mem_toList.mp replied
          exact run_vouches valid
            (reported.invariant.handlers handler handles own)
            reported.invariant.sessions reported.formed.sessions finishing
            completed ran sequence vouched inside
      | fail message =>
          have kind := TrainPool.errorReply_kind replied
          exact absurd vouched (Packet.vouches_other (by simp [kind])
            (by simp [kind]))
      | next stage => cases replied
      | respond response => cases replied
      | panic => cases replied

theorem step_reported (valid : write.receiver.Valid)
    (positive : 0 < write.sender.udpPayloadBytes)
    (reported : write.Reported seen state)
    (spares : write.Spares state event)
    (stepped : write.step state event = some next) :
    write.Reported (seen ++ [next]) next := by
  have invariant := step_invariant positive reported.invariant stepped
  have formed : next.daemon.Formed write.receiver := by
    rcases step_cases stepped with ⟨_, _, _, _, _, _, rfl⟩ |
        ⟨_, _, _, _, taken, rfl⟩
    · exact reported.formed
    · exact Daemon.step_formed reported.formed taken
  have slots : next.phase.Backed write.packetCount Set.univ := by
    rcases step_cases stepped with ⟨_, _, _, _, _, sent, rfl⟩ |
        ⟨_, _, _, _, _, rfl⟩
    · apply SendPayload.step_backed reported.slots _ sent
      intros
      exact Set.mem_univ _
    · exact reported.slots
  refine ⟨invariant, formed, by simp, slots, ?_⟩
  rcases reported.current with ⟨earlier, member, whole⟩ | current
  · exact .inl ⟨earlier, List.mem_append_left _ member, whole⟩
  by_cases whole : write.Whole state
  · exact .inl ⟨state, List.mem_append_left _ reported.present, whole⟩
  right
  have grown := received_grows reported.invariant spares stepped whole
  rcases step_cases stepped with ⟨_, _, _, _, returns, sent, rfl⟩ |
      ⟨taken, daemon, rfl, _, taken, rfl⟩
  · exact current.sender positive whole returns sent
  · obtain ⟨finishing, completed, untaken, answered, backed, begun,
      unfinished⟩ := current
    rcases Daemon.step_cases taken with ⟨source, datagrams, rfl, rfl⟩ |
        ⟨index, choice, rfl, handled⟩ |
        ⟨tasks, sent, incoming, finished, done⟩
    · refine ⟨finishing, completed, ?_, answered, backed, begun, unfinished⟩
      intro handler handles transfer
      rcases Daemon.receive_handles handles with old | ⟨_, member⟩
      · exact untaken handler old transfer
      · rcases (udpDatagrams_spec member).2 with ⟨stage, _⟩ | ⟨stage, _⟩
        · simp [stage, Stage.taken]
        · simp [stage, Stage.taken]
    · exact Current.handles valid reported
        ⟨finishing, completed, untaken, answered, backed, begun, unfinished⟩
        whole grown handled
    · refine ⟨finished ▸ finishing, done ▸ completed, ?_, ?_,
        backed.mono grown, begun, unfinished⟩
      · intro handler handles transfer
        exact untaken handler (handles.of_tasks tasks) transfer
      · intro packet member transfer sequence vouched inside
        rw [sent] at member
        exact grown (answered packet member transfer sequence vouched inside)

theorem Unused.reported {setup : List DaemonEvent} {daemon : Daemon}
    (unused : write.Unused daemon)
    (started : run (Daemon.step write.receiver write.blake3 write.self)
      Daemon.empty setup = some daemon) :
    write.Reported [⟨.ready, [], daemon⟩] ⟨.ready, [], daemon⟩ where
  invariant := unused.fresh.started started
  formed := run_invariant (Daemon.Formed write.receiver)
    (fun _ _ _ formed stepped => Daemon.step_formed formed stepped)
    Daemon.empty_formed started
  present := List.mem_singleton_self _
  slots := trivial
  current := by
    right
    refine ⟨unused.finishing, ?_, ?_, ?_, trivial, trivial, ?_⟩
    · intro offset
      exact unused.fresh.completed write.key offset ⟨rfl, rfl⟩
    · intro handler handles transfer
      exact absurd transfer (unused.fresh.handlers handler handles)
    · intro packet sent transfer
      exact absurd transfer (unused.answers packet sent)
    · intro packet member
      cases member

end Steps

end Write

/-- Whatever the network does, a sender holds a packet for acknowledged only if
the receiver has received it, and it sends FIN only when the receiver has
received them all: the daemon of a write, as long as the session is neither
aborted nor expired, and the reader of a read response.  Between the two
sockets there was no earlier chunk of the transfer. -/
theorem acknowledgements_sound (write : Write) (setup : List DaemonEvent)
    (events : List WriteEvent) (daemon : Daemon) (final : WriteState)
    (response : Response) (responseEvents : List ResponseEvent)
    (responseFinal : ResponseState) :
    (write.sender.Valid → write.receiver.Valid →
      run (Daemon.step write.receiver write.blake3 write.self) Daemon.empty
        setup = some daemon →
      write.Unused daemon →
      Along write.step write.Spares ⟨.ready, [], daemon⟩ events →
      run write.step ⟨.ready, [], daemon⟩ events = some final →
      (∀ sequence ∈ final.phase.acked, sequence < write.packetCount ∧
        (sequence ∈ write.received final.daemon.shared.udp ∨
          ∃ earlier ∈ ⟨.ready, [], daemon⟩ ::
              passed write.step ⟨.ready, [], daemon⟩ events,
            write.Whole earlier)) ∧
      ∀ packet ∈ final.emitted, packet.kind = .fin →
        ∃ earlier ∈ ⟨.ready, [], daemon⟩ ::
            passed write.step ⟨.ready, [], daemon⟩ events,
          write.Whole earlier) ∧
    (response.sender.Valid → response.reader.Valid → response.Unused →
      run response.step {} responseEvents = some responseFinal →
      (∀ sequence ∈ responseFinal.phase.acked,
        sequence < response.packetCount ∧
        sequence ∈ response.stored responseFinal) ∧
      ∀ packet ∈ responseFinal.emitted, packet.kind = .fin →
        ∀ sequence < response.packetCount,
          sequence ∈ response.stored responseFinal) := by
  constructor
  · intro sender receiver started unused spares ran
    have positive : 0 < write.sender.udpPayloadBytes :=
      Nat.lt_of_lt_of_le (by decide) sender.payload.1
    have reported := run_passed_along write.Reported
      (fun _ _ _ _ reported spares stepped =>
        Write.step_reported receiver positive reported spares stepped)
      (unused.reported started) spares ran
    rcases reported.current with past | current
    · refine ⟨?_, fun _ _ _ => past⟩
      intro sequence member
      exact ⟨(reported.slots.acked sequence member).1, .inr past⟩
    · refine ⟨?_, ?_⟩
      · intro sequence member
        obtain ⟨inside, received⟩ := current.backed.acked sequence member
        exact ⟨inside, .inl received⟩
      · intro packet member fin
        exact absurd fin (current.unfinished packet member)
  · intro sender reader unused ran
    have positive : 0 < response.sender.udpPayloadBytes :=
      Nat.lt_of_lt_of_le (by decide) sender.payload.1
    have reported := run_invariant response.Reported
      (fun _ _ _ reported stepped =>
        Response.step_reported reader positive unused reported stepped)
      response.start_reported ran
    exact ⟨reported.backed.acked, reported.finished⟩

/-! A write and a read of three bytes. -/

def abcResponse : Response where
  request := firstChunk
  sender := {}
  address := 60
  reading := ⟨chunkHandle, 9, 0, 3⟩
  reader := {}
  destination := 1
  server := 50
  early := []
  blake3 := chunkHash
  transfer := rfl

def abcResponseRun : List ResponseEvent :=
  let start := firstChunk.startPacket {} chunkHash
  let data := firstChunk.dataPacket {} 0
  [.reader .proceed, .reader .proceed, .sender .proceed, .sender .proceed,
    .reader (.receive 60 [.ok start]),
    .sender (.receive 1 [.ok (abcResponse.reading.startAck {})]),
    .sender .proceed, .sender .proceed,
    .reader (.receive 60 [.ok data]),
    .sender (.receive 1 [.ok (abcResponse.reading.answer .ack
      (bitmapPayload 0 [true] 256))]),
    .sender .proceed, .sender .proceed, .sender .proceed, .sender .proceed]

theorem acknowledgements_sound_abc :
    (∃ final, run Write.abc.step ⟨.ready, [], Write.abcDaemon⟩
        (Write.abcRun.take 15) = some final ∧ 0 ∈ final.phase.acked ∧
      (0 ∈ Write.abc.received final.daemon.shared.udp ∨
        ∃ earlier ∈ ⟨.ready, [], Write.abcDaemon⟩ ::
            passed Write.abc.step ⟨.ready, [], Write.abcDaemon⟩
              (Write.abcRun.take 15), Write.abc.Whole earlier)) ∧
    ∃ final, run abcResponse.step {} abcResponseRun = some final ∧
      (∃ packet ∈ final.emitted, packet.kind = .fin) ∧
      ∀ sequence < abcResponse.packetCount,
        sequence ∈ abcResponse.stored final := by
  constructor
  · have started : run (Daemon.step {} abcHash ⟨2, 20⟩) Daemon.empty
        [.request (.allocateLocal abcHandle true true)] =
          some Write.abcDaemon := rfl
    have done : (run Write.abc.step ⟨.ready, [], Write.abcDaemon⟩
        (Write.abcRun.take 15)).map (·.phase) =
          some (.awaitAcks ⟨256, [true], 0, 1, 0⟩) := by
      decide +kernel
    obtain ⟨final, ran, phase⟩ := Option.map_eq_some_iff.mp done
    have unused : Write.abc.Unused Write.abcDaemon := by
      refine ⟨⟨fun _ _ => rfl, fun _ _ _ => rfl, ?_, ?_⟩, by decide, ?_⟩
      · simp [Daemon.Handles, Write.abcDaemon, Daemon.empty]
      · simp [Write.abcDaemon, Daemon.empty]
      · simp [Write.abcDaemon, Daemon.empty]
    have spares : Along Write.abc.step Write.abc.Spares
        ⟨.ready, [], Write.abcDaemon⟩ (Write.abcRun.take 15) := by
      decide +kernel
    have sound := ((acknowledgements_sound Write.abc _ _ _ final abcResponse []
      {}).1 Config.default_valid Config.default_valid started unused spares
      ran).1
    have acked : 0 ∈ final.phase.acked := by
      rw [phase]
      rfl
    exact ⟨final, ran, acked, (sound 0 acked).2⟩
  · have done : (run abcResponse.step {} abcResponseRun).map (·.emitted) =
        some [firstChunk.startPacket {} chunkHash,
          firstChunk.dataPacket {} 0, firstChunk.finPacket {} chunkHash] := by
      decide +kernel
    obtain ⟨final, ran, emitted⟩ := Option.map_eq_some_iff.mp done
    have fin : firstChunk.finPacket {} chunkHash ∈ final.emitted := by
      simp [emitted]
    have unused : abcResponse.Unused := by
      intro packet early
      cases early
    have sound := ((acknowledgements_sound Write.abc [] [] Daemon.empty
      ⟨.ready, [], Daemon.empty⟩ abcResponse _ final).2 Config.default_valid
      Config.default_valid unused ran).2
    exact ⟨final, ran, ⟨_, fin, rfl⟩, sound _ fin rfl⟩

/-! The second chunk of a transfer, between the sockets of the first.  What
was reported about the first comes late. -/

namespace Write

instance (udp : UdpServerState) (sequence : ℕ) (write : Write) :
    Decidable (sequence ∈ write.received udp) :=
  inferInstanceAs (Decidable (∃ session ∈ udp.incoming.lookup write.key, _))

instance (state : WriteState) (write : Write) :
    Decidable (write.Whole state) :=
  inferInstanceAs (Decidable
    (∃ session ∈ state.daemon.shared.udp.incoming.lookup write.key,
      ∀ sequence < write.packetCount, _))

end Write

instance (sequence : ℕ) : (phase : Phase) →
    Decidable (sequence ∈ phase.acked)
  | .window data | .round data | .awaitAcks data =>
      inferInstanceAs (Decidable (data.acknowledged.getD sequence false = true))
  | .ready | .handshake _ | .awaitStart _ | .fin _ | .awaitComplete _
  | .returned _ => isFalse (Set.notMem_empty sequence)

instance (state : ResponseState) (sequence : ℕ) (response : Response) :
    Decidable (sequence ∈ response.stored state) :=
  inferInstanceAs (Decidable (∃ session ∈ state.session, _ ∧ _))

def laterWrite : Write where
  request := ⟨twoChunkHandle, 9, 3, [97, 98, 99], false, firstChunk_bounded⟩
  sender := {}
  address := 1
  destination := 50
  receiver := {}
  self := ⟨2, 20⟩
  blake3 := abcHash

def firstTaken : List DaemonEvent :=
  Daemon.chunkWithFin 0 ++ handleOnly 2 1

/-- The START of the second chunk is answered; its DATA packet is lost. -/
def laterWriteRun : List WriteEvent :=
  let report := (twoChunkPacket .data 0 0 [97, 98, 99]).response .ack
    (bitmapPayload 0 [true] 256)
  [.sender .proceed, .sender .proceed,
    .daemon (.receive 1 [.ok (twoChunkStart 3)]), .daemon (.handle 3 {}),
    .daemon (.handle 3 {}), .daemon (.handle 3 {}), .daemon (.handle 3 {}),
    .sender (.receive 50 [.ok ((twoChunkStart 3).response .startAck
      (Bytes.toBigEndian 2 256))]),
    .sender .proceed, .sender .proceed, .sender (.receive 50 [.ok report])]

def laterWriteFin : List WriteEvent :=
  laterWriteRun ++ List.replicate 4 (.sender .proceed)

def laterResponse : Response where
  request := ⟨chunkHandle, 9, 3, [97, 98, 100], true, by decide⟩
  sender := {}
  address := 60
  reading := ⟨chunkHandle, 9, 3, 3⟩
  reader := {}
  destination := 1
  server := 50
  early := [abcResponse.reading.answer .ack (bitmapPayload 0 [true] 256)]
  blake3 := chunkHash
  transfer := rfl

def laterResponseRun : List ResponseEvent :=
  let start := laterResponse.request.startPacket {} chunkHash
  [.reader .proceed, .reader .proceed, .sender .proceed, .sender .proceed,
    .reader (.receive 60 [.ok start]),
    .sender (.receive 1 [.ok (laterResponse.reading.startAck {})]),
    .sender .proceed, .sender .proceed,
    .sender (.receive 1 (laterResponse.early.map .ok))]

def laterResponseFin : List ResponseEvent :=
  laterResponseRun ++ List.replicate 4 (.sender .proceed)

/-- An acknowledgement of the first chunk counts for the second, of which the
receiver has nothing when it is sent FIN. -/
theorem late_report_acknowledges :
    (∃ daemon middle final,
      run (Daemon.step {} abcHash ⟨2, 20⟩) Daemon.empty firstTaken =
          some daemon ∧
        Along laterWrite.step laterWrite.Spares ⟨.ready, [], daemon⟩
          laterWriteFin ∧
        run laterWrite.step ⟨.ready, [], daemon⟩ laterWriteRun =
          some middle ∧
        run laterWrite.step ⟨.ready, [], daemon⟩ laterWriteFin =
          some final ∧
        (0 ∈ middle.phase.acked ∧
          0 ∉ laterWrite.received middle.daemon.shared.udp) ∧
        (∃ packet ∈ final.emitted, packet.kind = .fin) ∧
        ∀ earlier ∈ ⟨.ready, [], daemon⟩ ::
            passed laterWrite.step ⟨.ready, [], daemon⟩ laterWriteFin,
          ¬laterWrite.Whole earlier) ∧
    ∃ middle final,
      run laterResponse.step {} laterResponseRun = some middle ∧
        run laterResponse.step {} laterResponseFin = some final ∧
        (0 ∈ middle.phase.acked ∧ 0 ∉ laterResponse.stored middle) ∧
        (∃ packet ∈ final.emitted, packet.kind = .fin) ∧
        0 ∉ laterResponse.stored final := by
  constructor
  · have taken : (run (Daemon.step {} abcHash ⟨2, 20⟩) Daemon.empty
        firstTaken).any (fun daemon => decide (
          Along laterWrite.step laterWrite.Spares ⟨.ready, [], daemon⟩
            laterWriteFin ∧
          (run laterWrite.step ⟨.ready, [], daemon⟩ laterWriteRun).any
            (fun middle => decide (0 ∈ middle.phase.acked ∧
              0 ∉ laterWrite.received middle.daemon.shared.udp)) ∧
          (run laterWrite.step ⟨.ready, [], daemon⟩ laterWriteFin).any
            (fun final =>
              decide (∃ packet ∈ final.emitted, packet.kind = .fin)) ∧
          ∀ earlier ∈ ⟨.ready, [], daemon⟩ ::
              passed laterWrite.step ⟨.ready, [], daemon⟩ laterWriteFin,
            ¬laterWrite.Whole earlier)) = true := by
      decide +kernel
    obtain ⟨daemon, started, facts⟩ := Option.any_eq_true _ _ |>.mp taken
    obtain ⟨spares, acks, ends, unfull⟩ := of_decide_eq_true facts
    obtain ⟨middle, reached, acked⟩ := Option.any_eq_true _ _ |>.mp acks
    obtain ⟨final, ran, finished⟩ := Option.any_eq_true _ _ |>.mp ends
    exact ⟨daemon, middle, final, started, spares, reached, ran,
      of_decide_eq_true acked, of_decide_eq_true finished, unfull⟩
  · have acks : (run laterResponse.step {} laterResponseRun).any
        (fun middle => decide (0 ∈ middle.phase.acked ∧
          0 ∉ laterResponse.stored middle)) = true := by
      decide +kernel
    have ends : (run laterResponse.step {} laterResponseFin).any
        (fun final => decide ((∃ packet ∈ final.emitted, packet.kind = .fin) ∧
          0 ∉ laterResponse.stored final)) = true := by
      decide +kernel
    obtain ⟨middle, reached, acked⟩ := Option.any_eq_true _ _ |>.mp acks
    obtain ⟨final, ran, finished⟩ := Option.any_eq_true _ _ |>.mp ends
    obtain ⟨fin, nothing⟩ := of_decide_eq_true finished
    exact ⟨middle, final, reached, ran, of_decide_eq_true acked, fin,
      nothing⟩

end TrainPool
