import TrainPool.Runtime.Lossless

namespace TrainPool

open Execution

/-! When a write on such a network sends a DATA packet twice. -/

namespace Link

variable (link : Link)

def Repeated (state : LinkState) : Prop :=
  ∃ sequence < link.packetCount, 1 < state.emitted.count
    (link.request.dataPacket link.config sequence)

/-- The daemon can get together what arrives so that the write never comes to
an end with everything sent once. -/
def Dooms (state : LinkState) : Prop :=
  ¬Inevitable link.step (link.Permits true 0) link.SentOnce state

section Needless

variable {link} {state next : LinkState} {window : Window}
  {base finish missing : ℕ}

theorem step_emitted {event : LinkEvent}
    (stepped : link.step state event = some next) :
    ∃ packets, next.emitted = state.emitted ++ packets := by
  have nothing : state.emitted = state.emitted ++ [] :=
    (List.append_nil _).symm
  cases event with
  | proceed =>
      obtain ⟨_, packets, _, rfl⟩ := send_eq_some.mp stepped
      exact ⟨packets, rfl⟩
  | timeout =>
      obtain ⟨_, packets, _, rfl⟩ :=
        send_eq_some.mp (step_timeout.mp stepped).2
      exact ⟨packets, rfl⟩
  | deliver count moment =>
      obtain ⟨_, _, _, _, _, rfl⟩ := step_deliver.mp stepped
      exact ⟨[], nothing⟩
  | answer count =>
      obtain ⟨_, packets, _, rfl⟩ :=
        send_eq_some.mp (step_answer.mp stepped).2
      exact ⟨packets, rfl⟩
  | loseOutbound =>
      obtain ⟨_, _, _, rfl⟩ := step_loseOutbound.mp stepped
      exact ⟨[], nothing⟩
  | loseInbound =>
      obtain ⟨_, _, _, rfl⟩ := step_loseInbound.mp stepped
      exact ⟨[], nothing⟩

theorem Repeated.dooms (repeated : link.Repeated state) :
    link.Dooms state := by
  intro inevitable
  refine inevitable.not_doomed ?_ ?_ repeated
  · intro state repeated once
    obtain ⟨sequence, inside, twice⟩ := repeated
    have := once.2 sequence inside
    omega
  · intro state event next repeated _ stepped
    obtain ⟨sequence, inside, twice⟩ := repeated
    obtain ⟨packets, grown⟩ := step_emitted stepped
    refine ⟨sequence, inside, ?_⟩
    rw [grown, List.count_append]
    omega

theorem SentOnce.apart {goal : LinkState → Prop}
    (once : link.SentOnce state) (inWindow : ∀ {state}, goal state →
      ∃ window, state.phase = .window window) :
    ¬Inevitable link.step (link.Permits true 0) goal state := by
  intro inevitable
  let doomed (state : LinkState) : Prop :=
    state.phase = .returned (.ok ())
  have lost : doomed state := once.1
  refine inevitable.not_doomed ?_ ?_ lost
  · intro state returned reached
    obtain ⟨window, phase⟩ := inWindow reached
    cases phase.symm.trans returned
  · exact fun _ _ _ returned _ stepped => returned_stays returned stepped

theorem AtWindow.inWindow (at_ : link.AtWindow base state) :
    ∃ window, state.phase = .window window :=
  at_.phase.imp fun _ found => found.1

theorem Opened.inWindow {budget : ℕ} (opened : link.Opened budget state) :
    ∃ window, state.phase = .window window :=
  opened.phase.imp fun _ found => found.1

theorem Dooms.before (dooms : link.Dooms next) (event : LinkEvent)
    (working : state.phase ≠ .returned (.ok ()))
    (permitted : link.Permits true 0 state event)
    (stepped : link.step state event = some next) : link.Dooms state := by
  intro inevitable
  refine dooms (inevitable.after ?_ permitted stepped)
  exact fun once => working once.1

theorem dooms_round (sendable : link.Sendable)
    (inside : finish ≤ link.packetCount)
    (phase : state.phase = .round window)
    (spans : link.Spans window base finish 1)
    (within : base ≤ missing ∧ missing < finish)
    (unacked : missing ∉ window.acked) (sent : link.Sent finish state) :
    link.Dooms state := by
  have pending : window.pending = true :=
    (spans.pending_iff inside).mpr ⟨missing, within.1, within.2, unacked⟩
  have moves : link.request.step link.config link.blake3 link.destination
      state.phase .proceed = some (.awaitAcks window,
        window.unacknowledged.map (link.request.dataPacket link.config)) := by
    rw [phase, round_moves sendable pending]
  have again : missing ∈ window.unacknowledged := by
    rw [Window.mem_unacknowledged, spans.base, spans.finish]
    exact ⟨within.1, within.2, unacked⟩
  have once : link.request.dataPacket link.config missing ∈ state.emitted := by
    have among : link.request.dataPacket link.config missing ∈
        state.dataSent := by
      rw [sent]
      exact List.mem_map_of_mem (List.mem_range.mpr within.2)
    exact List.mem_of_mem_filter among
  refine Dooms.before (Repeated.dooms ⟨missing, by omega, ?_⟩) .proceed
    (by rw [phase]; exact nofun) trivial
    (send_eq_some.mpr ⟨_, _, moves, rfl⟩)
  have first := List.count_pos_iff.mpr once
  have second := List.count_pos_iff.mpr (List.mem_map_of_mem
    (f := link.request.dataPacket link.config) again)
  simp only [List.count_append]
  omega

theorem dooms_silent (sendable : link.Sendable)
    (inside : finish ≤ link.packetCount)
    (phase : state.phase = .awaitAcks window)
    (spans : link.Spans window base finish 0)
    (within : base ≤ missing ∧ missing < finish)
    (unacked : missing ∉ window.acked)
    (quiet : state.outbound = [] ∧ state.inbound = [])
    (sent : link.Sent finish state) : link.Dooms state := by
  have retries := sendable.valid.retries
  have expires : link.request.step link.config link.blake3 link.destination
      state.phase .timeout = some (.round { window with round := 1 }, []) := by
    rw [phase]
    simp only [SendPayload.step, SendPayload.endRound, spans.round]
    rw [if_pos (by omega)]
    simp
  refine Dooms.before ?_ .timeout (by rw [phase]; simp) trivial
    (step_timeout.mpr ⟨quiet, send_eq_some.mpr ⟨_, _, expires, rfl⟩⟩)
  have again : link.Spans { window with round := 1 } base finish 1 :=
    ⟨spans.base, spans.finish, rfl, spans.negotiated, spans.slots⟩
  refine dooms_round sendable inside rfl again within unacked ?_
  rw [Sent, dataSent_append, List.filter_nil, List.append_nil]
  exact sent

theorem dooms_unanswered (sendable : link.Sendable)
    (inside : finish ≤ link.packetCount)
    (phase : state.phase = .awaitAcks window)
    (spans : link.Spans window base finish 0)
    (within : base ≤ missing ∧ missing < finish)
    (unacked : missing ∉ window.acked) (outbound : state.outbound = [])
    (acks : ∀ packet ∈ state.inbound, link.AcksBelow link.packetCount packet)
    (unreported : ∀ packet ∈ state.inbound, missing ∉ packet.report)
    (sent : link.Sent finish state) : link.Dooms state := by
  rcases Nat.eq_zero_or_pos state.inbound.length with none_ | some_
  · exact dooms_silent sendable inside phase spans within unacked
      ⟨outbound, List.length_eq_zero_iff.mp none_⟩ sent
  · have pending : window.pending = true :=
      (spans.pending_iff inside).mpr ⟨missing, within.1, within.2, unacked⟩
    obtain ⟨after, moves, learnt⟩ :=
      awaitAcks_learns pending spans.slots acks
    have answers : link.step state (.answer state.inbound.length) = some
        { state with
          phase := .awaitAcks after
          inbound := []
          outbound := state.outbound ++ []
          emitted := state.emitted ++ [] } := by
      refine step_answer.mpr ⟨⟨some_, Nat.le_refl _⟩,
        send_eq_some.mpr ⟨.awaitAcks after, [], ?_, ?_⟩⟩
      · rw [List.take_length, phase]
        exact moves
      · simp
    refine Dooms.before ?_ (.answer state.inbound.length)
      (by rw [phase]; exact nofun) (.inl rfl) answers
    refine dooms_silent sendable inside rfl (spans.learn sendable learnt)
      within ?_ (by simpa using outbound) ?_
    · rw [learnt.acked]
      rintro (known | ⟨packet, among, reported⟩)
      · exact unacked known
      · exact unreported packet among reported
    · simpa [Sent, LinkState.dataSent] using sent

/-- The sender has sent the window at `base` and the daemon takes it. -/
structure Streaming (base finish count : ℕ) (state : LinkState) : Prop where
  phase : ∃ window, state.phase = .awaitAcks window ∧
    link.Spans window base finish 0 ∧
      ∀ sequence ∈ window.acked, sequence < base
  outbound : state.outbound = (List.range' count (finish - count)).map
    (link.request.dataPacket link.config)
  arrived : link.Arrived count state
  sent : link.Sent finish state

theorem AtWindow.launches (sendable : link.Sendable)
    (inside : base < link.packetCount)
    (ends : finish = min (base + link.config.udpWindowPackets)
      link.packetCount)
    (at_ : link.AtWindow base state)
    (dooms : ∀ next, link.Streaming base finish base next →
      next.inbound = [] → link.Dooms next) : link.Dooms state := by
  obtain ⟨⟨window, phase, start, negotiated, slots, acked⟩, quiet, arrived,
    sent⟩ := at_
  have size := sendable.valid.window
  have spans : link.Spans { window with finish := finish, round := 0 }
      base finish 0 := ⟨start, rfl, rfl, negotiated, slots⟩
  have moves : link.request.step link.config link.blake3 link.destination
      state.phase .proceed =
        some (.round { window with finish := finish, round := 0 }, []) := by
    rw [phase, window_moves (start ▸ inside), start, negotiated, ends]
  refine Dooms.before ?_ .proceed (by rw [phase]; exact nofun) trivial
    (send_eq_some.mpr ⟨_, _, moves, rfl⟩)
  have pending :
      ({ window with finish := finish, round := 0 } : Window).pending =
        true := by
    refine (spans.pending_iff (by omega)).mpr
      ⟨base, Nat.le_refl _, by omega, ?_⟩
    exact fun known => Nat.lt_irrefl _ (acked base known)
  have sends := round_moves sendable pending
  rw [spans.unacknowledged acked] at sends
  refine Dooms.before ?_ .proceed nofun trivial
    (send_eq_some.mpr ⟨_, _, sends, rfl⟩)
  refine dooms _ ⟨⟨_, rfl, spans, acked⟩, ?_, arrived, ?_⟩ quiet.2
  · simp [quiet.1]
  · rw [Sent, dataSent_append, List.filter_eq_self.mpr]
    · rw [dataSent_append, List.filter_nil, List.append_nil, sent,
        ← List.map_append]
      congr 1
      rw [List.range_eq_range', List.range_eq_range']
      have whole := @List.range'_append_1 0 base (finish - base)
      rw [Nat.zero_add, Nat.add_sub_of_le (by omega)] at whole
      exact whole
    · intro packet member
      obtain ⟨sequence, _, rfl⟩ := List.mem_map.mp member
      rfl

theorem Streaming.delivers (sendable : link.Sendable)
    (inside : finish ≤ link.packetCount) {count size : ℕ}
    (streaming : link.Streaming base finish count state)
    (positive : 0 < size) (within : count + size ≤ finish)
    (dooms : ∀ next replies, link.Streaming base finish (count + size) next →
      next.inbound = state.inbound ++ replies →
      ((replies = [] ∧ size = 1 ∧ (count + size) % 8 ≠ 0 ∧
          count + size ≠ link.packetCount) ∨
        ((count + size) % 8 = 0 ∨ count + size = link.packetCount ∨
          1 < size) ∧
        ∃ ack : Packet, replies = [ack] ∧
          ack.Acks link.request.transferId link.config.udpWindowPackets ∧
          ack.report = { sequence | sequence < count + size ∧
            sequence / ackBits = (count + size - 1) / ackBits }) →
      link.Dooms next) : link.Dooms state := by
  obtain ⟨⟨window, phase, spans, acked⟩, outbound, arrived, sent⟩ := streaming
  obtain ⟨session, receiving, received⟩ := arrived
  have now : state.instant ≤ (⟨0, state.instant, {}⟩ : Moment).instant :=
    Nat.le_refl _
  obtain ⟨shared', session', replies, served, receiving', received',
    answered⟩ := receiving.run sendable now positive
      (show count + size ≤ link.packetCount by omega) received
  have most : size ≤ state.outbound.length := by
    rw [outbound, List.length_map, List.length_range']
    omega
  have first : state.outbound.take size =
      (List.range' count size).map (link.request.dataPacket link.config) := by
    rw [outbound, ← List.map_take, List.take_range'_of_length_ge (by omega)]
  rw [← first] at served
  refine Dooms.before ?_ (.deliver size ⟨0, state.instant, {}⟩)
    (by rw [phase]; exact nofun) ⟨.inl rfl, receiving.timely {}, rfl⟩
    (step_deliver.mpr ⟨⟨positive, most, now⟩, _, _, _, served, rfl⟩)
  refine dooms _ replies ⟨⟨window, phase, spans, acked⟩, ?_,
    ⟨session', receiving', received'⟩, sent⟩ rfl answered
  rw [outbound, ← List.map_drop, List.drop_range', Nat.mul_one,
    Nat.sub_add_eq]

theorem AtWindow.dooms_of_eighth (sendable : link.Sendable)
    (more : base + link.config.udpWindowPackets < link.packetCount)
    (eighth : (base + link.config.udpWindowPackets) % 8 ≠ 0)
    (at_ : link.AtWindow base state) : link.Dooms state := by
  have size := sendable.valid.window
  refine at_.launches sendable (by omega)
    (Nat.min_eq_left more.le).symm ?_
  intro first streaming quiet
  -- All but the last of the window arrive together, and the last alone.
  refine streaming.delivers sendable more.le
    (show 0 < link.config.udpWindowPackets - 1 by omega) (by omega) ?_
  intro second replies streaming arrived answered
  rw [quiet, List.nil_append] at arrived
  refine streaming.delivers sendable more.le Nat.one_pos (by omega) ?_
  intro third others streaming arrived' answered'
  rw [arrived] at arrived'
  obtain ⟨⟨window, phase, spans, acked⟩, outbound, _, sent⟩ := streaming
  have silent : others = [] := by
    rcases answered' with ⟨silent, _⟩ | ⟨reason, _⟩
    · exact silent
    · omega
  rw [silent, List.append_nil] at arrived'
  have acks : ∀ packet ∈ third.inbound, link.AcksBelow
      (base + link.config.udpWindowPackets - 1) packet := by
    rw [arrived']
    rcases answered with ⟨rfl, _⟩ | ⟨_, ack, rfl, acks, report⟩
    · exact nofun
    · intro packet member
      obtain rfl := List.mem_singleton.mp member
      refine ⟨acks, ?_⟩
      rw [report]
      intro sequence reported
      have := reported.1
      omega
  have last : base ≤ base + link.config.udpWindowPackets - 1 ∧
      base + link.config.udpWindowPackets - 1 <
        base + link.config.udpWindowPackets := by omega
  refine dooms_unanswered sendable more.le phase spans last ?_ ?_ ?_ ?_ sent
  · intro known
    have := acked _ known
    omega
  · rw [outbound, show base + link.config.udpWindowPackets -
      (base + (link.config.udpWindowPackets - 1) + 1) = 0 by omega]
    rfl
  · intro packet member
    exact (acks packet member).mono (by omega)
  · intro packet member reported
    exact Nat.lt_irrefl _ ((acks packet member).2 _ reported)

theorem AtWindow.dooms_of_blocks (sendable : link.Sendable)
    (inside : base < link.packetCount)
    (ends : finish = min (base + link.config.udpWindowPackets)
      link.packetCount)
    (apart : base / ackBits ≠ (finish - 1) / ackBits)
    (at_ : link.AtWindow base state) : link.Dooms state := by
  have size := sendable.valid.window
  refine at_.launches sendable inside ends ?_
  intro first streaming quiet
  refine streaming.delivers sendable (by omega)
    (show 0 < finish - base by omega) (by omega) ?_
  intro second replies streaming arrived answered
  rw [quiet, List.nil_append] at arrived
  rw [show base + (finish - base) = finish by omega] at streaming answered
  obtain ⟨⟨window, phase, spans, acked⟩, outbound, _, sent⟩ := streaming
  have first : base ≤ base ∧ base < finish := by omega
  refine dooms_unanswered sendable (by omega) phase spans first ?_ ?_ ?_ ?_
    sent
  · exact fun known => Nat.lt_irrefl _ (acked _ known)
  · rw [outbound, Nat.sub_self]
    rfl
  · rw [arrived]
    rcases answered with ⟨rfl, _⟩ | ⟨_, ack, rfl, acks, report⟩
    · exact nofun
    · intro packet member
      obtain rfl := List.mem_singleton.mp member
      refine ⟨acks, ?_⟩
      rw [report]
      intro sequence reported
      have := reported.1
      omega
  · rw [arrived]
    rcases answered with ⟨rfl, _⟩ | ⟨_, ack, rfl, acks, report⟩
    · exact nofun
    · intro packet member
      obtain rfl := List.mem_singleton.mp member
      rw [report]
      exact fun reported => apart reported.2

theorem AtWindow.dooms_of_straddle (sendable : link.Sendable)
    (large : ackBits < link.packetCount)
    (eighth : link.config.udpWindowPackets % 8 = 0)
    (uneven : ackBits % link.config.udpWindowPackets ≠ 0)
    (multiple : base % link.config.udpWindowPackets = 0)
    (early : base < ackBits) (at_ : link.AtWindow base state) :
    link.Dooms state := by
  have size := sendable.valid.window
  induction remaining : ackBits - base using Nat.strong_induction_on
    generalizing base state with
  | _ remaining ih =>
      have next : (base + link.config.udpWindowPackets) %
          link.config.udpWindowPackets = 0 := by
        rw [Nat.add_mod_right]
        exact multiple
      have uneven' : base + link.config.udpWindowPackets ≠ ackBits := by
        intro same
        rw [same] at next
        exact uneven next
      rcases Nat.lt_or_gt_of_ne uneven' with within | shut
      · have base8 : (base + link.config.udpWindowPackets) % 8 = 0 :=
          Nat.mod_eq_zero_of_dvd ((Nat.dvd_of_mod_eq_zero eighth).trans
            (Nat.dvd_of_mod_eq_zero next))
        have fits : link.Fits base (base + link.config.udpWindowPackets) := by
          refine ⟨by omega, by omega, .inl base8, ?_⟩
          simp only [ackBits] at within ⊢
          omega
        intro inevitable
        obtain ⟨after, reached, later⟩ :=
          (at_.inevitable sendable fits).meets inevitable
            (fun _ once => once.apart AtWindow.inWindow)
        exact ih _ (by omega) next within reached rfl later
      · refine at_.dooms_of_blocks sendable (by omega) rfl ?_
        simp only [ackBits] at early large shut ⊢
        omega

theorem Economical.aligned (sendable : link.Sendable) {shared : Shared}
    {instant : Nat} (ready : link.Ready shared instant)
    (economical : link.Economical shared instant) : link.Aligned := by
  have size := sendable.valid.window
  obtain ⟨state, opened, later⟩ :=
    (ready.opens sendable).meets economical
      (fun _ once => once.apart Opened.inWindow)
  have at_ := opened.atWindow
  by_contra unaligned
  have several : link.config.udpWindowPackets < link.packetCount := by
    by_contra few
    exact unaligned (.inl (by omega))
  rcases Nat.eq_zero_or_pos (link.config.udpWindowPackets % 8) with
    eighth | ragged
  · have large : ackBits < link.packetCount := by
      by_contra small
      exact unaligned (.inr ⟨eighth, .inl (by omega)⟩)
    have uneven : ackBits % link.config.udpWindowPackets ≠ 0 := by
      intro divides
      exact unaligned (.inr ⟨eighth, .inr divides⟩)
    exact at_.dooms_of_straddle sendable large eighth uneven
      (Nat.zero_mod _) (by decide) later
  · refine at_.dooms_of_eighth sendable (by omega) ?_ later
    omega

/-- On a network that loses, repeats and reorders nothing, whose timers wait
for all answers, exactly the aligned writes succeed and send every DATA packet
once, however the daemon gets the datagrams together. -/
theorem economical_iff_aligned (sendable : link.Sendable) {shared : Shared}
    {instant : Nat} (ready : link.Ready shared instant) :
    link.Economical shared instant ↔ link.Aligned :=
  ⟨fun economical => economical.aligned sendable ready,
    fun aligned => aligned.economical sendable ready⟩

end Needless

def threePackets (window : Nat) : Link where
  request :=
    { handle := { abcHandle with size := 1025 }
      transferId := 9
      offset := 0
      payload := List.replicate 1025 0
      readResponse := false
      bounded := by rw [List.length_replicate]; decide }
  config := { udpPayloadBytes := 512, udpWindowPackets := window }
  address := 1
  destination := 50
  blake3 := abcHash

def threePacketsShared : Shared where
  ram :=
    { blocks := (∅ : Table Uuid Arc).insert 7 0
      heap := [⟨RamBlock.allocated { abcHandle with size := 1025 }, none⟩] }
  udp := {}

theorem threePackets_length (window : Nat) :
    (threePackets window).request.payload.length = 1025 :=
  List.length_replicate

theorem threePackets_packetCount (window : Nat) :
    (threePackets window).packetCount = 3 := by
  change Slice.divCeil (threePackets window).request.payload.length 512 = 3
  rw [threePackets_length]
  rfl

theorem threePackets_sendable {window : Nat}
    (valid : 2 ≤ window ∧ window ≤ 256) :
    (threePackets window).Sendable := by
  refine ⟨⟨?_, ?_, valid, ?_, ?_, ?_, ?_⟩, ⟨?_, ?_, ?_⟩, rfl⟩
  · exact show 4096 ≤ 67108864 ∧ 67108864 ≤ 67108864 by decide
  · exact show 512 ≤ 512 ∧ 512 ≤ 1200 by decide
  · exact show 10 ≤ 50 ∧ 50 ≤ 5000 by decide
  · exact show 1 ≤ 8 ∧ 8 ≤ 64 by decide
  · exact show 1 ≤ 128 ∧ 128 ≤ 4096 by decide
  · exact show 10 ≤ 300 ∧ 300 ≤ 86400 by decide
  · exact List.ne_nil_of_length_pos
      (by rw [threePackets_length]; decide)
  · rw [threePackets_length]
    exact show 1025 ≤ 67108864 by decide
  · rw [threePackets_length]
    exact show 0 + 1025 ≤ 1025 by decide

theorem threePackets_ready (window : Nat) :
    (threePackets window).Ready threePacketsShared 0 := by
  refine ⟨⟨0, _, rfl, rfl, ⟨rfl, rfl, rfl, rfl, rfl, rfl, ?_, ?_⟩⟩, ?_, rfl,
    rfl, ?_⟩
  · exact List.length_replicate
  · exact show 0 < 300000 by decide
  · exact show 0 < 128 by decide
  · exact nofun

/-- With windows of two packets the daemon acknowledges the first two only
when they come again. -/
theorem threePackets_not_aligned : ¬(threePackets 2).Aligned := by
  unfold Aligned
  rw [threePackets_packetCount]
  decide

theorem economical_iff_aligned_threePackets :
    (threePackets 8).Economical threePacketsShared 0 ∧
      ¬(threePackets 2).Economical threePacketsShared 0 := by
  constructor
  · refine (economical_iff_aligned (threePackets_sendable (by decide))
      (threePackets_ready 8)).mpr (.inl ?_)
    rw [threePackets_packetCount]
    decide
  · intro economical
    exact threePackets_not_aligned ((economical_iff_aligned
      (threePackets_sendable (by decide)) (threePackets_ready 2)).mp
        economical)

theorem needless_retransmission :
    (threePackets 2).config.validate = .ok () ∧
      (threePackets 2).Ready threePacketsShared 0 ∧
        ¬(threePackets 2).Economical threePacketsShared 0 := by
  have sendable := @threePackets_sendable 2 (by decide)
  refine ⟨Config.validate_ok.mpr sendable.valid, threePackets_ready 2, ?_⟩
  intro economical
  exact threePackets_not_aligned
    (economical.aligned sendable (threePackets_ready 2))

end Link

end TrainPool
