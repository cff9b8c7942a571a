import TrainPool.Runtime.Exchange

namespace TrainPool

open Execution

/-! A write on a network that loses nothing and whose timers wait for all
answers: when it sends every DATA packet exactly once. -/

def LinkState.dataSent (state : LinkState) : List Packet :=
  state.emitted.filter fun packet => packet.kind = .data

namespace Link

variable (link : Link)

def SentOnce (state : LinkState) : Prop :=
  state.phase = .returned (.ok ()) ∧ ∀ sequence < link.packetCount,
    state.emitted.count
      (link.request.dataPacket link.config sequence) = 1

/-- Whatever the daemon gets together, the write sends nothing twice. -/
def Economical (shared : Shared) (instant : Nat) : Prop :=
  Inevitable link.step (link.Permits true 0) link.SentOnce
    (.start shared instant)

/-- The payload fits one window, or windows end where the daemon acknowledges
and none reaches over the end of a block of acknowledgements. -/
def Aligned : Prop :=
  link.packetCount ≤ link.config.udpWindowPackets ∨
    link.config.udpWindowPackets % 8 = 0 ∧
      (link.packetCount ≤ ackBits ∨
        ackBits % link.config.udpWindowPackets = 0)

instance : Decidable link.Aligned :=
  inferInstanceAs (Decidable (_ ∨ _ ∧ _))

/-- A window whose last packet makes the daemon acknowledge all of it. -/
structure Fits (base finish : ℕ) : Prop where
  inside : base < link.packetCount
  ends : finish = min (base + link.config.udpWindowPackets) link.packetCount
  acked : finish % 8 = 0 ∨ finish = link.packetCount
  together : base / ackBits = (finish - 1) / ackBits

section Arithmetic

variable {link} {base finish : ℕ}

theorem Aligned.fits (sendable : link.Sendable) (aligned : link.Aligned)
    (inside : base < link.packetCount)
    (multiple : base % link.config.udpWindowPackets = 0) :
    link.Fits base
      (min (base + link.config.udpWindowPackets) link.packetCount) := by
  have window := sendable.valid.window
  refine ⟨inside, rfl, ?_, ?_⟩
  · rcases aligned with single | ⟨eighth, _⟩
    · have zero : base = 0 := by
        by_contra nonzero
        have := Nat.le_of_dvd (Nat.pos_of_ne_zero nonzero)
          (Nat.dvd_of_mod_eq_zero multiple)
        omega
      omega
    · have base8 : base % 8 = 0 :=
        Nat.mod_eq_zero_of_dvd ((Nat.dvd_of_mod_eq_zero eighth).trans
          (Nat.dvd_of_mod_eq_zero multiple))
      omega
  · rcases aligned with single | ⟨_, small | divides⟩
    · have zero : base = 0 := by
        by_contra nonzero
        have := Nat.le_of_dvd (Nat.pos_of_ne_zero nonzero)
          (Nat.dvd_of_mod_eq_zero multiple)
        omega
      simp only [ackBits]
      omega
    · simp only [ackBits] at small ⊢
      omega
    · obtain ⟨blocks, whole⟩ := Nat.dvd_of_mod_eq_zero divides
      obtain ⟨index, rfl⟩ := Nat.dvd_of_mod_eq_zero multiple
      have positive : 0 < link.config.udpWindowPackets := by omega
      rw [whole, ← Nat.div_div_eq_div_mul, ← Nat.div_div_eq_div_mul]
      congr 1
      rw [Nat.mul_div_cancel_left _ positive]
      symm
      rw [Nat.div_eq_iff positive, Nat.mul_comm index]
      omega

theorem Fits.lt (sendable : link.Sendable) (fits : link.Fits base finish) :
    base < finish ∧ finish ≤ link.packetCount ∧
      finish ≤ base + link.config.udpWindowPackets := by
  have window := sendable.valid.window
  have inside := fits.inside
  have ends := fits.ends
  omega

end Arithmetic

/-! One window that fits. -/

structure Spans (window : Window) (base finish round : ℕ) : Prop where
  base : window.base = base
  finish : window.finish = finish
  round : window.round = round
  negotiated : window.negotiated = link.config.udpWindowPackets
  slots : window.acknowledged.length = link.packetCount

/-- The daemon has received exactly the first packets. -/
def Arrived (count : ℕ) (state : LinkState) : Prop :=
  ∃ session, link.Receiving state.shared state.instant session ∧
    session.receivedSet = { sequence | sequence < count }

def Sent (count : ℕ) (state : LinkState) : Prop :=
  state.dataSent =
    (List.range count).map (link.request.dataPacket link.config)

/-- The sender is about to send the window at `base`. -/
structure AtWindow (base : ℕ) (state : LinkState) : Prop where
  phase : ∃ window, state.phase = .window window ∧ window.base = base ∧
    window.negotiated = link.config.udpWindowPackets ∧
      window.acknowledged.length = link.packetCount ∧
        ∀ sequence ∈ window.acked, sequence < base
  quiet : state.outbound = [] ∧ state.inbound = []
  arrived : link.Arrived base state
  sent : link.Sent base state

/-- Where the only round of a window stands: before it sends, while its packets
arrive, when the answer to the last is on its way, when that has arrived, and
after it. -/
inductive Streams (base finish : ℕ) (state : LinkState) : Prop
  | starts (at_ : link.AtWindow base state)
  | sending (window : Window) (phase : state.phase = .round window)
      (spans : link.Spans window base finish 0)
      (acked : ∀ sequence ∈ window.acked, sequence < base)
      (quiet : state.outbound = [] ∧ state.inbound = [])
      (arrived : link.Arrived base state) (sent : link.Sent base state)
  | running (window : Window) (count : ℕ)
      (phase : state.phase = .awaitAcks window)
      (spans : link.Spans window base finish 0)
      (within : base ≤ count ∧ count < finish)
      (acked : ∀ sequence ∈ window.acked, sequence < count)
      (outbound : state.outbound = (List.range' count (finish - count)).map
        (link.request.dataPacket link.config))
      (inbound : ∀ packet ∈ state.inbound, link.AcksBelow count packet)
      (arrived : link.Arrived count state) (sent : link.Sent finish state)
  | closing (window : Window) (front : List Packet) (last : Packet)
      (phase : state.phase = .awaitAcks window)
      (spans : link.Spans window base finish 0)
      (acked : ∀ sequence ∈ window.acked, sequence < finish - 1)
      (outbound : state.outbound = [])
      (inbound : state.inbound = front ++ [last])
      (early : ∀ packet ∈ front, link.AcksBelow (finish - 1) packet)
      (final : link.AcksBelow finish last)
      (whole : ∀ sequence, base ≤ sequence → sequence < finish →
        sequence ∈ last.report)
      (arrived : link.Arrived finish state) (sent : link.Sent finish state)
  | acknowledged (window : Window) (phase : state.phase = .awaitAcks window)
      (spans : link.Spans window base finish 0)
      (acked : ∀ sequence ∈ window.acked, sequence < finish)
      (whole : ∀ sequence, base ≤ sequence → sequence < finish →
        sequence ∈ window.acked)
      (quiet : state.outbound = [] ∧ state.inbound = [])
      (arrived : link.Arrived finish state) (sent : link.Sent finish state)
  | ended (window : Window) (phase : state.phase = .round window)
      (spans : link.Spans window base finish 1)
      (acked : ∀ sequence ∈ window.acked, sequence < finish)
      (whole : ∀ sequence, base ≤ sequence → sequence < finish →
        sequence ∈ window.acked)
      (quiet : state.outbound = [] ∧ state.inbound = [])
      (arrived : link.Arrived finish state) (sent : link.Sent finish state)

def streamRank (state : LinkState) : ℕ :=
  match state.phase with
  | .window _ => 2 * link.config.udpWindowPackets + 4
  | .round window =>
      if window.round = 0 then 2 * link.config.udpWindowPackets + 3 else 0
  | .awaitAcks _ => 2 * state.outbound.length + state.inbound.length + 1
  | _ => 0

def Flows (base finish : ℕ) (state : LinkState) : Prop :=
  (∃ event next, link.Permits true 0 state event ∧
    link.step state event = some next) ∧
  ∀ event next, link.Permits true 0 state event →
    link.step state event = some next →
      link.AtWindow finish next ∨ link.Streams base finish next ∧
        link.streamRank next < link.streamRank state

section Flows

variable {link} {base finish : ℕ} {state : LinkState} {window : Window}

theorem Spans.pending_iff {round : ℕ}
    (spans : link.Spans window base finish round)
    (inside : finish ≤ link.packetCount) :
    window.pending = true ↔ ∃ sequence, base ≤ sequence ∧
      sequence < finish ∧ sequence ∉ window.acked := by
  rw [Window.pending_iff (by
    rw [spans.finish, spans.slots]
    exact inside), spans.base, spans.finish]

theorem dataSent_append (phase : Phase) (packets : List Packet) :
    ({ state with
      phase := phase
      outbound := state.outbound ++ packets
      emitted := state.emitted ++ packets } : LinkState).dataSent =
    state.dataSent ++
      packets.filter fun packet => packet.kind = .data := by
  simp [LinkState.dataSent]

theorem flows_starts (fits : link.Fits base finish) (at_ : link.AtWindow base state) :
    link.Flows base finish state := by
  obtain ⟨⟨window, phase, start, negotiated, slots, acked⟩, quiet, arrived,
    sent⟩ := at_
  have moves : link.request.step link.config link.blake3 link.destination
      state.phase .proceed = some (.round { window with
        finish := min (window.base + window.negotiated) link.packetCount
        round := 0 }, []) := by
    rw [phase]
    exact window_moves (by
      rw [start]
      exact fits.inside)
  refine ⟨⟨.proceed, _, trivial, send_eq_some.mpr ⟨_, _, moves, rfl⟩⟩, ?_⟩
  intro event next _ stepped
  rcases step_of_quiet quiet stepped with ⟨_, went⟩ | ⟨_, went⟩
  · obtain ⟨_, _, moved, rfl⟩ := send_eq_some.mp went
    cases moves.symm.trans moved
    refine .inr ⟨.sending _ rfl ⟨start, ?_, rfl, negotiated, slots⟩ acked
      (by simpa using quiet) arrived ?_, ?_⟩
    · simp only [start, negotiated]
      exact fits.ends.symm
    · rw [Sent, dataSent_append, List.filter_nil, List.append_nil]
      exact sent
    · simp [streamRank, phase]
  · obtain ⟨_, _, moved, _⟩ := send_eq_some.mp went
    rw [phase] at moved
    cases moved

theorem Spans.unacknowledged {round : ℕ}
    (spans : link.Spans window base finish round)
    (acked : ∀ sequence ∈ window.acked, sequence < base) :
    window.unacknowledged = List.range' base (finish - base) := by
  have all : (List.range window.finish).drop window.base =
      List.range' base (finish - base) := by
    rw [List.range_eq_range', List.drop_range', spans.base, spans.finish]
    simp
  unfold Window.unacknowledged
  rw [all, List.filter_eq_self]
  intro sequence member
  have after := (List.mem_range'_1.mp member).1
  rw [Bool.not_eq_true', Bool.eq_false_iff]
  intro known
  have := acked sequence known
  omega

theorem flows_sending (sendable : link.Sendable)
    (fits : link.Fits base finish) (phase : state.phase = .round window)
    (spans : link.Spans window base finish 0)
    (acked : ∀ sequence ∈ window.acked, sequence < base)
    (quiet : state.outbound = [] ∧ state.inbound = [])
    (arrived : link.Arrived base state) (sent : link.Sent base state) :
    link.Flows base finish state := by
  obtain ⟨before, inside, short⟩ := fits.lt sendable
  have pending : window.pending = true := by
    refine (spans.pending_iff inside).mpr ⟨base, Nat.le_refl _, before, ?_⟩
    exact fun known => Nat.lt_irrefl _ (acked base known)
  have moves : link.request.step link.config link.blake3 link.destination
      state.phase .proceed = some (.awaitAcks window,
        (List.range' base (finish - base)).map
          (link.request.dataPacket link.config)) := by
    rw [phase, round_moves sendable pending, spans.unacknowledged acked]
  refine ⟨⟨.proceed, _, trivial, send_eq_some.mpr ⟨_, _, moves, rfl⟩⟩, ?_⟩
  intro event next _ stepped
  rcases step_of_quiet quiet stepped with ⟨_, went⟩ | ⟨_, went⟩
  · obtain ⟨_, _, moved, rfl⟩ := send_eq_some.mp went
    cases moves.symm.trans moved
    refine .inr ⟨.running window base rfl spans ⟨Nat.le_refl _, before⟩ acked
      ?_ ?_ arrived ?_, ?_⟩
    · rw [quiet.1, List.nil_append]
    · rw [quiet.2]
      exact nofun
    · rw [Sent, dataSent_append, sent, List.filter_eq_self.mpr, ←
        List.map_append]
      · congr 1
        rw [List.range_eq_range', List.range_eq_range']
        have whole := @List.range'_append_1 0 base (finish - base)
        rw [Nat.zero_add, Nat.add_sub_of_le before.le] at whole
        exact whole
      · intro packet member
        obtain ⟨sequence, _, rfl⟩ := List.mem_map.mp member
        rfl
    · simp only [streamRank, phase, spans.round, quiet.1, quiet.2,
        List.nil_append, List.length_map, List.length_range', List.length_nil]
      simp only [if_true]
      omega
  · obtain ⟨_, _, moved, _⟩ := send_eq_some.mp went
    rw [phase] at moved
    cases moved

theorem Learnt.acked_lt {packets : List Packet} {after : Window} {count : ℕ}
    (learnt : link.Learnt window packets after)
    (acked : ∀ sequence ∈ window.acked, sequence < count)
    (acks : ∀ packet ∈ packets, link.AcksBelow count packet) :
    ∀ sequence ∈ after.acked, sequence < count := by
  rw [learnt.acked]
  intro sequence member
  rcases member with known | ⟨packet, among, reported⟩
  · exact acked sequence known
  · exact (acks packet among).2 sequence reported

theorem Spans.learn {packets : List Packet} {after : Window} {round : ℕ}
    (sendable : link.Sendable)
    (spans : link.Spans window base finish round)
    (learnt : link.Learnt window packets after) :
    link.Spans after base finish round := by
  have packets := sendable.valid.window
  obtain ⟨start, stop, same⟩ := learnt.range
  obtain ⟨least, most⟩ := learnt.negotiated
  refine ⟨start.trans spans.base, stop.trans spans.finish,
    same.trans spans.round, ?_, learnt.slots⟩
  rw [spans.negotiated] at least most
  omega

theorem running_deliver (sendable : link.Sendable)
    (fits : link.Fits base finish) {count size : ℕ} {moment : Moment}
    {next : LinkState} (phase : state.phase = .awaitAcks window)
    (spans : link.Spans window base finish 0)
    (within : base ≤ count ∧ count < finish)
    (acked : ∀ sequence ∈ window.acked, sequence < count)
    (outbound : state.outbound = (List.range' count (finish - count)).map
      (link.request.dataPacket link.config))
    (inbound : ∀ packet ∈ state.inbound, link.AcksBelow count packet)
    (arrived : link.Arrived count state) (sent : link.Sent finish state)
    (stepped : link.step state (.deliver size moment) = some next) :
    link.Streams base finish next ∧
      link.streamRank next < link.streamRank state := by
  obtain ⟨before, inside, short⟩ := fits.lt sendable
  obtain ⟨session, receiving, received⟩ := arrived
  obtain ⟨⟨positive, most, later⟩, shared, replies, responses, served, rfl⟩ :=
    step_deliver.mp stepped
  rw [outbound, List.length_map, List.length_range'] at most
  rw [outbound, ← List.map_take, List.take_range'_of_length_ge most] at served
  obtain ⟨shared', session', replies', ran, receiving', received', answered⟩ :=
    receiving.run sendable later positive
      (show count + size ≤ link.packetCount by omega) received
  cases ran.symm.trans served
  have rest : state.outbound.drop size =
      (List.range' (count + size) (finish - (count + size))).map
        (link.request.dataPacket link.config) := by
    rw [outbound, ← List.map_drop, List.drop_range', Nat.mul_one,
      Nat.sub_add_eq]
  have ranked : 2 * (state.outbound.drop size).length +
      (state.inbound ++ replies).length + 1 <
        link.streamRank state := by
    have answers : replies.length ≤ 1 := by
      rcases answered with ⟨rfl, _⟩ | ⟨_, ack, rfl, _⟩ <;> simp
    simp only [streamRank, phase, List.length_append, List.length_drop,
      outbound, List.length_map, List.length_range']
    omega
  have below : ∀ packet ∈ replies, link.AcksBelow (count + size) packet := by
    rcases answered with ⟨rfl, _⟩ | ⟨_, ack, rfl, acks, report⟩
    · exact nofun
    · intro packet member
      obtain rfl := List.mem_singleton.mp member
      refine ⟨acks, ?_⟩
      rw [report]
      exact fun sequence reported => reported.1
  refine ⟨?_, by
    rw [streamRank]
    simpa [phase] using ranked⟩
  rcases Nat.lt_or_ge (count + size) finish with more | all
  · refine .running window (count + size) phase spans ⟨by omega, more⟩ ?_
      rest ?_ ⟨session', receiving', received'⟩ sent
    · intro sequence known
      have := acked sequence known
      omega
    · intro packet member
      rcases List.mem_append.mp member with old | new
      · exact (inbound packet old).mono (by omega)
      · exact below packet new
  · obtain rfl : finish = count + size := by omega
    rcases answered with ⟨_, _, eighth, last⟩ |
      ⟨_, ack, rfl, acks, report⟩
    · rcases fits.acked with multiple | ended
      · exact absurd multiple eighth
      · exact absurd ended last
    · refine .closing window state.inbound ack phase spans ?_ ?_ rfl ?_
        (below ack (List.mem_singleton_self _)) ?_
        ⟨session', receiving', received'⟩ sent
      · intro sequence known
        have := acked sequence known
        omega
      · rw [rest, Nat.sub_self]
        rfl
      · intro packet member
        exact (inbound packet member).mono (by omega)
      · intro sequence after inside
        rw [report]
        refine ⟨inside, ?_⟩
        have together := fits.together
        simp only [ackBits] at together ⊢
        omega

theorem running_answer (sendable : link.Sendable)
    (fits : link.Fits base finish) {count size : ℕ} {next : LinkState}
    (phase : state.phase = .awaitAcks window)
    (spans : link.Spans window base finish 0)
    (within : base ≤ count ∧ count < finish)
    (acked : ∀ sequence ∈ window.acked, sequence < count)
    (outbound : state.outbound = (List.range' count (finish - count)).map
      (link.request.dataPacket link.config))
    (inbound : ∀ packet ∈ state.inbound, link.AcksBelow count packet)
    (arrived : link.Arrived count state) (sent : link.Sent finish state)
    (stepped : link.step state (.answer size) = some next) :
    link.Streams base finish next ∧
      link.streamRank next < link.streamRank state := by
  obtain ⟨before, inside, short⟩ := fits.lt sendable
  have pending : window.pending = true := by
    refine (spans.pending_iff inside).mpr ⟨count, within.1, within.2, ?_⟩
    exact fun known => Nat.lt_irrefl _ (acked count known)
  obtain ⟨⟨positive, most⟩, after, learnt, rfl⟩ :=
    answer_acks phase pending spans.slots
      (fun packet member => (inbound packet member).mono (by omega)) stepped
  refine ⟨.running after count rfl (spans.learn sendable learnt) within
    (learnt.acked_lt acked fun packet member =>
      inbound packet (List.mem_of_mem_take member))
    outbound (fun packet member =>
      inbound packet (List.mem_of_mem_drop member)) arrived sent, ?_⟩
  simp only [streamRank, phase, List.length_drop]
  omega

theorem flows_running (sendable : link.Sendable)
    (fits : link.Fits base finish) {count : ℕ}
    (phase : state.phase = .awaitAcks window)
    (spans : link.Spans window base finish 0)
    (within : base ≤ count ∧ count < finish)
    (acked : ∀ sequence ∈ window.acked, sequence < count)
    (outbound : state.outbound = (List.range' count (finish - count)).map
      (link.request.dataPacket link.config))
    (inbound : ∀ packet ∈ state.inbound, link.AcksBelow count packet)
    (arrived : link.Arrived count state) (sent : link.Sent finish state) :
    link.Flows base finish state := by
  obtain ⟨before, inside, short⟩ := fits.lt sendable
  have pending : window.pending = true := by
    refine (spans.pending_iff inside).mpr ⟨count, within.1, within.2, ?_⟩
    exact fun known => Nat.lt_irrefl _ (acked count known)
  have waiting : state.outbound.length = finish - count := by
    rw [outbound, List.length_map, List.length_range']
  constructor
  · obtain ⟨session, receiving, received⟩ := arrived
    have now : state.instant ≤ (⟨0, state.instant, {}⟩ : Moment).instant :=
      Nat.le_refl _
    obtain ⟨shared', session', replies, served, _⟩ :=
      receiving.run sendable now Nat.one_pos
        (show count + 1 ≤ link.packetCount by omega) received
    have first : state.outbound =
        link.request.dataPacket link.config count ::
          (List.range' (count + 1) (finish - count - 1)).map
            (link.request.dataPacket link.config) := by
      obtain ⟨more, whole⟩ : ∃ more, finish - count = more + 1 :=
        ⟨finish - count - 1, by omega⟩
      rw [outbound, whole, List.range'_succ, List.map_cons]
      rfl
    obtain ⟨next, stepped⟩ :=
      deliver_enabled first (Nat.le_refl _) served
    exact ⟨.deliver 1 _, next, ⟨.inr rfl, receiving.timely {}, rfl⟩,
      stepped⟩
  · intro event next permitted stepped
    cases event with
    | proceed =>
        obtain ⟨_, _, moved, _⟩ := send_eq_some.mp stepped
        rw [phase, awaitAcks_waits pending] at moved
        cases moved
    | timeout =>
        have quiet := (step_timeout.mp stepped).1.1
        rw [quiet, List.length_nil] at waiting
        omega
    | deliver size moment =>
        exact .inr (running_deliver sendable fits phase spans within acked
          outbound inbound arrived sent stepped)
    | answer size =>
        exact .inr (running_answer sendable fits phase spans within acked
          outbound inbound arrived sent stepped)
    | loseOutbound => exact absurd permitted (Nat.not_lt_zero _)
    | loseInbound => exact absurd permitted (Nat.not_lt_zero _)

theorem flows_closing (sendable : link.Sendable)
    (fits : link.Fits base finish) {front : List Packet} {last : Packet}
    (phase : state.phase = .awaitAcks window)
    (spans : link.Spans window base finish 0)
    (acked : ∀ sequence ∈ window.acked, sequence < finish - 1)
    (outbound : state.outbound = [])
    (inbound : state.inbound = front ++ [last])
    (early : ∀ packet ∈ front, link.AcksBelow (finish - 1) packet)
    (final : link.AcksBelow finish last)
    (whole : ∀ sequence, base ≤ sequence → sequence < finish →
      sequence ∈ last.report)
    (arrived : link.Arrived finish state) (sent : link.Sent finish state) :
    link.Flows base finish state := by
  obtain ⟨before, inside, short⟩ := fits.lt sendable
  have pending : window.pending = true := by
    refine (spans.pending_iff inside).mpr ⟨finish - 1, by omega, by omega, ?_⟩
    exact fun known => Nat.lt_irrefl _ (acked _ known)
  have all : ∀ packet ∈ front ++ [last], link.AcksBelow finish packet := by
    intro packet member
    rcases List.mem_append.mp member with old | new
    · exact (early packet old).mono (Nat.sub_le _ _)
    · rw [List.mem_singleton.mp new]
      exact final
  have acks : ∀ packet ∈ state.inbound,
      link.AcksBelow link.packetCount packet := by
    intro packet member
    exact (all packet (inbound ▸ member)).mono inside
  constructor
  · obtain ⟨oldest, rest, first⟩ : ∃ oldest rest,
        state.inbound = oldest :: rest := by
      rw [inbound]
      cases front with
      | nil => exact ⟨last, [], rfl⟩
      | cons oldest others => exact ⟨oldest, others ++ [last], rfl⟩
    obtain ⟨next, stepped⟩ := answer_acks_enabled phase pending spans.slots
      first (acks oldest (by rw [first]; exact List.mem_cons_self))
    exact ⟨.answer 1, next, .inr rfl, stepped⟩
  · intro event next permitted stepped
    cases event with
    | proceed =>
        obtain ⟨_, _, moved, _⟩ := send_eq_some.mp stepped
        rw [phase, awaitAcks_waits pending] at moved
        cases moved
    | timeout =>
        have quiet := (step_timeout.mp stepped).1.2
        rw [inbound] at quiet
        simp at quiet
    | deliver size moment =>
        obtain ⟨⟨positive, most, _⟩, _⟩ := step_deliver.mp stepped
        rw [outbound, List.length_nil] at most
        omega
    | answer size =>
        obtain ⟨⟨positive, most⟩, after, learnt, rfl⟩ :=
          answer_acks phase pending spans.slots acks stepped
        have ranked : link.streamRank { state with
            phase := .awaitAcks after
            inbound := state.inbound.drop size } <
              link.streamRank state := by
          simp only [streamRank, phase, List.length_drop]
          omega
        refine .inr ⟨?_, ranked⟩
        rw [inbound, List.length_append, List.length_singleton] at most
        rcases Nat.lt_or_ge front.length size with shut | within
        · obtain rfl : size = front.length + 1 := by omega
          have everything : state.inbound.take (front.length + 1) =
              front ++ [last] := by
            rw [inbound, List.take_of_length_le (by simp)]
          rw [everything] at learnt
          refine .acknowledged after rfl (spans.learn sendable learnt)
            (learnt.acked_lt (fun sequence known => ?_) all) ?_
            ⟨outbound, ?_⟩ arrived sent
          · have := acked sequence known
            omega
          · intro sequence after' inside'
            rw [learnt.acked]
            exact .inr ⟨last, by simp, whole sequence after' inside'⟩
          · rw [inbound]
            simp
        · have some_ : state.inbound.take size = front.take size := by
            rw [inbound, List.take_append_of_le_length within]
          rw [some_] at learnt
          refine .closing after (front.drop size) last rfl
            (spans.learn sendable learnt)
            (learnt.acked_lt acked fun packet member =>
              early packet (List.mem_of_mem_take member)) outbound ?_
            (fun packet member => early packet (List.mem_of_mem_drop member))
            final whole arrived sent
          rw [inbound, List.drop_append_of_le_length within]
    | loseOutbound => exact absurd permitted (Nat.not_lt_zero _)
    | loseInbound => exact absurd permitted (Nat.not_lt_zero _)

theorem flows_acknowledged (sendable : link.Sendable)
    (fits : link.Fits base finish) (phase : state.phase = .awaitAcks window)
    (spans : link.Spans window base finish 0)
    (acked : ∀ sequence ∈ window.acked, sequence < finish)
    (whole : ∀ sequence, base ≤ sequence → sequence < finish →
      sequence ∈ window.acked)
    (quiet : state.outbound = [] ∧ state.inbound = [])
    (arrived : link.Arrived finish state) (sent : link.Sent finish state) :
    link.Flows base finish state := by
  obtain ⟨before, inside, short⟩ := fits.lt sendable
  have retries := sendable.valid.retries
  have shut : window.pending = false := by
    rw [Bool.eq_false_iff]
    intro pending
    obtain ⟨sequence, after, below, missing⟩ :=
      (spans.pending_iff inside).mp pending
    exact missing (whole sequence after below)
  have ends : link.request.endRound link.config window =
      (.round { window with round := 1 }, []) := by
    unfold SendPayload.endRound
    simp only [spans.round]
    rw [if_pos (by omega)]
    simp
  have moves : link.request.step link.config link.blake3 link.destination
      state.phase .proceed = some (.round { window with round := 1 }, []) := by
    rw [phase, awaitAcks_ends shut, ends]
  have expires : link.request.step link.config link.blake3 link.destination
      state.phase .timeout = some (.round { window with round := 1 }, []) := by
    rw [phase]
    simp only [SendPayload.step, ends]
  refine ⟨⟨.proceed, _, trivial, send_eq_some.mpr ⟨_, _, moves, rfl⟩⟩, ?_⟩
  have reached : ∀ next, next = { state with
      phase := .round { window with round := 1 }
      outbound := state.outbound ++ []
      emitted := state.emitted ++ [] } →
        link.Streams base finish next ∧
          link.streamRank next < link.streamRank state := by
    rintro next rfl
    refine ⟨.ended { window with round := 1 } rfl ⟨spans.base, spans.finish,
      rfl, spans.negotiated, spans.slots⟩ acked whole (by simpa using quiet)
      arrived ?_, ?_⟩
    · rw [Sent, dataSent_append, List.filter_nil, List.append_nil]
      exact sent
    · simp [streamRank, phase]
  intro event next _ stepped
  rcases step_of_quiet quiet stepped with ⟨_, went⟩ | ⟨_, went⟩
  · obtain ⟨_, _, moved, same⟩ := send_eq_some.mp went
    cases moves.symm.trans moved
    exact .inr (reached next same)
  · obtain ⟨_, _, moved, same⟩ := send_eq_some.mp went
    cases expires.symm.trans moved
    exact .inr (reached next same)

theorem flows_ended (sendable : link.Sendable)
    (fits : link.Fits base finish) (phase : state.phase = .round window)
    (spans : link.Spans window base finish 1)
    (acked : ∀ sequence ∈ window.acked, sequence < finish)
    (whole : ∀ sequence, base ≤ sequence → sequence < finish →
      sequence ∈ window.acked)
    (quiet : state.outbound = [] ∧ state.inbound = [])
    (arrived : link.Arrived finish state) (sent : link.Sent finish state) :
    link.Flows base finish state := by
  obtain ⟨before, inside, short⟩ := fits.lt sendable
  have shut : window.pending = false := by
    rw [Bool.eq_false_iff]
    intro pending
    obtain ⟨sequence, after, below, missing⟩ :=
      (spans.pending_iff inside).mp pending
    exact missing (whole sequence after below)
  have moves : link.request.step link.config link.blake3 link.destination
      state.phase .proceed =
        some (.window { window with base := window.finish }, []) := by
    rw [phase, round_ends shut]
  refine ⟨⟨.proceed, _, trivial, send_eq_some.mpr ⟨_, _, moves, rfl⟩⟩, ?_⟩
  intro event next _ stepped
  rcases step_of_quiet quiet stepped with ⟨_, went⟩ | ⟨_, went⟩
  · obtain ⟨_, _, moved, rfl⟩ := send_eq_some.mp went
    cases moves.symm.trans moved
    refine .inl ⟨⟨_, rfl, spans.finish, spans.negotiated, spans.slots, acked⟩,
      by simpa using quiet, arrived, ?_⟩
    rw [Sent, dataSent_append, List.filter_nil, List.append_nil]
    exact sent
  · obtain ⟨_, _, moved, _⟩ := send_eq_some.mp went
    rw [phase] at moved
    cases moved

theorem AtWindow.inevitable (sendable : link.Sendable)
    (fits : link.Fits base finish) (at_ : link.AtWindow base state) :
    Inevitable link.step (link.Permits true 0) (link.AtWindow finish)
      state := by
  refine inevitable_of_decreasing Nat.lt_wfRel.wf
    (link.Streams base finish) link.streamRank ?_ (.starts at_)
  intro state streams
  right
  cases streams with
  | starts at_ => exact flows_starts fits at_
  | sending window phase spans acked quiet arrived sent =>
      exact flows_sending sendable fits phase spans acked quiet arrived sent
  | running window count phase spans within acked outbound inbound arrived
      sent =>
      exact flows_running sendable fits phase spans within acked outbound
        inbound arrived sent
  | closing window front last phase spans acked outbound inbound early final
      whole arrived sent =>
      exact flows_closing sendable fits phase spans acked outbound inbound
        early final whole arrived sent
  | acknowledged window phase spans acked whole quiet arrived sent =>
      exact flows_acknowledged sendable fits phase spans acked whole quiet
        arrived sent
  | ended window phase spans acked whole quiet arrived sent =>
      exact flows_ended sendable fits phase spans acked whole quiet arrived
        sent

end Flows

/-! The end of the write. -/

inductive Finishes (state : LinkState) : Prop
  | windows (at_ : link.AtWindow link.packetCount state)
  | fin (phase : state.phase = .fin 0)
      (quiet : state.outbound = [] ∧ state.inbound = [])
      (arrived : link.Arrived link.packetCount state)
      (sent : link.Sent link.packetCount state)
  | asked (phase : state.phase = .awaitComplete 0)
      (outbound : state.outbound =
        [link.request.finPacket link.config link.blake3])
      (inbound : state.inbound = [])
      (arrived : link.Arrived link.packetCount state)
      (sent : link.Sent link.packetCount state)
  | answered (phase : state.phase = .awaitComplete 0)
      (outbound : state.outbound = [])
      (inbound : state.inbound = [link.completion])
      (sent : link.Sent link.packetCount state)

def finishRank (state : LinkState) : ℕ :=
  match state.phase with
  | .window _ => 4
  | .fin _ => 3
  | .awaitComplete _ => 2 * state.outbound.length + state.inbound.length
  | _ => 0

def Concludes (state : LinkState) : Prop :=
  (∃ event next, link.Permits true 0 state event ∧
    link.step state event = some next) ∧
  ∀ event next, link.Permits true 0 state event →
    link.step state event = some next →
      link.SentOnce next ∨ link.Finishes next ∧
        finishRank next < finishRank state

section Finish

variable {link} {state : LinkState}

theorem Sent.count (sent : link.Sent link.packetCount state) {sequence : ℕ}
    (inside : sequence < link.packetCount) :
    state.emitted.count
      (link.request.dataPacket link.config sequence) = 1 := by
  have data : (decide ((link.request.dataPacket link.config sequence).kind =
      .data)) = true := decide_eq_true rfl
  rw [← List.count_filter (p := fun packet : Packet =>
    decide (packet.kind = .data)) data]
  change state.dataSent.count _ = 1
  rw [sent]
  refine List.count_eq_one_of_mem (List.nodup_range.map ?_)
    (List.mem_map_of_mem (List.mem_range.mpr inside))
  intro first second same
  exact congrArg Packet.sequenceId same

theorem concludes_windows
    (at_ : link.AtWindow link.packetCount state) :
    link.Concludes state := by
  obtain ⟨⟨window, phase, start, _⟩, quiet, arrived, sent⟩ := at_
  have moves : link.request.step link.config link.blake3 link.destination
      state.phase .proceed = some (.fin 0, []) := by
    rw [phase]
    exact window_completes start.ge
  refine ⟨⟨.proceed, _, trivial, send_eq_some.mpr ⟨_, _, moves, rfl⟩⟩, ?_⟩
  intro event next _ stepped
  rcases step_of_quiet quiet stepped with ⟨_, went⟩ | ⟨_, went⟩
  · obtain ⟨_, _, moved, rfl⟩ := send_eq_some.mp went
    cases moves.symm.trans moved
    refine .inr ⟨.fin rfl (by simpa using quiet) arrived ?_, ?_⟩
    · rw [Sent, dataSent_append, List.filter_nil, List.append_nil]
      exact sent
    · simp [finishRank, phase]
  · obtain ⟨_, _, moved, _⟩ := send_eq_some.mp went
    rw [phase] at moved
    cases moved

theorem concludes_fin (phase : state.phase = .fin 0)
    (quiet : state.outbound = [] ∧ state.inbound = [])
    (arrived : link.Arrived link.packetCount state)
    (sent : link.Sent link.packetCount state) : link.Concludes state := by
  have moves : link.request.step link.config link.blake3 link.destination
      state.phase .proceed = some (.awaitComplete 0,
        [link.request.finPacket link.config link.blake3]) := by
    rw [phase]
    exact fin_moves (Nat.zero_le _)
  refine ⟨⟨.proceed, _, trivial, send_eq_some.mpr ⟨_, _, moves, rfl⟩⟩, ?_⟩
  intro event next _ stepped
  rcases step_of_quiet quiet stepped with ⟨_, went⟩ | ⟨_, went⟩
  · obtain ⟨_, _, moved, rfl⟩ := send_eq_some.mp went
    cases moves.symm.trans moved
    refine .inr ⟨.asked rfl ?_ quiet.2 arrived ?_, ?_⟩
    · rw [quiet.1, List.nil_append]
    · rw [Sent, dataSent_append]
      exact (List.append_nil _).trans sent
    · simp [finishRank, phase, quiet.1, quiet.2]
  · obtain ⟨_, _, moved, _⟩ := send_eq_some.mp went
    rw [phase] at moved
    cases moved

theorem concludes_asked (sendable : link.Sendable)
    (phase : state.phase = .awaitComplete 0)
    (outbound : state.outbound =
      [link.request.finPacket link.config link.blake3])
    (inbound : state.inbound = [])
    (arrived : link.Arrived link.packetCount state)
    (sent : link.Sent link.packetCount state) : link.Concludes state := by
  obtain ⟨session, receiving, received⟩ := arrived
  have full : session.receivedCount = link.packetCount :=
    receiving.serves.receivedCount_of_prefix (Nat.le_refl _) received
  constructor
  · obtain ⟨oldest, served⟩ :=
      @Receiving.fin_isSome link state.shared state.instant session sendable
        receiving 0 state.instant {}
        (fun oldest => receiving.timely { oldest := oldest }) full
    obtain ⟨result, served⟩ := Option.isSome_iff_exists.mp served
    obtain ⟨next, stepped⟩ :=
      deliver_enabled outbound (Nat.le_refl _) served
    exact ⟨.deliver 1 _, next, ⟨.inr rfl, receiving.timely _, rfl⟩, stepped⟩
  · intro event next permitted stepped
    rcases step_of_outbound outbound inbound stepped with ⟨_, went⟩ |
      ⟨moment, rfl, later, shared, replies, responses, served, rfl⟩ |
      ⟨rfl, rfl⟩
    · obtain ⟨_, _, moved, _⟩ := send_eq_some.mp went
      rw [phase] at moved
      cases moved
    · obtain ⟨rfl, _⟩ :=
        receiving.fin sendable later permitted.2.1 full served
      refine .inr ⟨.answered phase rfl rfl sent, ?_⟩
      simp [finishRank, phase, outbound, inbound]
    · exact absurd permitted (Nat.not_lt_zero _)

theorem concludes_answered (phase : state.phase = .awaitComplete 0)
    (outbound : state.outbound = [])
    (inbound : state.inbound = [link.completion])
    (sent : link.Sent link.packetCount state) : link.Concludes state := by
  have moves : link.request.step link.config link.blake3 link.destination
      state.phase (.receive link.destination [.ok link.completion]) =
        some (.returned (.ok ()), []) := by
    rw [phase]
    exact awaitComplete_returns 0
  constructor
  · obtain ⟨next, stepped⟩ := answer_enabled inbound moves
    exact ⟨.answer 1, next, .inr rfl, stepped⟩
  · intro event next permitted stepped
    rcases step_of_inbound outbound inbound stepped with ⟨_, went⟩ |
      ⟨rfl, went⟩ | ⟨rfl, rfl⟩
    · obtain ⟨_, _, moved, _⟩ := send_eq_some.mp went
      rw [phase] at moved
      cases moved
    · obtain ⟨_, _, moved, rfl⟩ := send_eq_some.mp went
      cases moves.symm.trans moved
      refine .inl ⟨rfl, ?_⟩
      intro sequence inside
      simpa using sent.count inside
    · exact absurd permitted (Nat.not_lt_zero _)

theorem Finishes.inevitable (sendable : link.Sendable)
    (finishes : link.Finishes state) :
    Inevitable link.step (link.Permits true 0) link.SentOnce state := by
  refine inevitable_of_decreasing Nat.lt_wfRel.wf link.Finishes finishRank ?_
    finishes
  intro state finishes
  right
  cases finishes with
  | windows at_ => exact concludes_windows at_
  | fin phase quiet arrived sent =>
      exact concludes_fin phase quiet arrived sent
  | asked phase outbound inbound arrived sent =>
      exact concludes_asked sendable phase outbound inbound arrived sent
  | answered phase outbound inbound sent =>
      exact concludes_answered phase outbound inbound sent

theorem Aligned.windows (sendable : link.Sendable) (aligned : link.Aligned)
    {base : ℕ} (multiple : base % link.config.udpWindowPackets = 0 ∨
      base = link.packetCount)
    (inside : base ≤ link.packetCount) (at_ : link.AtWindow base state) :
    Inevitable link.step (link.Permits true 0)
      (link.AtWindow link.packetCount) state := by
  have window := sendable.valid.window
  induction remaining : link.packetCount - base using Nat.strong_induction_on
    generalizing base state with
  | _ remaining ih =>
      rcases Nat.eq_or_lt_of_le inside with rfl | before
      · exact .reached at_
      · have whole := multiple.resolve_right before.ne
        refine (at_.inevitable sendable
          (aligned.fits sendable before whole)).trans ?_
        intro next reached
        refine ih _ ?_ ?_ (Nat.min_le_right _ _) reached rfl
        · omega
        · rcases Nat.le_total (base + link.config.udpWindowPackets)
            link.packetCount with more | last
          · rw [Nat.min_eq_left more]
            left
            rw [Nat.add_mod_right]
            exact whole
          · exact .inr (Nat.min_eq_right last)

theorem Ready.opens {coalesced : Bool} (sendable : link.Sendable)
    {shared : Shared} {instant : Nat} (ready : link.Ready shared instant) :
    Inevitable link.step (link.Permits coalesced 0) (link.Opened 0)
      (.start shared instant) := by
  have opening : link.Opening 0 (.start shared instant) :=
    ⟨.ready rfl ⟨rfl, rfl⟩ (.inl ready), Nat.le_refl _, nofun⟩
  exact opening.inevitable sendable (Nat.zero_le _)

theorem Opened.atWindow (opened : link.Opened 0 state) :
    link.AtWindow 0 state := by
  obtain ⟨window, phase, start, negotiated, acknowledged⟩ := opened.phase
  refine ⟨⟨window, phase, start, negotiated, ?_, ?_⟩, opened.quiet, ?_, ?_⟩
  · rw [acknowledged, List.length_replicate]
  · intro sequence known
    have set : window.acknowledged.getD sequence false = true := known
    rw [acknowledged, List.getD_eq_getElem?_getD,
      List.getElem?_replicate] at set
    split at set <;> cases set
  · obtain ⟨session, receiving, empty⟩ := opened.receiving
    refine ⟨session, receiving, empty.trans ?_⟩
    ext sequence
    simp
  · unfold Sent LinkState.dataSent
    rw [List.range_zero, List.map_nil, List.filter_eq_nil_iff]
    intro packet member
    simpa using opened.unsent packet member

theorem Aligned.economical (sendable : link.Sendable)
    (aligned : link.Aligned) {shared : Shared} {instant : Nat}
    (ready : link.Ready shared instant) :
    link.Economical shared instant := by
  refine (ready.opens sendable).trans ?_
  intro state opened
  refine (aligned.windows sendable (.inl (Nat.zero_mod _)) (Nat.zero_le _)
    opened.atWindow).trans ?_
  intro final finished
  exact Finishes.inevitable sendable (.windows finished)

end Finish

end Link

end TrainPool
