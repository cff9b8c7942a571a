import TrainPool.Library.Execution
import TrainPool.Runtime.Receiver

namespace TrainPool

open Execution

/-! The beginning and the end of a write on an ordered network: its handshake
and its completion. -/

namespace Link

variable (link : Link)

/-- What the network does: it coalesces datagrams or not, and loses at most
`budget` of them. -/
def Permits (coalesced : Bool) (budget : Nat) (state : LinkState) :
    LinkEvent → Prop
  | .deliver count moment => (coalesced = true ∨ count = 1) ∧
      link.Timely state.shared moment ∧ moment.choice.reserved = true
  | .answer count => coalesced = true ∨ count = 1
  | .loseOutbound | .loseInbound => state.lost < budget
  | .proceed | .timeout => True

section Steps

variable {link} {state next : LinkState} {count : Nat} {moment : Moment}

theorem send_eq_some {event : SendEvent} :
    link.send state event = some next ↔ ∃ phase packets,
      link.request.step link.config link.blake3 link.destination state.phase
          event = some (phase, packets) ∧
        next = { state with
          phase := phase
          outbound := state.outbound ++ packets
          emitted := state.emitted ++ packets } := by
  unfold send
  constructor
  · intro sent
    obtain ⟨⟨phase, packets⟩, stepped, sent⟩ :=
      Option.bind_eq_some_iff.mp sent
    cases sent
    exact ⟨phase, packets, stepped, rfl⟩
  · intro given
    obtain ⟨phase, packets, stepped, rfl⟩ := given
    simp [stepped]

theorem step_timeout :
    link.step state .timeout = some next ↔
      (state.outbound = [] ∧ state.inbound = []) ∧
        link.send state .timeout = some next := by
  simp only [step]
  split
  · rename_i idle
    exact ⟨fun sent => ⟨idle, sent⟩, fun sent => sent.2⟩
  · rename_i busy
    exact ⟨nofun, fun sent => absurd sent.1 busy⟩

theorem step_deliver :
    link.step state (.deliver count moment) = some next ↔
      (0 < count ∧ count ≤ state.outbound.length ∧
        state.instant ≤ moment.instant) ∧
      ∃ shared replies responses,
        serve link.config link.blake3 link.address moment (udpDatagrams
            ((state.outbound.take count).map .ok)) state.shared =
          some (shared, replies, responses) ∧
        next = { state with
          shared := shared
          outbound := state.outbound.drop count
          inbound := state.inbound ++ replies
          instant := moment.instant } := by
  simp only [step]
  split
  · rename_i fits
    constructor
    · intro stepped
      obtain ⟨⟨shared, replies, responses⟩, served, stepped⟩ :=
        Option.bind_eq_some_iff.mp stepped
      cases stepped
      exact ⟨fits, shared, replies, responses, served, rfl⟩
    · intro given
      obtain ⟨_, shared, replies, responses, served, rfl⟩ := given
      simp only [served, Option.bind_eq_bind, Option.bind_some]
  · rename_i outside
    exact ⟨nofun, fun stepped => absurd stepped.1 outside⟩

theorem step_answer :
    link.step state (.answer count) = some next ↔
      (0 < count ∧ count ≤ state.inbound.length) ∧
        link.send { state with inbound := state.inbound.drop count }
          (.receive link.destination ((state.inbound.take count).map .ok)) =
            some next := by
  simp only [step]
  split
  · rename_i fits
    exact ⟨fun sent => ⟨fits, sent⟩, fun sent => sent.2⟩
  · rename_i outside
    exact ⟨nofun, fun sent => absurd sent.1 outside⟩

theorem step_loseOutbound :
    link.step state .loseOutbound = some next ↔
      ∃ packet rest, state.outbound = packet :: rest ∧
        next = { state with outbound := rest, lost := state.lost + 1 } := by
  simp only [step]
  cases state.outbound with
  | nil => simp
  | cons packet rest =>
      constructor
      · intro stepped
        cases stepped
        exact ⟨packet, rest, rfl, rfl⟩
      · intro given
        obtain ⟨_, _, same, rfl⟩ := given
        cases same
        rfl

theorem step_loseInbound :
    link.step state .loseInbound = some next ↔
      ∃ packet rest, state.inbound = packet :: rest ∧
        next = { state with inbound := rest, lost := state.lost + 1 } := by
  simp only [step]
  cases state.inbound with
  | nil => simp
  | cons packet rest =>
      constructor
      · intro stepped
        cases stepped
        exact ⟨packet, rest, rfl, rfl⟩
      · intro given
        obtain ⟨_, _, same, rfl⟩ := given
        cases same
        rfl

theorem deliver_enabled {packet : Packet} {rest : List Packet}
    {result : Shared × List Packet × List ReadResponse}
    (outbound : state.outbound = packet :: rest)
    (later : state.instant ≤ moment.instant)
    (served : serve link.config link.blake3 link.address moment
      (udpDatagrams [.ok packet]) state.shared = some result) :
    ∃ next, link.step state (.deliver 1 moment) = some next := by
  refine ⟨_, step_deliver.mpr ⟨⟨Nat.one_pos, ?_, later⟩, result.1,
    result.2.1, result.2.2, ?_, rfl⟩⟩
  · simp [outbound]
  · rw [outbound]
    exact served

theorem answer_enabled {packet : Packet} {rest : List Packet}
    {result : Phase × List Packet}
    (inbound : state.inbound = packet :: rest)
    (moves : link.request.step link.config link.blake3 link.destination
      state.phase (.receive link.destination [.ok packet]) = some result) :
    ∃ next, link.step state (.answer 1) = some next := by
  refine ⟨_, step_answer.mpr ⟨⟨Nat.one_pos, ?_⟩,
    send_eq_some.mpr ⟨result.1, result.2, ?_, rfl⟩⟩⟩
  · simp [inbound]
  · rw [inbound]
    exact moves

theorem step_of_quiet {event : LinkEvent}
    (quiet : state.outbound = [] ∧ state.inbound = [])
    (stepped : link.step state event = some next) :
    event = .proceed ∧ link.send state .proceed = some next ∨
      event = .timeout ∧ link.send state .timeout = some next := by
  obtain ⟨outbound, inbound⟩ := quiet
  cases event with
  | proceed => exact .inl ⟨rfl, stepped⟩
  | timeout =>
      rw [step_timeout] at stepped
      exact .inr ⟨rfl, stepped.2⟩
  | deliver count moment =>
      rw [step_deliver] at stepped
      obtain ⟨⟨positive, fits, _⟩, _⟩ := stepped
      rw [outbound, List.length_nil] at fits
      omega
  | answer count =>
      rw [step_answer] at stepped
      obtain ⟨⟨positive, fits⟩, _⟩ := stepped
      rw [inbound, List.length_nil] at fits
      omega
  | loseOutbound =>
      rw [step_loseOutbound] at stepped
      obtain ⟨_, _, same, _⟩ := stepped
      cases outbound.symm.trans same
  | loseInbound =>
      rw [step_loseInbound] at stepped
      obtain ⟨_, _, same, _⟩ := stepped
      cases inbound.symm.trans same

/-- What can happen to the only datagram in flight, on its way to the
daemon. -/
theorem step_of_outbound {event : LinkEvent} {packet : Packet}
    (outbound : state.outbound = [packet]) (inbound : state.inbound = [])
    (stepped : link.step state event = some next) :
    event = .proceed ∧ link.send state .proceed = some next ∨
      (∃ moment, event = .deliver 1 moment ∧
        state.instant ≤ moment.instant ∧
        ∃ shared replies responses,
          serve link.config link.blake3 link.address moment
              (udpDatagrams [.ok packet]) state.shared =
            some (shared, replies, responses) ∧
          next = { state with
            shared := shared
            outbound := []
            inbound := replies
            instant := moment.instant }) ∨
      event = .loseOutbound ∧
        next = { state with outbound := [], lost := state.lost + 1 } := by
  cases event with
  | proceed => exact .inl ⟨rfl, stepped⟩
  | timeout =>
      rw [step_timeout] at stepped
      have quiet := stepped.1
      rw [outbound] at quiet
      cases quiet.1
  | deliver count moment =>
      rw [step_deliver] at stepped
      obtain ⟨⟨positive, fits, later⟩, shared, replies, responses, served,
        rfl⟩ := stepped
      rw [outbound, List.length_singleton] at fits
      obtain rfl : count = 1 := by omega
      rw [outbound] at served
      refine .inr (.inl ⟨moment, rfl, later, shared, replies, responses,
        served, ?_⟩)
      rw [outbound, inbound]
      rfl
  | answer count =>
      rw [step_answer] at stepped
      obtain ⟨⟨positive, fits⟩, _⟩ := stepped
      rw [inbound, List.length_nil] at fits
      omega
  | loseOutbound =>
      rw [step_loseOutbound] at stepped
      obtain ⟨_, _, same, rfl⟩ := stepped
      cases outbound.symm.trans same
      exact .inr (.inr ⟨rfl, rfl⟩)
  | loseInbound =>
      rw [step_loseInbound] at stepped
      obtain ⟨_, _, same, _⟩ := stepped
      cases inbound.symm.trans same

/-- What can happen to the only datagram in flight, on its way to the
sender. -/
theorem step_of_inbound {event : LinkEvent} {packet : Packet}
    (outbound : state.outbound = []) (inbound : state.inbound = [packet])
    (stepped : link.step state event = some next) :
    event = .proceed ∧ link.send state .proceed = some next ∨
      event = .answer 1 ∧ link.send { state with inbound := [] }
        (.receive link.destination [.ok packet]) = some next ∨
      event = .loseInbound ∧
        next = { state with inbound := [], lost := state.lost + 1 } := by
  cases event with
  | proceed => exact .inl ⟨rfl, stepped⟩
  | timeout =>
      rw [step_timeout] at stepped
      have quiet := stepped.1
      rw [inbound] at quiet
      cases quiet.2
  | deliver count moment =>
      rw [step_deliver] at stepped
      obtain ⟨⟨positive, fits, _⟩, _⟩ := stepped
      rw [outbound, List.length_nil] at fits
      omega
  | answer count =>
      rw [step_answer] at stepped
      obtain ⟨⟨positive, fits⟩, sent⟩ := stepped
      rw [inbound, List.length_singleton] at fits
      obtain rfl : count = 1 := by omega
      rw [inbound] at sent
      exact .inr (.inl ⟨rfl, sent⟩)
  | loseOutbound =>
      rw [step_loseOutbound] at stepped
      obtain ⟨_, _, same, _⟩ := stepped
      cases outbound.symm.trans same
  | loseInbound =>
      rw [step_loseInbound] at stepped
      obtain ⟨_, _, same, rfl⟩ := stepped
      cases inbound.symm.trans same
      exact .inr (.inr ⟨rfl, rfl⟩)

theorem returned_stays {result : Except SendError Unit} {event : LinkEvent}
    (returned : state.phase = .returned result)
    (stepped : link.step state event = some next) :
    next.phase = .returned result := by
  have silent : ∀ {event outcome},
      link.request.step link.config link.blake3 link.destination state.phase
        event ≠ some outcome := by
    intro event outcome moved
    rw [returned] at moved
    cases moved
  cases event with
  | proceed =>
      obtain ⟨_, _, moved, _⟩ := send_eq_some.mp stepped
      exact absurd moved silent
  | timeout =>
      rw [step_timeout] at stepped
      obtain ⟨_, _, moved, _⟩ := send_eq_some.mp stepped.2
      exact absurd moved silent
  | deliver count moment =>
      rw [step_deliver] at stepped
      obtain ⟨_, _, _, _, _, rfl⟩ := stepped
      exact returned
  | answer count =>
      rw [step_answer] at stepped
      obtain ⟨_, _, moved, _⟩ := send_eq_some.mp stepped.2
      exact absurd moved silent
  | loseOutbound =>
      rw [step_loseOutbound] at stepped
      obtain ⟨_, _, _, rfl⟩ := stepped
      exact returned
  | loseInbound =>
      rw [step_loseInbound] at stepped
      obtain ⟨_, _, _, rfl⟩ := stepped
      exact returned

end Steps

/-! The handshake. -/

/-- The daemon before the first DATA packet. -/
def Fresh (shared : Shared) (instant : Nat) : Prop :=
  link.Ready shared instant ∨ ∃ session,
    link.Receiving shared instant session ∧ session.receivedSet = ∅

inductive Greets (state : LinkState) : Prop
  | ready (phase : state.phase = .ready)
      (quiet : state.outbound = [] ∧ state.inbound = [])
      (fresh : link.Fresh state.shared state.instant)
  | handshake (retries : Nat) (phase : state.phase = .handshake retries)
      (quiet : state.outbound = [] ∧ state.inbound = [])
      (fresh : link.Fresh state.shared state.instant)
      (few : retries ≤ state.lost)
  | sent (retries : Nat) (phase : state.phase = .awaitStart retries)
      (outbound : state.outbound =
        [link.request.startPacket link.config link.blake3])
      (inbound : state.inbound = [])
      (fresh : link.Fresh state.shared state.instant)
      (few : retries ≤ state.lost)
  | acked (retries : Nat) (phase : state.phase = .awaitStart retries)
      (outbound : state.outbound = [])
      (inbound : state.inbound = [link.startAck])
      (session : IncomingSession)
      (receiving : link.Receiving state.shared state.instant session)
      (empty : session.receivedSet = ∅)
      (few : retries ≤ state.lost)
  | silent (retries : Nat) (phase : state.phase = .awaitStart retries)
      (quiet : state.outbound = [] ∧ state.inbound = [])
      (fresh : link.Fresh state.shared state.instant)
      (few : retries < state.lost)

structure Opening (budget : Nat) (state : LinkState) : Prop where
  greets : link.Greets state
  few : state.lost ≤ budget
  unsent : ∀ packet ∈ state.emitted, packet.kind ≠ .data

structure Opened (budget : Nat) (state : LinkState) : Prop where
  phase : ∃ window, state.phase = .window window ∧ window.base = 0 ∧
    window.negotiated = link.config.udpWindowPackets ∧
      window.acknowledged = List.replicate link.packetCount false
  quiet : state.outbound = [] ∧ state.inbound = []
  receiving : ∃ session,
    link.Receiving state.shared state.instant session ∧
      session.receivedSet = ∅
  few : state.lost ≤ budget
  unsent : ∀ packet ∈ state.emitted, packet.kind ≠ .data

def greetingRank (budget : Nat) (state : LinkState) : Nat :=
  match state.phase with
  | .ready => 5 * (budget + 2)
  | .handshake retries => 5 * (budget + 1 - retries) + 4
  | .awaitStart retries => 5 * (budget + 1 - retries) +
      (2 * state.outbound.length + state.inbound.length)
  | _ => 0

section Handshake

variable {link} {state next : LinkState} {shared : Shared} {instant : Nat}
  {session : IncomingSession}

theorem Holds.leased {ram : LocalRam} (holds : link.Holds ram) :
    ∀ arc, ram.blocks.lookup link.request.handle.id = some arc →
      ∀ cell : Cell, ram.heap[arc]? = some cell →
        0 < cell.block.handle.leaseExpiresMs := by
  obtain ⟨arc, block, found, free, accepts⟩ := holds
  intro other looked cell stored
  cases found.symm.trans looked
  cases free.symm.trans stored
  exact accepts.live

theorem Receiving.timely (receiving : link.Receiving shared instant session)
    (choice : Choice) : link.Timely shared ⟨0, instant, choice⟩ := by
  refine ⟨receiving.holds.leased, ?_, ?_⟩
  · intro other stored
    cases receiving.stored.symm.trans stored
    exact receiving.patient
  · intro time recorded
    cases receiving.uncompleted.symm.trans recorded

theorem Fresh.timely (fresh : link.Fresh shared instant) (choice : Choice) :
    link.Timely shared ⟨0, instant, choice⟩ := by
  rcases fresh with ready | ⟨session, receiving, _⟩
  · refine ⟨ready.holds.leased, ?_, ?_⟩
    · intro session stored
      cases ready.fresh.symm.trans stored
    · intro time recorded
      cases ready.uncompleted.symm.trans recorded
  · exact receiving.timely choice

theorem Fresh.start {moment : Moment} (sendable : link.Sendable)
    (fresh : link.Fresh shared instant) (later : instant ≤ moment.instant)
    (timely : link.Timely shared moment)
    (reserved : moment.choice.reserved = true) :
    ∃ shared' session,
      serve link.config link.blake3 link.address moment (udpDatagrams
          [.ok (link.request.startPacket link.config link.blake3)]) shared =
        some (shared', [link.startAck], []) ∧
      link.Receiving shared' moment.instant session ∧
      session.receivedSet = ∅ := by
  rcases fresh with ready | ⟨session, receiving, empty⟩
  · exact ready.start sendable later timely reserved
  · obtain ⟨shared', served, received⟩ :=
      receiving.start sendable later timely
    exact ⟨shared', session, served, received, empty⟩

theorem readStart_startAck (sendable : link.Sendable) :
    link.request.readStart [.ok link.startAck] =
      .ok (some (some link.config.udpWindowPackets)) := by
  have window := sendable.valid.window
  have answers : link.startAck.transferId = link.request.transferId ∧
      link.startAck.kind = .startAck := ⟨rfl, rfl⟩
  have offered : link.startAck.payload =
      Bytes.toBigEndian 2 link.config.udpWindowPackets := by
    simp only [startAck, Packet.response_payload]
    rw [Nat.min_eq_left (by simpa [ackBits] using window.2)]
  rw [SendPayload.readStart, if_pos answers, offered]
  rw [if_pos (Bytes.length_toBigEndian 2 _),
    Bytes.fromBigEndian_toBigEndian (by omega)]

theorem firstWindow_negotiated (sendable : link.Sendable) :
    (link.request.firstWindow link.config
      (some link.config.udpWindowPackets)).negotiated =
        link.config.udpWindowPackets := by
  have window := sendable.valid.window
  simp only [SendPayload.firstWindow, ackBits]
  omega

/-- The handshake can go on, and whatever happens brings it closer to its
end. -/
def GoesOn (link : Link) (coalesced : Bool) (budget : Nat)
    (state : LinkState) : Prop :=
  (∃ event next, link.Permits coalesced budget state event ∧
    link.step state event = some next) ∧
  ∀ event next, link.Permits coalesced budget state event →
    link.step state event = some next →
      link.Opened budget next ∨ link.Opening budget next ∧
        greetingRank budget next < greetingRank budget state

variable {coalesced : Bool} {budget retries : Nat}

theorem goesOn_ready (sendable : link.Sendable)
    (phase : state.phase = .ready)
    (quiet : state.outbound = [] ∧ state.inbound = [])
    (fresh : link.Fresh state.shared state.instant)
    (few : state.lost ≤ budget)
    (unsent : ∀ packet ∈ state.emitted, packet.kind ≠ .data) :
    link.GoesOn coalesced budget state := by
  have checked : link.request.check link.config = .ok () := by
    obtain ⟨nonempty, small, fits⟩ := sendable.admissible
    unfold SendPayload.check
    rw [if_neg nonempty, if_neg (by omega), if_neg (by omega)]
  have moves : link.request.step link.config link.blake3 link.destination
      state.phase .proceed = some (.handshake 0, []) := by
    rw [phase]
    simp only [SendPayload.step, checked]
  refine ⟨⟨.proceed, _, trivial, send_eq_some.mpr ⟨_, _, moves, rfl⟩⟩, ?_⟩
  intro event next _ stepped
  rcases step_of_quiet quiet stepped with ⟨_, sent⟩ | ⟨_, sent⟩
  · obtain ⟨_, _, moved, rfl⟩ := send_eq_some.mp sent
    cases moves.symm.trans moved
    refine .inr ⟨⟨.handshake 0 rfl ?_ fresh (Nat.zero_le _), few, ?_⟩, ?_⟩
    · simpa using quiet
    · simpa using unsent
    · simp only [greetingRank, phase]
      omega
  · obtain ⟨_, _, moved, _⟩ := send_eq_some.mp sent
    rw [phase] at moved
    cases moved

theorem goesOn_handshake (phase : state.phase = .handshake retries)
    (quiet : state.outbound = [] ∧ state.inbound = [])
    (fresh : link.Fresh state.shared state.instant)
    (retried : retries ≤ state.lost) (few : state.lost ≤ budget)
    (unsent : ∀ packet ∈ state.emitted, packet.kind ≠ .data) :
    link.GoesOn coalesced budget state := by
  have moves : link.request.step link.config link.blake3 link.destination
      state.phase .proceed = some (.awaitStart retries,
        [link.request.startPacket link.config link.blake3]) := by
    rw [phase]
    rfl
  refine ⟨⟨.proceed, _, trivial, send_eq_some.mpr ⟨_, _, moves, rfl⟩⟩, ?_⟩
  intro event next _ stepped
  rcases step_of_quiet quiet stepped with ⟨_, sent⟩ | ⟨_, sent⟩
  · obtain ⟨_, _, moved, rfl⟩ := send_eq_some.mp sent
    cases moves.symm.trans moved
    refine .inr ⟨⟨.sent retries rfl ?_ quiet.2 fresh retried, few, ?_⟩, ?_⟩
    · rw [quiet.1, List.nil_append]
    · intro packet member
      rcases List.mem_append.mp member with old | new
      · exact unsent packet old
      · rw [List.mem_singleton.mp new]
        exact nofun
    · simp only [greetingRank, phase, quiet.1, quiet.2]
      simp
  · obtain ⟨_, _, moved, _⟩ := send_eq_some.mp sent
    rw [phase] at moved
    cases moved

theorem goesOn_sent (sendable : link.Sendable)
    (phase : state.phase = .awaitStart retries)
    (outbound : state.outbound =
      [link.request.startPacket link.config link.blake3])
    (inbound : state.inbound = [])
    (fresh : link.Fresh state.shared state.instant)
    (retried : retries ≤ state.lost) (few : state.lost ≤ budget)
    (unsent : ∀ packet ∈ state.emitted, packet.kind ≠ .data) :
    link.GoesOn coalesced budget state := by
  have waits : link.request.step link.config link.blake3 link.destination
      state.phase .proceed = none := by
    rw [phase]
    rfl
  constructor
  · obtain ⟨shared, session, served, _⟩ := fresh.start sendable (Nat.le_refl _)
      (fresh.timely {}) rfl
    obtain ⟨next, stepped⟩ :=
      deliver_enabled outbound (Nat.le_refl _) served
    exact ⟨.deliver 1 _, next, ⟨.inr rfl, fresh.timely {}, rfl⟩, stepped⟩
  · intro event next permitted stepped
    rcases step_of_outbound outbound inbound stepped with ⟨_, sent⟩ |
      ⟨moment, rfl, later, shared, replies, responses, served, rfl⟩ |
      ⟨rfl, rfl⟩
    · obtain ⟨_, _, moved, _⟩ := send_eq_some.mp sent
      cases waits.symm.trans moved
    · obtain ⟨_, timely, reserved⟩ := permitted
      obtain ⟨shared', session, started, receiving, empty⟩ :=
        fresh.start sendable later timely reserved
      cases started.symm.trans served
      refine .inr ⟨⟨.acked retries phase rfl rfl session receiving empty
        retried, few, unsent⟩, ?_⟩
      simp [greetingRank, phase, outbound, inbound]
    · refine .inr ⟨⟨.silent retries phase ⟨rfl, inbound⟩ fresh
        (Nat.lt_succ_of_le retried), permitted, unsent⟩, ?_⟩
      simp [greetingRank, phase, outbound, inbound]

theorem goesOn_acked (sendable : link.Sendable)
    (phase : state.phase = .awaitStart retries)
    (outbound : state.outbound = [])
    (inbound : state.inbound = [link.startAck])
    (receiving : link.Receiving state.shared state.instant session)
    (empty : session.receivedSet = ∅)
    (retried : retries ≤ state.lost) (few : state.lost ≤ budget)
    (unsent : ∀ packet ∈ state.emitted, packet.kind ≠ .data) :
    link.GoesOn coalesced budget state := by
  have waits : link.request.step link.config link.blake3 link.destination
      state.phase .proceed = none := by
    rw [phase]
    rfl
  have moves : link.request.step link.config link.blake3 link.destination
      state.phase (.receive link.destination [.ok link.startAck]) =
        some (.window (link.request.firstWindow link.config
          (some link.config.udpWindowPackets)), []) := by
    rw [phase]
    simp only [SendPayload.step, if_true, readStart_startAck sendable]
  constructor
  · obtain ⟨next, stepped⟩ := answer_enabled inbound moves
    exact ⟨.answer 1, next, .inr rfl, stepped⟩
  · intro event next permitted stepped
    rcases step_of_inbound outbound inbound stepped with ⟨_, sent⟩ |
      ⟨rfl, sent⟩ | ⟨rfl, rfl⟩
    · obtain ⟨_, _, moved, _⟩ := send_eq_some.mp sent
      cases waits.symm.trans moved
    · obtain ⟨_, _, moved, rfl⟩ := send_eq_some.mp sent
      cases moves.symm.trans moved
      refine .inl ⟨⟨_, rfl, rfl, firstWindow_negotiated sendable, rfl⟩,
        ⟨by simp [outbound], rfl⟩, ⟨session, receiving, empty⟩, few, ?_⟩
      simpa using unsent
    · refine .inr ⟨⟨.silent retries phase ⟨outbound, rfl⟩
        (.inr ⟨session, receiving, empty⟩) (Nat.lt_succ_of_le retried),
        permitted, unsent⟩, ?_⟩
      simp [greetingRank, phase, outbound, inbound]

theorem goesOn_silent (enough : budget ≤ link.config.udpMaxRetries)
    (phase : state.phase = .awaitStart retries)
    (quiet : state.outbound = [] ∧ state.inbound = [])
    (fresh : link.Fresh state.shared state.instant)
    (retried : retries < state.lost) (few : state.lost ≤ budget)
    (unsent : ∀ packet ∈ state.emitted, packet.kind ≠ .data) :
    link.GoesOn coalesced budget state := by
  have moves : link.request.step link.config link.blake3 link.destination
      state.phase .timeout = some (.handshake (retries + 1), []) := by
    rw [phase]
    simp only [SendPayload.step, SendPayload.step.retryStart]
    rw [if_pos (by omega)]
  refine ⟨⟨.timeout, _, trivial, step_timeout.mpr ⟨quiet,
    send_eq_some.mpr ⟨_, _, moves, rfl⟩⟩⟩, ?_⟩
  intro event next _ stepped
  rcases step_of_quiet quiet stepped with ⟨_, sent⟩ | ⟨_, sent⟩
  · obtain ⟨_, _, moved, _⟩ := send_eq_some.mp sent
    rw [phase] at moved
    cases moved
  · obtain ⟨_, _, moved, rfl⟩ := send_eq_some.mp sent
    cases moves.symm.trans moved
    refine .inr ⟨⟨.handshake (retries + 1) rfl ?_ fresh retried, few, ?_⟩, ?_⟩
    · simpa using quiet
    · simpa using unsent
    · simp only [greetingRank, phase, quiet.1, quiet.2, List.length_nil]
      omega

theorem Opening.inevitable (sendable : link.Sendable)
    (enough : budget ≤ link.config.udpMaxRetries)
    (opening : link.Opening budget state) :
    Inevitable link.step (link.Permits coalesced budget)
      (link.Opened budget) state := by
  refine inevitable_of_decreasing Nat.lt_wfRel.wf (link.Opening budget)
    (greetingRank budget) ?_ opening
  intro state opening
  obtain ⟨greets, few, unsent⟩ := opening
  right
  cases greets with
  | ready phase quiet fresh =>
      exact goesOn_ready sendable phase quiet fresh few unsent
  | handshake retries phase quiet fresh retried =>
      exact goesOn_handshake phase quiet fresh retried few unsent
  | sent retries phase outbound inbound fresh retried =>
      exact goesOn_sent sendable phase outbound inbound fresh retried few
        unsent
  | acked retries phase outbound inbound session receiving empty retried =>
      exact goesOn_acked sendable phase outbound inbound receiving empty
        retried few unsent
  | silent retries phase quiet fresh retried =>
      exact goesOn_silent enough phase quiet fresh retried few unsent

end Handshake

/-! The rounds of a window. -/

section Rounds

variable {link} {state next : LinkState} {window : Window}

theorem dataPacket_encodes (sendable : link.Sendable) (sequence : Nat) :
    (link.request.dataPacket link.config sequence).Encodes := by
  have pieces := sendable.valid.payload
  have short : (link.request.piece link.config sequence).length ≤
      link.config.udpPayloadBytes := by
    simp only [SendPayload.piece, Slice.slice, List.length_drop,
      List.length_take]
    omega
  change (link.request.piece link.config sequence).length + headerLen ≤
    maxDatagram
  simp only [headerLen, maxDatagram]
  omega

theorem window_moves (inside : window.base < link.packetCount) :
    link.request.step link.config link.blake3 link.destination
        (.window window) .proceed =
      some (.round { window with
        finish := min (window.base + window.negotiated) link.packetCount
        round := 0 }, []) := by
  simp only [SendPayload.step]
  exact if_pos inside

theorem round_moves (sendable : link.Sendable)
    (pending : window.pending = true) :
    link.request.step link.config link.blake3 link.destination
        (.round window) .proceed =
      some (.awaitAcks window, window.unacknowledged.map
        (link.request.dataPacket link.config)) := by
  simp only [SendPayload.step]
  rw [if_pos pending, if_pos]
  rw [List.all_eq_true]
  intro packet member
  obtain ⟨sequence, _, rfl⟩ := List.mem_map.mp member
  exact decide_eq_true (dataPacket_encodes sendable sequence)

theorem round_ends (shut : window.pending = false) :
    link.request.step link.config link.blake3 link.destination
        (.round window) .proceed =
      some (.window { window with base := window.finish }, []) := by
  simp only [SendPayload.step]
  rw [if_neg (by simp [shut])]

theorem awaitAcks_ends (shut : window.pending = false) :
    link.request.step link.config link.blake3 link.destination
        (.awaitAcks window) .proceed =
      some (link.request.endRound link.config window) := by
  simp only [SendPayload.step]
  rw [if_neg (by simp [shut])]

theorem awaitAcks_waits (pending : window.pending = true) :
    link.request.step link.config link.blake3 link.destination
        (.awaitAcks window) .proceed = none := by
  simp only [SendPayload.step]
  rw [if_pos pending]

theorem awaitAcks_reads (pending : window.pending = true)
    {packets : List Packet} {after : Window}
    (read : window.readAcks link.packetCount link.request.transferId
      (packets.map .ok) = .ok after) :
    link.request.step link.config link.blake3 link.destination
        (.awaitAcks window) (.receive link.destination
          (packets.map .ok)) = some (.awaitAcks after, []) := by
  have read' : window.readAcks (link.request.packetCount link.config)
      link.request.transferId (packets.map .ok) = .ok after := read
  simp only [SendPayload.step]
  rw [if_pos pending, if_pos trivial, read']

theorem awaitAcks_deaf (shut : window.pending = false)
    {datagrams : List Datagram} :
    link.request.step link.config link.blake3 link.destination
        (.awaitAcks window) (.receive link.destination datagrams) =
      none := by
  simp only [SendPayload.step]
  rw [if_neg (by simp [shut])]

def AcksBelow (link : Link) (count : ℕ) (packet : Packet) : Prop :=
  packet.Acks link.request.transferId link.config.udpWindowPackets ∧
    ∀ sequence ∈ packet.report, sequence < count

theorem AcksBelow.mono {count more : ℕ} {packet : Packet}
    (acks : link.AcksBelow count packet) (fewer : count ≤ more) :
    link.AcksBelow more packet :=
  ⟨acks.1, fun sequence member =>
    Nat.lt_of_lt_of_le (acks.2 sequence member) fewer⟩

structure Learnt (link : Link) (window : Window) (packets : List Packet)
    (after : Window) : Prop where
  acked : after.acked = window.acked ∪
    { sequence | ∃ packet ∈ packets, sequence ∈ packet.report }
  slots : after.acknowledged.length = link.packetCount
  range : after.base = window.base ∧ after.finish = window.finish ∧
    after.round = window.round
  negotiated : min window.negotiated
      (max link.config.udpWindowPackets 2) ≤ after.negotiated ∧
    after.negotiated ≤ window.negotiated

theorem awaitAcks_learns (pending : window.pending = true)
    (slots : window.acknowledged.length = link.packetCount)
    {packets : List Packet}
    (acks : ∀ packet ∈ packets, link.AcksBelow link.packetCount packet) :
    ∃ after, link.request.step link.config link.blake3 link.destination
        (.awaitAcks window) (.receive link.destination
          (packets.map .ok)) = some (.awaitAcks after, []) ∧
      link.Learnt window packets after := by
  obtain ⟨after, read, acked, slots, range, negotiated⟩ :=
    Window.readAcks_acks (fun packet member => (acks packet member).1) slots
      (fun packet member => (acks packet member).2)
  exact ⟨after, awaitAcks_reads pending read, acked, slots, range,
    negotiated⟩

theorem answer_acks {count : ℕ} (phase : state.phase = .awaitAcks window)
    (pending : window.pending = true)
    (slots : window.acknowledged.length = link.packetCount)
    (acks : ∀ packet ∈ state.inbound,
      link.AcksBelow link.packetCount packet)
    (stepped : link.step state (.answer count) = some next) :
    (0 < count ∧ count ≤ state.inbound.length) ∧
      ∃ after, link.Learnt window (state.inbound.take count) after ∧
        next = { state with
          phase := .awaitAcks after
          inbound := state.inbound.drop count } := by
  obtain ⟨fits, sent⟩ := step_answer.mp stepped
  obtain ⟨after, moves, learnt⟩ := awaitAcks_learns pending slots
    fun packet (member : packet ∈ state.inbound.take count) =>
      acks packet (List.mem_of_mem_take member)
  refine ⟨fits, after, learnt, ?_⟩
  obtain ⟨_, _, moved, rfl⟩ := send_eq_some.mp sent
  rw [phase] at moved
  cases moves.symm.trans moved
  simp

theorem answer_acks_enabled {ack : Packet} {rest : List Packet}
    (phase : state.phase = .awaitAcks window)
    (pending : window.pending = true)
    (slots : window.acknowledged.length = link.packetCount)
    (inbound : state.inbound = ack :: rest)
    (acks : link.AcksBelow link.packetCount ack) :
    ∃ next, link.step state (.answer 1) = some next := by
  have alone : ∀ packet ∈ [ack],
      link.AcksBelow link.packetCount packet := by
    simpa using acks
  obtain ⟨after, moves, _⟩ := awaitAcks_learns pending slots alone
  rw [← phase] at moves
  exact answer_enabled inbound moves

end Rounds

/-! The completion. -/

section Completion

variable {link} {state : LinkState}

theorem window_completes {window : Window}
    (all : link.packetCount ≤ window.base) :
    link.request.step link.config link.blake3 link.destination
        (.window window) .proceed = some (.fin 0, []) := by
  simp only [SendPayload.step]
  exact if_neg (by
    unfold packetCount at all
    omega)

theorem fin_moves {attempt : Nat}
    (few : attempt ≤ link.config.udpMaxRetries) :
    link.request.step link.config link.blake3 link.destination
        (.fin attempt) .proceed =
      some (.awaitComplete attempt,
        [link.request.finPacket link.config link.blake3]) := by
  simp only [SendPayload.step]
  exact if_pos few

theorem awaitComplete_returns (attempt : Nat) :
    link.request.step link.config link.blake3 link.destination
        (.awaitComplete attempt) (.receive link.destination
          [.ok link.completion]) = some (.returned (.ok ()), []) := by
  have answers : link.completion.transferId = link.request.transferId ∧
      link.completion.kind = .complete := ⟨rfl, rfl⟩
  have read : link.request.readComplete [.ok link.completion] =
      .ok true := by
    rw [SendPayload.readComplete, if_pos answers]
  simp only [SendPayload.step, if_true, read]

end Completion

end Link

end TrainPool
