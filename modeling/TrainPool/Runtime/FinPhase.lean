import TrainPool.Runtime.Lossless

namespace TrainPool

open Execution

/-! The FIN phase of a write whose socket still holds acknowledgements. -/

section Serve

variable {config : Config} {blake3 : List UInt8 → Digest}
  {source : SocketAddr} {moment : Moment} {handler : Handler}
  {rest : List Handler} {shared between after : Shared}
  {replies others : List Packet} {responses : List ReadResponse}

theorem serve_cons {reply : Packet} {more : List Packet}
    (first : serve config blake3 source moment [handler] shared =
      some (between, reply :: more, responses)) :
    serve config blake3 source moment (handler :: rest) shared =
      (serve config blake3 source moment rest between).map fun result =>
        (result.1, reply :: more ++ result.2.1, responses ++ result.2.2) := by
  simp only [serve, Option.bind_eq_bind] at first ⊢
  cases ran : handler.complete config blake3 source moment 8 shared with
  | none =>
      rw [ran] at first
      cases first
  | some result =>
      obtain ⟨next, outcome⟩ := result
      rw [ran] at first
      simp only [Option.bind_some] at first ⊢
      cases outcome with
      | panic => cases first
      | _ =>
          simp only [List.append_nil, Option.some.injEq, Prod.mk.injEq]
            at first
          obtain ⟨rfl, replied, responded⟩ := first
          simp only [replied, responded]
          cases serve config blake3 source moment rest next with
          | none => rfl
          | some result => rfl

theorem serve_first {result : Shared × List Packet × List ReadResponse}
    (served : serve config blake3 source moment (handler :: rest) shared =
      some result) :
    ∃ between, serve config blake3 source moment [handler] shared =
      some between := by
  simp only [serve, Option.bind_eq_bind] at served ⊢
  obtain ⟨⟨next, outcome⟩, ran, _⟩ := Option.bind_eq_some_iff.mp served
  rw [ran]
  simp only [Option.bind_some]
  cases outcome with
  | panic => exact ⟨_, rfl⟩
  | _ => exact ⟨_, rfl⟩

end Serve

namespace Link

variable (link : Link)

def fin : Packet := link.request.finPacket link.config link.blake3

section Fins

variable {link} {shared : Shared} {instant : Nat} {moment : Moment}

theorem udpDatagrams_fins (link : Link) (count : ℕ) :
    udpDatagrams ((List.replicate count link.fin).map .ok) =
      List.replicate count { packet := link.fin } := by
  unfold udpDatagrams
  rw [validPackets_ok]
  cases count with
  | zero => rfl
  | succ more =>
      rw [List.replicate_succ]
      dsimp only
      rw [if_neg, List.map_cons, List.map_replicate]
      · rfl
      · intro batch
        cases (batch.2.2 link.fin List.mem_cons_self).1

/-- A daemon that has completed the transfer answers FINs that come
together. -/
theorem Finished.fins (finished : link.Finished shared instant)
    (patience : ∀ time, shared.udp.completed.lookup
      (link.key, link.request.offset) = some time →
        moment.instant - time < completedExpiryMs) (count : ℕ) :
    ∃ shared',
      serve link.config link.blake3 link.address moment
          (List.replicate count { packet := link.fin }) shared =
        some (shared', List.replicate count link.completion, []) ∧
      link.Finished shared' moment.instant := by
  induction count generalizing shared instant with
  | zero =>
      obtain ⟨time, recorded, _⟩ := finished.recorded
      exact ⟨shared, rfl, ⟨time, recorded, patience time recorded⟩,
        finished.leased, finished.taken⟩
  | succ more ih =>
      obtain ⟨between, served, kept⟩ := finished.fin patience
      rw [udpDatagrams_single] at served
      change serve link.config link.blake3 link.address moment
        [{ packet := link.fin }] shared = _ at served
      obtain ⟨time, recorded, patient⟩ := kept.recorded
      obtain ⟨shared', rest, finished'⟩ := ih kept (by
        intro other found
        cases recorded.symm.trans found
        exact patient)
      refine ⟨shared', ?_, finished'⟩
      rw [List.replicate_succ, serve_cons served, rest]
      rfl

def Answering (link : Link) (state : LinkState) (answered : ℕ) : Prop :=
  link.Arrived link.packetCount state ∧ answered = 0 ∨
    link.Finished state.shared state.instant

theorem Answering.fins (sendable : link.Sendable) {state : LinkState}
    {answered : ℕ} (answering : link.Answering state answered)
    (later : state.instant ≤ moment.instant)
    (timely : link.Timely state.shared moment) {count : ℕ}
    (positive : 0 < count) {shared' : Shared} {replies : List Packet}
    {responses : List ReadResponse}
    (served : serve link.config link.blake3 link.address moment
      (udpDatagrams ((List.replicate count link.fin).map .ok))
        state.shared = some (shared', replies, responses)) :
    replies = List.replicate count link.completion ∧
      link.Finished shared' moment.instant := by
  rw [udpDatagrams_fins] at served
  rcases answering with ⟨⟨session, receiving, received⟩, _⟩ | finished
  · have full : session.receivedCount = link.packetCount :=
      receiving.serves.receivedCount_of_prefix (Nat.le_refl _) received
    obtain ⟨more, rfl⟩ : ∃ more, count = more + 1 := ⟨count - 1, by omega⟩
    rw [List.replicate_succ] at served
    obtain ⟨⟨between, first, answers⟩, alone⟩ := serve_first served
    have single : serve link.config link.blake3 link.address moment
        (udpDatagrams [.ok (link.request.finPacket link.config
          link.blake3)]) state.shared = some (between, first, answers) := by
      rw [udpDatagrams_single]
      exact alone
    obtain ⟨rfl, finished⟩ :=
      receiving.fin sendable later timely full single
    obtain ⟨time, recorded, patient⟩ := finished.recorded
    obtain ⟨after, rest, finished'⟩ := finished.fins (by
      intro other found
      cases recorded.symm.trans found
      exact patient) more
    rw [serve_cons alone, rest] at served
    cases served
    exact ⟨rfl, finished'⟩
  · obtain ⟨after, rest, finished'⟩ := finished.fins timely.completed count
    cases rest.symm.trans served
    exact ⟨rfl, finished'⟩

theorem Answering.fin_isSome (sendable : link.Sendable) {state : LinkState}
    {answered : ℕ} (answering : link.Answering state answered) :
    ∃ choice : Choice, choice.reserved = true ∧
      link.Timely state.shared ⟨0, state.instant, choice⟩ ∧
      (serve link.config link.blake3 link.address
        ⟨0, state.instant, choice⟩ (udpDatagrams [.ok link.fin])
          state.shared).isSome := by
  rcases answering with ⟨⟨session, receiving, received⟩, _⟩ | finished
  · have full : session.receivedCount = link.packetCount :=
      receiving.serves.receivedCount_of_prefix (Nat.le_refl _) received
    obtain ⟨oldest, served⟩ :=
      @Receiving.fin_isSome link state.shared state.instant session sendable
        receiving 0 state.instant {}
        (fun oldest => receiving.timely { oldest := oldest }) full
    exact ⟨{ oldest := oldest }, rfl, receiving.timely _, served⟩
  · have timely : link.Timely state.shared ⟨0, state.instant, {}⟩ := by
      refine ⟨finished.leased, ?_, ?_⟩
      · intro session stored
        cases finished.taken.symm.trans stored
      · intro time found
        obtain ⟨other, recorded, patient⟩ := finished.recorded
        cases recorded.symm.trans found
        exact patient
    obtain ⟨after, served, _⟩ := finished.fin timely.completed
    refine ⟨{}, rfl, timely, ?_⟩
    rw [show link.fin = link.request.finPacket link.config link.blake3
      from rfl, served]
    rfl

theorem readComplete_acks (link : Link) {stale : List Packet}
    (acks : ∀ packet ∈ stale, packet.kind = .ack) (rest : List Datagram) :
    link.request.readComplete (stale.map .ok ++ rest) =
      link.request.readComplete rest := by
  induction stale with
  | nil => rfl
  | cons packet others ih =>
      have kind := acks packet List.mem_cons_self
      rw [List.map_cons, List.cons_append, SendPayload.readComplete,
        if_neg (by simp [kind]), if_neg (by simp [kind])]
      exact ih fun other member => acks other (List.mem_cons_of_mem _ member)

theorem readComplete_completion (link : Link) (rest : List Datagram) :
    link.request.readComplete (.ok link.completion :: rest) = .ok true := by
  rw [SendPayload.readComplete]
  exact if_pos ⟨rfl, rfl⟩

end Fins

/-- What is under way in the FIN phase: acknowledgements that came before, the
answers to FINs behind them, and FINs on their way. -/
structure Leftover (stale : List Packet) (asked answered : ℕ)
    (state : LinkState) : Prop where
  acks : ∀ packet ∈ stale, packet.kind = .ack
  inbound : state.inbound = stale ++ List.replicate answered link.completion
  outbound : state.outbound = List.replicate asked link.fin
  answering : link.Answering state answered

inductive Outlasts (state : LinkState) : Prop
  | closing (window : Window) (phase : state.phase = .awaitAcks window)
      (shut : window.pending = false)
      (last : window.finish = link.packetCount)
      (early : window.round < link.config.udpMaxRetries)
      (stale : List Packet) (left : link.Leftover stale 0 0 state)
      (few : stale.length ≤ link.config.udpMaxRetries)
  | ended (window : Window) (phase : state.phase = .round window)
      (shut : window.pending = false)
      (last : window.finish = link.packetCount)
      (stale : List Packet) (left : link.Leftover stale 0 0 state)
      (few : stale.length ≤ link.config.udpMaxRetries)
  | done (window : Window) (phase : state.phase = .window window)
      (last : window.base = link.packetCount)
      (stale : List Packet) (left : link.Leftover stale 0 0 state)
      (few : stale.length ≤ link.config.udpMaxRetries)
  | fin (attempt : ℕ) (phase : state.phase = .fin attempt)
      (stale : List Packet) (asked answered : ℕ)
      (left : link.Leftover stale asked answered state)
      (few : attempt + stale.length ≤ link.config.udpMaxRetries)
  | waits (attempt : ℕ) (phase : state.phase = .awaitComplete attempt)
      (stale : List Packet) (asked answered : ℕ)
      (left : link.Leftover stale asked answered state)
      (some_ : 0 < asked + answered)
      (few : attempt + stale.length ≤ link.config.udpMaxRetries)

def phaseRank : Phase → ℕ
  | .awaitAcks _ => 6
  | .round _ => 5
  | .window _ => 4
  | .fin _ => 3
  | _ => 0

/-- What the sender has yet to read, weighed so that a FIN weighs less than
an acknowledgement. -/
def outlastRank (state : LinkState) : ℕ :=
  2 * state.outbound.length + 4 * (state.inbound.filter
      fun packet => packet.kind = .ack).length +
    (state.inbound.filter fun packet => packet.kind ≠ .ack).length +
    phaseRank state.phase

def Succeeded (state : LinkState) : Prop :=
  state.phase = .returned (.ok ())

def Outlasting (state : LinkState) : Prop :=
  (∃ event next, link.Permits true 0 state event ∧
    link.step state event = some next) ∧
  ∀ event next, link.Permits true 0 state event →
    link.step state event = some next →
      Succeeded next ∨ link.Outlasts next ∧
        outlastRank next < outlastRank state

section Outlasts

variable {link} {state next : LinkState} {window : Window}
  {stale : List Packet} {asked answered attempt : ℕ}

theorem Leftover.rank (left : link.Leftover stale asked answered state) :
    outlastRank state = 2 * asked + 4 * stale.length + answered +
      phaseRank state.phase := by
  have acks : state.inbound.filter (fun packet => packet.kind = .ack) =
      stale := by
    rw [left.inbound, List.filter_append, List.filter_eq_self.mpr,
      List.filter_eq_nil_iff.mpr, List.append_nil]
    · intro packet member
      rw [List.eq_of_mem_replicate member]
      exact show ¬decide (Kind.complete = Kind.ack) = true by decide
    · exact fun packet member => decide_eq_true (left.acks packet member)
  have others : state.inbound.filter (fun packet => packet.kind ≠ .ack) =
      List.replicate answered link.completion := by
    rw [left.inbound, List.filter_append, List.filter_eq_nil_iff.mpr,
      List.filter_eq_self.mpr, List.nil_append]
    · intro packet member
      rw [List.eq_of_mem_replicate member]
      exact show decide (Kind.complete ≠ Kind.ack) = true by decide
    · intro packet member
      simp [left.acks packet member]
  unfold outlastRank
  rw [acks, others, left.outbound]
  simp only [List.length_replicate]

theorem Leftover.deliver (sendable : link.Sendable)
    (left : link.Leftover stale asked answered state) {count : ℕ}
    {moment : Moment} (timely : link.Timely state.shared moment)
    (stepped : link.step state (.deliver count moment) = some next) :
    0 < count ∧ count ≤ asked ∧ next.phase = state.phase ∧
      link.Leftover stale (asked - count) (answered + count) next := by
  obtain ⟨⟨positive, most, later⟩, shared, replies, responses, served, rfl⟩ :=
    step_deliver.mp stepped
  rw [left.outbound, List.length_replicate] at most
  rw [left.outbound, List.take_replicate, Nat.min_eq_left most] at served
  obtain ⟨rfl, finished⟩ :=
    left.answering.fins sendable later timely positive served
  refine ⟨positive, most, rfl, left.acks, ?_, ?_, .inr finished⟩
  · simp only [left.inbound, List.append_assoc, List.replicate_add]
  · simp only [left.outbound, List.drop_replicate]

theorem Leftover.proceed (left : link.Leftover stale asked answered state)
    (phase : Phase) : link.Leftover stale asked answered { state with
      phase := phase
      outbound := state.outbound ++ []
      emitted := state.emitted ++ [] } :=
  ⟨left.acks, left.inbound, (List.append_nil _).trans left.outbound,
    left.answering⟩

/-- While nothing is on its way to the daemon and the sender does not listen,
only the sender moves. -/
theorem Leftover.alone (left : link.Leftover stale 0 0 state)
    {event : LinkEvent} (permitted : link.Permits true 0 state event)
    (deaf : ∀ count, link.step state (.answer count) = none)
    (stepped : link.step state event = some next) :
    event = .proceed ∧ link.send state .proceed = some next ∨
      event = .timeout ∧ link.send state .timeout = some next := by
  cases event with
  | proceed => exact .inl ⟨rfl, stepped⟩
  | timeout => exact .inr ⟨rfl, (step_timeout.mp stepped).2⟩
  | deliver count moment =>
      obtain ⟨⟨positive, most, _⟩, _⟩ := step_deliver.mp stepped
      rw [left.outbound, List.length_replicate] at most
      omega
  | answer count =>
      rw [deaf count] at stepped
      cases stepped
  | loseOutbound => exact absurd permitted (Nat.not_lt_zero _)
  | loseInbound => exact absurd permitted (Nat.not_lt_zero _)

theorem answer_none {count : ℕ}
    (deaf : ∀ datagrams, link.request.step link.config link.blake3
      link.destination state.phase (.receive link.destination datagrams) =
        none) : link.step state (.answer count) = none := by
  rw [Option.eq_none_iff_forall_not_mem]
  intro next stepped
  obtain ⟨_, sent⟩ := step_answer.mp stepped
  obtain ⟨_, _, moved, _⟩ := send_eq_some.mp sent
  cases (deaf _).symm.trans moved

theorem outlasting_closing (phase : state.phase = .awaitAcks window)
    (shut : window.pending = false)
    (last : window.finish = link.packetCount)
    (early : window.round < link.config.udpMaxRetries)
    (left : link.Leftover stale 0 0 state)
    (few : stale.length ≤ link.config.udpMaxRetries) :
    link.Outlasting state := by
  obtain ⟨negotiated, ends⟩ : ∃ negotiated,
      link.request.endRound link.config window = (.round { window with
        round := window.round + 1
        negotiated := negotiated }, []) := by
    unfold SendPayload.endRound
    simp only
    rw [if_pos (by omega)]
    exact ⟨_, rfl⟩
  have moves : link.request.step link.config link.blake3 link.destination
      state.phase .proceed = some (.round { window with
        round := window.round + 1
        negotiated := negotiated }, []) := by
    rw [phase, awaitAcks_ends shut, ends]
  have expires : link.request.step link.config link.blake3 link.destination
      state.phase .timeout = some (.round { window with
        round := window.round + 1
        negotiated := negotiated }, []) := by
    rw [phase]
    simp only [SendPayload.step, ends]
  refine ⟨⟨.proceed, _, trivial, send_eq_some.mpr ⟨_, _, moves, rfl⟩⟩, ?_⟩
  have reached : ∀ after, after = { state with
      phase := .round { window with
        round := window.round + 1
        negotiated := negotiated }
      outbound := state.outbound ++ []
      emitted := state.emitted ++ [] } →
        link.Outlasts after ∧ outlastRank after < outlastRank state := by
    intro after same
    subst same
    have left' := left.proceed (.round { window with
      round := window.round + 1
      negotiated := negotiated })
    refine ⟨.ended { window with
      round := window.round + 1
      negotiated := negotiated } rfl shut last stale left' few, ?_⟩
    rw [left'.rank, left.rank, phase]
    simp only [phaseRank]
    omega
  intro event next permitted stepped
  have deaf : ∀ count, link.step state (.answer count) = none := by
    intro count
    refine answer_none fun datagrams => ?_
    rw [phase]
    exact awaitAcks_deaf shut
  rcases left.alone permitted deaf stepped with ⟨_, went⟩ | ⟨_, went⟩
  · obtain ⟨_, _, moved, same⟩ := send_eq_some.mp went
    cases moves.symm.trans moved
    exact .inr (reached next same)
  · obtain ⟨_, _, moved, same⟩ := send_eq_some.mp went
    cases expires.symm.trans moved
    exact .inr (reached next same)

theorem outlasting_ended (phase : state.phase = .round window)
    (shut : window.pending = false)
    (last : window.finish = link.packetCount)
    (left : link.Leftover stale 0 0 state)
    (few : stale.length ≤ link.config.udpMaxRetries) :
    link.Outlasting state := by
  have moves : link.request.step link.config link.blake3 link.destination
      state.phase .proceed =
        some (.window { window with base := window.finish }, []) := by
    rw [phase, round_ends shut]
  refine ⟨⟨.proceed, _, trivial, send_eq_some.mpr ⟨_, _, moves, rfl⟩⟩, ?_⟩
  intro event next permitted stepped
  have deaf : ∀ count, link.step state (.answer count) = none := by
    intro count
    refine answer_none fun datagrams => ?_
    rw [phase]
    rfl
  rcases left.alone permitted deaf stepped with ⟨_, went⟩ | ⟨_, went⟩
  · obtain ⟨_, _, moved, rfl⟩ := send_eq_some.mp went
    cases moves.symm.trans moved
    have left' := left.proceed (.window { window with base := window.finish })
    refine .inr ⟨.done _ rfl last stale left' few, ?_⟩
    rw [left'.rank, left.rank, phase]
    simp only [phaseRank]
    omega
  · obtain ⟨_, _, moved, _⟩ := send_eq_some.mp went
    rw [phase] at moved
    cases moved

theorem outlasting_done (phase : state.phase = .window window)
    (last : window.base = link.packetCount)
    (left : link.Leftover stale 0 0 state)
    (few : stale.length ≤ link.config.udpMaxRetries) :
    link.Outlasting state := by
  have moves : link.request.step link.config link.blake3 link.destination
      state.phase .proceed = some (.fin 0, []) := by
    rw [phase]
    exact window_completes last.ge
  refine ⟨⟨.proceed, _, trivial, send_eq_some.mpr ⟨_, _, moves, rfl⟩⟩, ?_⟩
  intro event next permitted stepped
  have deaf : ∀ count, link.step state (.answer count) = none := by
    intro count
    refine answer_none fun datagrams => ?_
    rw [phase]
    rfl
  rcases left.alone permitted deaf stepped with ⟨_, went⟩ | ⟨_, went⟩
  · obtain ⟨_, _, moved, rfl⟩ := send_eq_some.mp went
    cases moves.symm.trans moved
    have left' := left.proceed (.fin 0)
    refine .inr ⟨.fin 0 rfl stale 0 0 left' (by omega), ?_⟩
    rw [left'.rank, left.rank, phase]
    simp only [phaseRank]
    omega
  · obtain ⟨_, _, moved, _⟩ := send_eq_some.mp went
    rw [phase] at moved
    cases moved

theorem outlasting_fin (sendable : link.Sendable)
    (phase : state.phase = .fin attempt)
    (left : link.Leftover stale asked answered state)
    (few : attempt + stale.length ≤ link.config.udpMaxRetries) :
    link.Outlasting state := by
  have moves : link.request.step link.config link.blake3 link.destination
      state.phase .proceed = some (.awaitComplete attempt, [link.fin]) := by
    rw [phase]
    exact fin_moves (by omega)
  refine ⟨⟨.proceed, _, trivial, send_eq_some.mpr ⟨_, _, moves, rfl⟩⟩, ?_⟩
  intro event next permitted stepped
  cases event with
  | proceed =>
      obtain ⟨_, _, moved, rfl⟩ := send_eq_some.mp stepped
      cases moves.symm.trans moved
      have left' : link.Leftover stale (asked + 1) answered { state with
          phase := .awaitComplete attempt
          outbound := state.outbound ++ [link.fin]
          emitted := state.emitted ++ [link.fin] } := by
        refine ⟨left.acks, left.inbound, ?_, left.answering⟩
        rw [List.replicate_succ', ← left.outbound]
      refine .inr ⟨.waits attempt rfl stale (asked + 1) answered left'
        (by omega) few, ?_⟩
      rw [left'.rank, left.rank, phase]
      simp only [phaseRank]
      omega
  | timeout =>
      obtain ⟨_, _, moved, _⟩ := send_eq_some.mp (step_timeout.mp stepped).2
      rw [phase] at moved
      cases moved
  | deliver count moment =>
      obtain ⟨positive, most, same, left'⟩ :=
        left.deliver sendable permitted.2.1 stepped
      refine .inr ⟨.fin attempt (same.trans phase) stale _ _ left' few, ?_⟩
      rw [left'.rank, left.rank, same, phase]
      omega
  | answer count =>
      have deaf : link.step state (.answer count) = none :=
        answer_none fun datagrams => by
          rw [phase]
          rfl
      cases deaf.symm.trans stepped
  | loseOutbound => exact absurd permitted (Nat.not_lt_zero _)
  | loseInbound => exact absurd permitted (Nat.not_lt_zero _)

theorem outlasting_answer (phase : state.phase = .awaitComplete attempt)
    (left : link.Leftover stale asked answered state)
    (few : attempt + stale.length ≤ link.config.udpMaxRetries) {size : ℕ}
    (stepped : link.step state (.answer size) = some next) :
    Succeeded next ∨
      link.Outlasts next ∧ outlastRank next < outlastRank state := by
  obtain ⟨⟨positive, most⟩, sent⟩ := step_answer.mp stepped
  obtain ⟨after, packets, moved, rfl⟩ := send_eq_some.mp sent
  have moved' : link.request.step link.config link.blake3 link.destination
      (.awaitComplete attempt) (.receive link.destination
        ((state.inbound.take size).map .ok)) = some (after, packets) := by
    rw [← phase]
    exact moved
  simp only [SendPayload.step, if_true] at moved'
  rcases Nat.lt_or_ge stale.length size with shut | within
  · -- The batch reaches the first completion.
    rw [left.inbound, List.length_append, List.length_replicate] at most
    obtain ⟨more, some_⟩ : ∃ more, size - stale.length = more + 1 :=
      ⟨size - stale.length - 1, by omega⟩
    have batch : ((state.inbound.take size).map .ok : List Datagram) =
        stale.map .ok ++ .ok link.completion ::
          (List.replicate (min more (answered - 1)) link.completion).map
            .ok := by
      rw [left.inbound, List.take_append, List.take_of_length_le shut.le,
        some_, List.take_replicate, List.map_append,
        show min (more + 1) answered = min more (answered - 1) + 1 by omega,
        List.replicate_succ, List.map_cons]
    rw [batch, readComplete_acks link left.acks,
      readComplete_completion] at moved'
    cases moved'
    exact .inl rfl
  · have batch : ((state.inbound.take size).map .ok : List Datagram) =
        (stale.take size).map .ok ++ [] := by
      rw [left.inbound, List.take_append_of_le_length within,
        List.append_nil]
    have silent : link.request.readComplete
        ((state.inbound.take size).map .ok) = .ok false := by
      rw [batch, readComplete_acks link fun packet member =>
        left.acks packet (List.mem_of_mem_take member)]
      rfl
    rw [silent] at moved'
    cases moved'
    right
    have left' : link.Leftover (stale.drop size) asked answered { state with
        inbound := state.inbound.drop size
        phase := .fin (attempt + 1)
        outbound := state.outbound ++ []
        emitted := state.emitted ++ [] } := by
      refine ⟨fun packet member =>
        left.acks packet (List.mem_of_mem_drop member), ?_,
        (List.append_nil _).trans left.outbound, left.answering⟩
      simp only [left.inbound, List.drop_append_of_le_length within]
    have shorter : (stale.drop size).length = stale.length - size :=
      List.length_drop
    refine ⟨.fin (attempt + 1) rfl _ asked answered left' (by omega), ?_⟩
    rw [left'.rank, left.rank, phase]
    simp only [phaseRank]
    omega

theorem outlasting_waits (sendable : link.Sendable)
    (phase : state.phase = .awaitComplete attempt)
    (left : link.Leftover stale asked answered state)
    (some_ : 0 < asked + answered)
    (few : attempt + stale.length ≤ link.config.udpMaxRetries) :
    link.Outlasting state := by
  constructor
  · rcases Nat.eq_zero_or_pos asked with rfl | waiting
    · -- Something has arrived.
      obtain ⟨oldest, rest, inbound⟩ : ∃ oldest rest,
          state.inbound = oldest :: rest := by
        refine List.exists_cons_of_length_pos ?_
        rw [left.inbound, List.length_append, List.length_replicate]
        omega
      have reads : ∃ result, link.request.step link.config link.blake3
          link.destination state.phase
            (.receive link.destination [.ok oldest]) = some result := by
        have kinds : oldest.kind = .ack ∨ oldest = link.completion := by
          have member : oldest ∈ stale ++
              List.replicate answered link.completion := by
            rw [← left.inbound, inbound]
            exact List.mem_cons_self
          exact (List.mem_append.mp member).imp (left.acks oldest)
            List.eq_of_mem_replicate
        rw [phase]
        simp only [SendPayload.step, if_true]
        rcases kinds with ack | rfl
        · rw [SendPayload.readComplete, if_neg (by simp [ack]),
            if_neg (by simp [ack])]
          exact ⟨_, rfl⟩
        · rw [readComplete_completion]
          exact ⟨_, rfl⟩
      obtain ⟨result, moves⟩ := reads
      obtain ⟨next, stepped⟩ := answer_enabled inbound moves
      exact ⟨.answer 1, next, .inl rfl, stepped⟩
    · obtain ⟨choice, reserved, timely, served⟩ :=
        left.answering.fin_isSome sendable
      obtain ⟨result, served⟩ := Option.isSome_iff_exists.mp served
      obtain ⟨more, rfl⟩ : ∃ more, asked = more + 1 := ⟨asked - 1, by omega⟩
      have outbound := left.outbound
      rw [List.replicate_succ] at outbound
      obtain ⟨next, stepped⟩ :=
        deliver_enabled outbound (Nat.le_refl _) served
      exact ⟨.deliver 1 _, next, ⟨.inl rfl, timely, reserved⟩, stepped⟩
  · intro event next permitted stepped
    cases event with
    | proceed =>
        obtain ⟨_, _, moved, _⟩ := send_eq_some.mp stepped
        rw [phase] at moved
        cases moved
    | timeout =>
        obtain ⟨outbound, inbound⟩ := (step_timeout.mp stepped).1
        have none_ := left.outbound.symm.trans outbound
        have none' := left.inbound.symm.trans inbound
        rw [List.replicate_eq_nil_iff] at none_
        rw [List.append_eq_nil_iff, List.replicate_eq_nil_iff] at none'
        omega
    | deliver count moment =>
        obtain ⟨positive, most, same, left'⟩ :=
          left.deliver sendable permitted.2.1 stepped
        refine .inr ⟨.waits attempt (same.trans phase) stale _ _ left'
          (by omega) few, ?_⟩
        rw [left'.rank, left.rank, same, phase]
        simp only [phaseRank]
        omega
    | answer size => exact outlasting_answer phase left few stepped
    | loseOutbound => exact absurd permitted (Nat.not_lt_zero _)
    | loseInbound => exact absurd permitted (Nat.not_lt_zero _)

theorem Outlasts.inevitable (sendable : link.Sendable)
    (outlasts : link.Outlasts state) :
    Inevitable link.step (link.Permits true 0) Succeeded state := by
  refine inevitable_of_decreasing Nat.lt_wfRel.wf link.Outlasts outlastRank ?_
    outlasts
  intro state outlasts
  right
  cases outlasts with
  | closing window phase shut last early stale left few =>
      exact outlasting_closing phase shut last early left few
  | ended window phase shut last stale left few =>
      exact outlasting_ended phase shut last left few
  | done window phase last stale left few =>
      exact outlasting_done phase last left few
  | fin attempt phase stale asked answered left few =>
      exact outlasting_fin sendable phase left few
  | waits attempt phase stale asked answered left some_ few =>
      exact outlasting_waits sendable phase left some_ few

def Fails (link : Link) (state : LinkState) : Prop :=
  ¬Inevitable link.step (link.Permits true 0) Succeeded state

theorem Fails.returned {error : SendError}
    (returned : state.phase = .returned (.error error)) :
    link.Fails state := by
  intro inevitable
  let doomed (state : LinkState) : Prop :=
    state.phase = .returned (.error error)
  have lost : doomed state := returned
  refine inevitable.not_doomed ?_ ?_ lost
  · intro state failed succeeded
    cases failed.symm.trans succeeded
  · exact fun _ _ _ failed _ stepped => returned_stays failed stepped

theorem Fails.before (fails : link.Fails next) (event : LinkEvent)
    (working : state.phase ≠ .returned (.ok ()))
    (permitted : link.Permits true 0 state event)
    (stepped : link.step state event = some next) : link.Fails state := by
  intro inevitable
  exact fails (inevitable.after working permitted stepped)

theorem fin_exhausted (phase : state.phase = .fin attempt)
    (acks : ∀ packet ∈ stale, packet.kind = .ack) {rest : List Packet}
    (inbound : state.inbound = stale ++ rest)
    (many : link.config.udpMaxRetries < attempt + stale.length) :
    link.Fails state := by
  induction stale generalizing state attempt with
  | nil =>
      rw [List.length_nil, Nat.add_zero] at many
      have moves : link.request.step link.config link.blake3
          link.destination state.phase .proceed =
            some (link.request.fail (.message
              "TRAINPOOL_TRANSFER_TIMEOUT: UDP FIN acknowledgement")) := by
        rw [phase]
        simp only [SendPayload.step]
        rw [if_neg (by omega)]
      exact Fails.before (Fails.returned rfl) .proceed
        (by rw [phase]; simp) trivial
        (send_eq_some.mpr ⟨_, _, moves, rfl⟩)
  | cons oldest others ih =>
      rcases Nat.lt_or_ge link.config.udpMaxRetries attempt with shut | within
      · have moves : link.request.step link.config link.blake3
            link.destination state.phase .proceed =
              some (link.request.fail (.message
                "TRAINPOOL_TRANSFER_TIMEOUT: UDP FIN acknowledgement")) := by
          rw [phase]
          simp only [SendPayload.step]
          rw [if_neg (by omega)]
        exact Fails.before (Fails.returned rfl) .proceed
          (by rw [phase]; simp) trivial
          (send_eq_some.mpr ⟨_, _, moves, rfl⟩)
      · have asks : link.request.step link.config link.blake3
            link.destination state.phase .proceed =
              some (.awaitComplete attempt, [link.fin]) := by
          rw [phase]
          exact fin_moves within
        refine Fails.before ?_ .proceed (by rw [phase]; simp) trivial
          (send_eq_some.mpr ⟨_, _, asks, rfl⟩)
        have kind := acks oldest List.mem_cons_self
        have reads : link.request.step link.config link.blake3
            link.destination (.awaitComplete attempt)
              (.receive link.destination [.ok oldest]) =
                some (.fin (attempt + 1), []) := by
          simp only [SendPayload.step, if_true]
          rw [SendPayload.readComplete, if_neg (by simp [kind]),
            if_neg (by simp [kind])]
          rfl
        have listens : link.step { state with
            phase := .awaitComplete attempt
            outbound := state.outbound ++ [link.fin]
            emitted := state.emitted ++ [link.fin] } (.answer 1) = some
              { state with
                phase := .fin (attempt + 1)
                outbound := state.outbound ++ [link.fin] ++ []
                inbound := others ++ rest
                emitted := state.emitted ++ [link.fin] ++ [] } := by
          refine step_answer.mpr ⟨⟨Nat.one_pos, ?_⟩,
            send_eq_some.mpr ⟨.fin (attempt + 1), [], ?_, ?_⟩⟩
          · rw [inbound]
            simp
          · rw [inbound]
            exact reads
          · rw [inbound]
            rfl
        refine Fails.before ?_ (.answer 1) (by simp) (.inl rfl) listens
        refine ih rfl (fun packet member =>
          acks packet (List.mem_cons_of_mem _ member)) rfl ?_
        rw [List.length_cons] at many
        omega

theorem closing_fails (phase : state.phase = .awaitAcks window)
    (shut : window.pending = false)
    (last : window.finish = link.packetCount)
    (acks : ∀ packet ∈ state.inbound, packet.kind = .ack)
    (spent : link.config.udpMaxRetries ≤ window.round ∨
      link.config.udpMaxRetries < state.inbound.length) :
    link.Fails state := by
  have working : state.phase ≠ .returned (.ok ()) := by
    rw [phase]
    exact nofun
  by_cases early : window.round < link.config.udpMaxRetries
  · obtain ⟨negotiated, ends⟩ : ∃ negotiated,
        link.request.endRound link.config window = (.round { window with
          round := window.round + 1
          negotiated := negotiated }, []) := by
      unfold SendPayload.endRound
      simp only
      rw [if_pos (by omega)]
      exact ⟨_, rfl⟩
    have first : link.request.step link.config link.blake3 link.destination
        state.phase .proceed = some (.round { window with
          round := window.round + 1
          negotiated := negotiated }, []) := by
      rw [phase, awaitAcks_ends shut, ends]
    have shut' : ({ window with
        round := window.round + 1
        negotiated := negotiated } : Window).pending = false := shut
    refine Fails.before ?_ .proceed working trivial
      (send_eq_some.mpr ⟨_, _, first, rfl⟩)
    refine Fails.before ?_ .proceed nofun trivial
      (send_eq_some.mpr ⟨_, _, round_ends shut', rfl⟩)
    refine Fails.before ?_ .proceed nofun trivial
      (send_eq_some.mpr ⟨_, _, window_completes last.ge, rfl⟩)
    exact fin_exhausted rfl acks (List.append_nil _).symm (by omega)
  · have fails : link.request.step link.config link.blake3 link.destination
        state.phase .proceed = some (link.request.fail (.message
          "TRAINPOOL_TRANSFER_TIMEOUT: bounded UDP retry exhausted")) := by
      rw [phase, awaitAcks_ends shut]
      unfold SendPayload.endRound
      simp only
      rw [if_neg (by omega)]
    exact Fails.before (Fails.returned rfl) .proceed working trivial
      (send_eq_some.mpr ⟨_, _, fails, rfl⟩)

/-- When the last window of a write becomes acknowledged and nothing is lost
any more, whatever arrives together, the write succeeds exactly if no more
acknowledgements are left over than FIN can be repeated (and the window did
not need its last permitted retransmission). -/
theorem leftover_acks_iff (sendable : link.Sendable)
    (waits : state.phase = .awaitAcks window)
    (shut : window.pending = false)
    (last : window.finish = link.packetCount)
    (arrived : link.Arrived link.packetCount state)
    (outbound : state.outbound = [])
    (acks : ∀ packet ∈ state.inbound, packet.kind = .ack) :
    Inevitable link.step (link.Permits true 0) Succeeded state ↔
      window.round < link.config.udpMaxRetries ∧
        state.inbound.length ≤ link.config.udpMaxRetries := by
  constructor
  · intro inevitable
    by_contra spent
    exact closing_fails waits shut last acks (by omega) inevitable
  · intro enough
    have left : link.Leftover state.inbound 0 0 state :=
      ⟨acks, (List.append_nil _).symm, outbound, .inl ⟨arrived, rfl⟩⟩
    exact Outlasts.inevitable sendable
      (.closing window waits shut last enough.1 state.inbound left enough.2)

end Outlasts

def abcLink (retries : Nat) : Link where
  request := abcWrite
  config := { udpMaxRetries := retries }
  address := 1
  destination := 50
  blake3 := abcHash

def abcShared : Shared where
  ram :=
    { blocks := (∅ : Table Uuid Arc).insert 7 0
      heap := [⟨RamBlock.allocated abcHandle, none⟩] }
  udp := {}

theorem abcLink_sendable {retries : Nat}
    (valid : 1 ≤ retries ∧ retries ≤ 64) : (abcLink retries).Sendable := by
  refine ⟨⟨?_, ?_, ?_, ?_, valid, ?_, ?_⟩, ⟨?_, ?_, ?_⟩, rfl⟩
  · exact show 4096 ≤ 67108864 ∧ 67108864 ≤ 67108864 by decide
  · exact show 512 ≤ 1200 ∧ 1200 ≤ 1200 by decide
  · exact show 2 ≤ 256 ∧ 256 ≤ 256 by decide
  · exact show 10 ≤ 50 ∧ 50 ≤ 5000 by decide
  · exact show 1 ≤ 128 ∧ 128 ≤ 4096 by decide
  · exact show 10 ≤ 300 ∧ 300 ≤ 86400 by decide
  · exact List.cons_ne_nil _ _
  · exact show 3 ≤ 67108864 by decide
  · exact show 0 + 3 ≤ 3 by decide

theorem abcLink_ready (retries : Nat) :
    (abcLink retries).Ready abcShared 0 := by
  refine ⟨⟨0, _, rfl, rfl, ⟨rfl, rfl, rfl, rfl, rfl, rfl, rfl, ?_⟩⟩, ?_, rfl,
    rfl, nofun⟩
  · exact show 0 < 300000 by decide
  · exact show 0 < 128 by decide

theorem abcLink_arrives {retries : Nat}
    (valid : 1 ≤ retries ∧ retries ≤ 64) :
    ∃ shared, ∀ state : LinkState, state.shared = shared →
      state.instant = 0 → (abcLink retries).Arrived 1 state := by
  have sendable := abcLink_sendable valid
  have now : 0 ≤ (⟨0, 0, {}⟩ : Moment).instant := Nat.le_refl _
  have fresh : (abcLink retries).Fresh abcShared 0 :=
    .inl (abcLink_ready retries)
  obtain ⟨shared, session, _, receiving, empty⟩ :=
    fresh.start sendable now (fresh.timely {}) rfl
  have none_ : session.receivedSet = { sequence | sequence < 0 } := by
    rw [empty]
    ext sequence
    simp
  have inside : 0 + 1 ≤ (abcLink retries).packetCount := by
    change 0 + 1 ≤ Slice.divCeil 3 1200
    decide
  obtain ⟨shared', session', _, _, receiving', received, _⟩ :=
    receiving.run sendable now Nat.one_pos inside none_
  refine ⟨shared', ?_⟩
  intro state same instant
  refine ⟨session', ?_, received⟩
  rw [same, instant]
  exact receiving'

/-- The only window is acknowledged, and copies of its acknowledgement are
left. -/
def abcLeft (shared : Shared) (copies : Nat) : LinkState where
  phase := .awaitAcks ⟨256, [true], 0, 1, 0⟩
  shared := shared
  inbound := List.replicate copies ((abcWrite.dataPacket {} 0).response .ack
    (bitmapPayload 0 [true] 256))

theorem abcLeft_acks (shared : Shared) (copies : Nat) :
    ∀ packet ∈ (abcLeft shared copies).inbound, packet.kind = .ack := by
  intro packet member
  rw [List.eq_of_mem_replicate member]
  rfl

theorem leftover_acks_iff_abc :
    ∃ shared, (abcLink 1).Arrived 1 (abcLeft shared 1) ∧
      Inevitable (abcLink 1).step ((abcLink 1).Permits true 0) Succeeded
        (abcLeft shared 1) := by
  obtain ⟨shared, arrives⟩ := @abcLink_arrives 1 (by decide)
  have arrived := arrives (abcLeft shared 1) rfl rfl
  refine ⟨shared, arrived, ?_⟩
  refine (leftover_acks_iff (abcLink_sendable (by decide)) rfl rfl rfl arrived
    rfl (abcLeft_acks shared 1)).mpr ⟨?_, ?_⟩
  · exact show 0 < 1 by decide
  · exact show 1 ≤ 1 by decide

/-- Two acknowledgements that are left use up both attempts of FIN. -/
theorem leftover_acks_exhaust_fin :
    (abcLink 1).config.validate = .ok () ∧
      ∃ shared, (abcLink 1).Arrived 1 (abcLeft shared 2) ∧
        ¬Inevitable (abcLink 1).step ((abcLink 1).Permits true 0) Succeeded
          (abcLeft shared 2) := by
  obtain ⟨shared, arrives⟩ := @abcLink_arrives 1 (by decide)
  refine ⟨by decide, shared, arrives _ rfl rfl, ?_⟩
  refine closing_fails rfl rfl rfl (abcLeft_acks shared 2) (.inr ?_)
  exact show 1 < 2 by decide

end Link

end TrainPool
