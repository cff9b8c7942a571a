import Mathlib.Data.List.Nodup
import TrainPool.Library.Execution
import TrainPool.Transport.Bitmap

namespace TrainPool

open Execution

/-! How often the DATA phase sends a packet before it gives up. -/

structure Transmission where
  phase : Phase := .ready
  emitted : List Packet := []
  deriving DecidableEq

namespace Window

/-- What datagrams can do to a window: packets become acknowledged. -/
structure Grows (window next : Window) : Prop where
  range : next.base = window.base ∧ next.finish = window.finish ∧
    next.round = window.round
  slots : next.acknowledged.length = window.acknowledged.length
  acked : window.acked ⊆ next.acked

theorem Grows.refl (window : Window) : window.Grows window :=
  ⟨⟨rfl, rfl, rfl⟩, rfl, Set.Subset.refl _⟩

theorem Grows.trans {first second third : Window}
    (early : first.Grows second) (late : second.Grows third) :
    first.Grows third := by
  obtain ⟨base, finish, round⟩ := early.range
  obtain ⟨base', finish', round'⟩ := late.range
  exact ⟨⟨base'.trans base, finish'.trans finish, round'.trans round⟩,
    late.slots.trans early.slots, early.acked.trans late.acked⟩

theorem acknowledge_grows (known : Nat → Bool) (ackBase offered : Nat)
    (window : Window) :
    window.Grows ((window.negotiate offered).acknowledge known ackBase) := by
  refine ⟨⟨rfl, rfl, rfl⟩, length_acknowledge _ _ _, ?_⟩
  intro sequence member
  have inside : sequence < window.acknowledged.length := by
    by_contra outside
    exact not_mem_acked (Nat.le_of_not_lt outside) member
  exact (mem_acked_acknowledge (show sequence <
    (window.negotiate offered).acknowledged.length from inside)).mpr
      (.inl member)

theorem readAcks_grows {packetCount : Nat} {transferId : Uuid}
    {datagrams : List Datagram} {window next : Window}
    (read : window.readAcks packetCount transferId datagrams = .ok next) :
    window.Grows next := by
  induction datagrams generalizing window with
  | nil =>
      cases read
      exact .refl _
  | cons datagram rest ih =>
      cases datagram with
      | error text => cases read
      | ok packet =>
          unfold readAcks at read
          split at read
          · exact ih read
          · split at read
            · cases read
            · split at read
              · exact (acknowledge_grows _ _ _ window).trans (ih read)
              · cases read
            · split at read
              · cases read
                exact acknowledge_grows _ _ _ window
              · cases read
            · exact ih read

end Window

namespace SendPayload

variable (config : Config) (blake3 : List UInt8 → Digest)
  (destination : SocketAddr) (request : SendPayload)

def transmit (state : Transmission) (event : SendEvent) :
    Option Transmission := do
  let (phase, packets) ←
    request.step config blake3 destination state.phase event
  some ⟨phase, state.emitted ++ packets⟩

def exhausted : Phase :=
  .returned (.error (.message
    "TRAINPOOL_TRANSFER_TIMEOUT: bounded UDP retry exhausted"))

/-- A step that gives up leaves a packet of the window that was sent and sent
again as often as permitted, and a step that leaves none goes on to the next
window or to FIN. -/
structure Honest (before after : Transmission) : Prop where
  exhausted : after.phase = exhausted → ∃ window sequence,
    before.phase = .awaitAcks window ∧ window.base ≤ sequence ∧
      sequence < window.finish ∧ sequence ∉ window.acked ∧
      before.emitted.count (request.dataPacket config sequence) =
        1 + config.udpMaxRetries
  moves : ∀ window, before.phase = .awaitAcks window →
    window.pending = false → ∃ final,
      run (request.transmit config blake3 destination) after
          [.proceed, .proceed] = some final ∧
        (window.finish < request.packetCount config ∧
            (∃ next, final.phase = .round next ∧
              next.base = window.finish) ∨
          request.packetCount config ≤ window.finish ∧
            final.phase = .fin 0)

/-- The acknowledgements of a window are complete before its last permitted
retransmission. -/
def OnTime (state : Transmission) (event : SendEvent) : Prop :=
  ∀ window, state.phase = .awaitAcks window → window.pending = false →
    event = .proceed ∨ event = .timeout → window.round < config.udpMaxRetries

/-- Every packet of the window that is not acknowledged was sent so many times,
and no packet after the window was sent. -/
structure Counts (window : Window) (times : Nat) (emitted : List Packet) :
    Prop where
  slots : window.acknowledged.length = request.packetCount config
  inside : window.finish ≤ request.packetCount config
  few : window.round ≤ config.udpMaxRetries
  within : ∀ sequence, window.base ≤ sequence → sequence < window.finish →
    sequence ∉ window.acked →
      emitted.count (request.dataPacket config sequence) = times
  beyond : ∀ sequence, window.finish ≤ sequence → sequence ∉ window.acked →
    emitted.count (request.dataPacket config sequence) = 0

def Tallies (state : Transmission) : Prop :=
  match state.phase with
  | .ready | .handshake _ | .awaitStart _ =>
      ∀ sequence,
        state.emitted.count (request.dataPacket config sequence) = 0
  | .window window =>
      window.acknowledged.length = request.packetCount config ∧
        ∀ sequence, window.base ≤ sequence → sequence ∉ window.acked →
          state.emitted.count (request.dataPacket config sequence) = 0
  | .round window => request.Counts config window window.round state.emitted
  | .awaitAcks window =>
      request.Counts config window (window.round + 1) state.emitted
  | _ => True

section Tallies

variable {config : Config} {blake3 : List UInt8 → Digest}
  {destination : SocketAddr} {request : SendPayload}
  {state next : Transmission} {event : SendEvent} {window : Window}
  {emitted : List Packet}

theorem transmit_eq_some :
    request.transmit config blake3 destination state event = some next ↔
      ∃ phase packets, request.step config blake3 destination state.phase
          event = some (phase, packets) ∧
        next = ⟨phase, state.emitted ++ packets⟩ := by
  unfold transmit
  constructor
  · intro sent
    obtain ⟨⟨phase, packets⟩, stepped, sent⟩ :=
      Option.bind_eq_some_iff.mp sent
    cases sent
    exact ⟨phase, packets, stepped, rfl⟩
  · intro sent
    obtain ⟨phase, packets, stepped, rfl⟩ := sent
    simp [stepped]

theorem dataPacket_injective :
    Function.Injective (request.dataPacket config) := by
  intro first second same
  exact congrArg Packet.sequenceId same

theorem count_round {sequence : Nat} (after : window.base ≤ sequence)
    (before : sequence < window.finish) (missing : sequence ∉ window.acked) :
    (window.unacknowledged.map (request.dataPacket config)).count
      (request.dataPacket config sequence) = 1 := by
  have distinct : window.unacknowledged.Nodup :=
    (List.nodup_range.sublist (List.drop_sublist _ _)).filter _
  refine List.count_eq_one_of_mem (distinct.map dataPacket_injective) ?_
  exact List.mem_map_of_mem
    (Window.mem_unacknowledged.mpr ⟨after, before, missing⟩)

theorem count_round_beyond {sequence : Nat}
    (after : window.finish ≤ sequence) :
    (window.unacknowledged.map (request.dataPacket config)).count
      (request.dataPacket config sequence) = 0 := by
  rw [List.count_eq_zero]
  intro member
  obtain ⟨other, among, same⟩ := List.mem_map.mp member
  obtain rfl := dataPacket_injective same
  have := (Window.mem_unacknowledged.mp among).2.1
  omega

theorem Counts.grows {later : Window} {times : Nat}
    (counts : request.Counts config window times emitted)
    (grows : window.Grows later) :
    request.Counts config later times emitted := by
  obtain ⟨base, finish, round⟩ := grows.range
  refine ⟨grows.slots.trans counts.slots, ?_, ?_, ?_, ?_⟩
  · rw [finish]
    exact counts.inside
  · rw [round]
    exact counts.few
  · rw [base, finish]
    intro sequence after before missing
    exact counts.within sequence after before
      fun known => missing (grows.acked known)
  · rw [finish]
    intro sequence after missing
    exact counts.beyond sequence after fun known => missing (grows.acked known)

theorem Counts.sends {times : Nat}
    (counts : request.Counts config window times emitted) :
    request.Counts config window (times + 1) (emitted ++
      window.unacknowledged.map (request.dataPacket config)) := by
  refine ⟨counts.slots, counts.inside, counts.few, ?_, ?_⟩
  · intro sequence after before missing
    rw [List.count_append, count_round after before missing,
      counts.within sequence after before missing]
  · intro sequence after missing
    rw [List.count_append, count_round_beyond after,
      counts.beyond sequence after missing]

theorem endRound_cases (config : Config) (request : SendPayload)
    (window : Window) :
    (window.round < config.udpMaxRetries ∧
      ∃ negotiated, request.endRound config window =
        (.round { window with
          round := window.round + 1
          negotiated := negotiated }, [])) ∨
    config.udpMaxRetries ≤ window.round ∧
      request.endRound config window = (exhausted, [request.abortPacket]) := by
  unfold endRound
  dsimp only
  split
  · exact .inl ⟨by omega, _, rfl⟩
  · exact .inr ⟨by omega, rfl⟩

/-- The tally after a step that sends no DATA packet and does not leave the
phases before the windows. -/
theorem count_append_other {packets : List Packet} (sequence : Nat)
    (others : ∀ packet ∈ packets, packet.kind ≠ .data) :
    (emitted ++ packets).count (request.dataPacket config sequence) =
      emitted.count (request.dataPacket config sequence) := by
  have none_ : packets.count (request.dataPacket config sequence) = 0 :=
    List.count_eq_zero.mpr fun member => others _ member rfl
  rw [List.count_append, none_, Nat.add_zero]

theorem Tallies.step (tallies : request.Tallies config state)
    (stepped : request.transmit config blake3 destination state event =
      some next) : request.Tallies config next := by
  obtain ⟨phase, packets, moved, rfl⟩ := transmit_eq_some.mp stepped
  obtain ⟨before, emitted⟩ := state
  cases step_moves moved with
  | starts retries =>
      intro sequence
      rw [count_append_other]
      · exact tallies sequence
      · intro packet member
        rw [List.mem_singleton.mp member]
        exact nofun
  | checks checked => simpa [Tallies] using tallies
  | again retries event few => simpa [Tallies] using tallies
  | waits retries datagrams read => simpa [Tallies] using tallies
  | opens retries datagrams receiverWindow read =>
      refine ⟨List.length_replicate, ?_⟩
      intro sequence _ _
      rw [List.append_nil]
      exact tallies sequence
  | sizes window more =>
      obtain ⟨slots, unsent⟩ := tallies
      rw [List.append_nil]
      refine ⟨slots, Nat.min_le_right _ _, Nat.zero_le _, ?_, ?_⟩
      · exact fun sequence after _ => unsent sequence after
      · intro sequence after
        refine unsent sequence ?_
        simp only at after
        omega
  | sends window pending =>
      have counts : request.Counts config window window.round emitted :=
        tallies
      exact counts.sends
  | passes window shut =>
      have counts : request.Counts config window window.round emitted :=
        tallies
      rw [List.append_nil]
      exact ⟨counts.slots, counts.beyond⟩
  | repeats window event negotiated few =>
      have counts : request.Counts config window (window.round + 1) emitted :=
        tallies
      rw [List.append_nil]
      exact ⟨counts.slots, counts.inside, few, counts.within, counts.beyond⟩
  | acknowledges window later datagrams read =>
      have counts : request.Counts config window (window.round + 1) emitted :=
        tallies
      have grows := Window.readAcks_grows read
      rw [List.append_nil]
      have grown := counts.grows grows
      rw [← grows.range.2.2] at grown
      exact grown
  | strays window event =>
      rw [List.append_nil]
      exact tallies
  | _ => trivial

/-! Which steps give up. -/

def Other (error : SendError) : Prop :=
  error ≠ .message "TRAINPOOL_TRANSFER_TIMEOUT: bounded UDP retry exhausted"

instance (error : SendError) : Decidable (Other error) :=
  inferInstanceAs (Decidable (_ ≠ _))

theorem fail_ne_exhausted {error : SendError} {packets : List Packet}
    (other : Other error) : request.fail error ≠ (exhausted, packets) := by
  intro same
  have phases := congrArg Prod.fst same
  simp only [fail, exhausted, Phase.returned.injEq, Except.error.injEq]
    at phases
  exact other phases

theorem check_other {error : SendError}
    (failed : request.check config = .error error) : Other error := by
  unfold check at failed
  split at failed
  · cases failed
    decide
  · split at failed
    · cases failed
      decide
    · split at failed
      · cases failed
        decide
      · cases failed

theorem readStart_other {datagrams : List Datagram}
    {error : SendError}
    (failed : request.readStart datagrams = .error error) : Other error := by
  induction datagrams with
  | nil => cases failed
  | cons datagram rest ih =>
      cases datagram with
      | error text =>
          cases failed
          exact nofun
      | ok packet =>
          unfold readStart at failed
          split at failed
          · cases failed
          · split at failed
            · cases failed
              exact fun same => by cases same
            · exact ih failed

theorem readComplete_other {datagrams : List Datagram}
    {error : SendError}
    (failed : request.readComplete datagrams = .error error) :
    Other error := by
  induction datagrams with
  | nil => cases failed
  | cons datagram rest ih =>
      cases datagram with
      | error text =>
          cases failed
          exact nofun
      | ok packet =>
          unfold readComplete at failed
          split at failed
          · cases failed
          · split at failed
            · cases failed
              exact fun same => by cases same
            · exact ih failed

theorem readAcks_other {packetCount : Nat} {transferId : Uuid}
    {datagrams : List Datagram} {error : SendError}
    (failed : window.readAcks packetCount transferId datagrams =
      .error error) : Other error := by
  induction datagrams generalizing window with
  | nil => cases failed
  | cons datagram rest ih =>
      cases datagram with
      | error text =>
          cases failed
          exact nofun
      | ok packet =>
          unfold Window.readAcks at failed
          split at failed
          · exact ih failed
          · split at failed
            · cases failed
              exact nofun
            · split at failed
              · exact ih failed
              · cases failed
                decide
            · split at failed
              · cases failed
              · cases failed
                decide
            · exact ih failed

theorem retryStart_ne_exhausted {retries : Nat} {packets : List Packet} :
    step.retryStart config request retries ≠ (exhausted, packets) := by
  unfold step.retryStart
  split
  · exact nofun
  · exact fail_ne_exhausted (by decide)

theorem step_exhausted {phase : Phase} {packets : List Packet}
    (stepped : request.step config blake3 destination phase event =
      some (exhausted, packets)) :
    ∃ window, phase = .awaitAcks window ∧
      (event = .proceed ∧ window.pending = false ∨ event = .timeout) ∧
      config.udpMaxRetries ≤ window.round := by
  have round : ∀ {window},
      request.endRound config window = (exhausted, packets) →
        config.udpMaxRetries ≤ window.round := by
    intro window ends
    rcases endRound_cases config request window with
      ⟨_, negotiated, more⟩ | ⟨reached, _⟩
    · cases more.symm.trans ends
    · exact reached
  have some_ : ∀ {result : Phase × List Packet},
      some result = some (exhausted, packets) →
        result = (exhausted, packets) := Option.some.inj
  unfold step at stepped
  split at stepped
  · split at stepped
    · cases stepped
    · rename_i failed
      exact absurd (some_ stepped) (fail_ne_exhausted (check_other failed))
  · cases stepped
  · exact absurd (some_ stepped) (fail_ne_exhausted (by decide))
  · exact absurd (some_ stepped) retryStart_ne_exhausted
  · split at stepped
    · split at stepped
      · rename_i failed
        exact absurd (some_ stepped)
          (fail_ne_exhausted (readStart_other failed))
      · cases stepped
      · cases stepped
    · exact absurd (some_ stepped) retryStart_ne_exhausted
  · split at stepped
    · cases stepped
    · cases stepped
  · split at stepped
    · dsimp only at stepped
      split at stepped
      · cases stepped
      · exact absurd (some_ stepped) (fail_ne_exhausted (by decide))
    · cases stepped
  · exact absurd (some_ stepped) (fail_ne_exhausted (by decide))
  · rename_i window
    split at stepped
    · cases stepped
    · rename_i shut
      exact ⟨window, rfl, .inl ⟨rfl, by simpa using shut⟩,
        round (some_ stepped)⟩
  · rename_i window
    exact ⟨window, rfl, .inr rfl, round (some_ stepped)⟩
  · split at stepped
    · split at stepped
      · split at stepped
        · rename_i failed
          exact absurd (some_ stepped)
            (fail_ne_exhausted (readAcks_other failed))
        · cases stepped
      · cases stepped
    · cases stepped
  · split at stepped
    · cases stepped
    · exact absurd (some_ stepped) (fail_ne_exhausted (by decide))
  · exact absurd (some_ stepped) (fail_ne_exhausted (by decide))
  · cases stepped
  · split at stepped
    · split at stepped
      · rename_i failed
        exact absurd (some_ stepped)
          (fail_ne_exhausted (readComplete_other failed))
      · cases stepped
      · cases stepped
    · cases stepped
  · cases stepped

theorem leaves_window (shut : window.pending = false)
    (emitted : List Packet) :
    ∃ final, run (request.transmit config blake3 destination)
        ⟨.round window, emitted⟩ [.proceed, .proceed] = some final ∧
      (window.finish < request.packetCount config ∧
          (∃ next, final.phase = .round next ∧
            next.base = window.finish) ∨
        request.packetCount config ≤ window.finish ∧
          final.phase = .fin 0) := by
  have first : request.transmit config blake3 destination
      ⟨.round window, emitted⟩ .proceed =
        some ⟨.window { window with base := window.finish }, emitted⟩ := by
    refine transmit_eq_some.mpr ⟨_, [], ?_, by rw [List.append_nil]⟩
    simp only [SendPayload.step]
    rw [if_neg (by simp [shut])]
  by_cases more : window.finish < request.packetCount config
  · refine ⟨_, run_cons.mpr ⟨_, first, run_cons.mpr ⟨_, transmit_eq_some.mpr
      ⟨_, [], if_pos more, rfl⟩, rfl⟩⟩, .inl ⟨more, _, rfl, rfl⟩⟩
  · refine ⟨_, run_cons.mpr ⟨_, first, run_cons.mpr ⟨_, transmit_eq_some.mpr
      ⟨_, [], if_neg more, rfl⟩, rfl⟩⟩, .inr ⟨by omega, rfl⟩⟩

theorem moves_on (shut : window.pending = false)
    (early : window.round < config.udpMaxRetries)
    {phase : Phase} {packets : List Packet}
    (ends : request.endRound config window = (phase, packets))
    (emitted : List Packet) :
    ∃ final, run (request.transmit config blake3 destination)
        ⟨phase, emitted ++ packets⟩ [.proceed, .proceed] = some final ∧
      (window.finish < request.packetCount config ∧
          (∃ next, final.phase = .round next ∧
            next.base = window.finish) ∨
        request.packetCount config ≤ window.finish ∧
          final.phase = .fin 0) := by
  rcases endRound_cases config request window with
    ⟨_, negotiated, more⟩ | ⟨reached, _⟩
  · cases more.symm.trans ends
    have shut' : ({ window with
        round := window.round + 1
        negotiated := negotiated } : Window).pending = false := shut
    exact leaves_window shut' _
  · omega

theorem honest_iff (tallies : request.Tallies config state) :
    (∀ next, request.transmit config blake3 destination state event =
        some next → request.Honest config blake3 destination state next) ↔
      OnTime config state event := by
  constructor
  · intro honest window phase shut moves
    by_contra late
    have fails : request.endRound config window =
        (exhausted, [request.abortPacket]) := by
      rcases endRound_cases config request window with
        ⟨early, _⟩ | ⟨_, fails⟩
      · exact absurd early late
      · exact fails
    have stepped : request.transmit config blake3 destination state event =
        some ⟨exhausted, state.emitted ++ [request.abortPacket]⟩ := by
      refine transmit_eq_some.mpr ⟨_, _, ?_, rfl⟩
      rw [phase, ← fails]
      rcases moves with rfl | rfl
      · simp only [SendPayload.step]
        rw [if_neg (by simp [shut])]
      · rfl
    obtain ⟨final, continues, _⟩ :=
      (honest _ stepped).moves window phase shut
    obtain ⟨_, first, _⟩ := run_cons.mp continues
    obtain ⟨_, _, moved, _⟩ := transmit_eq_some.mp first
    cases moved
  · intro onTime next stepped
    obtain ⟨phase, packets, moved, rfl⟩ := transmit_eq_some.mp stepped
    refine ⟨?_, ?_⟩
    · intro gave
      change phase = exhausted at gave
      subst gave
      obtain ⟨window, waits, cause, reached⟩ := step_exhausted moved
      have counts : request.Counts config window (window.round + 1)
          state.emitted := by
        have tallied := tallies
        unfold Tallies at tallied
        rw [waits] at tallied
        exact tallied
      have last : window.round = config.udpMaxRetries :=
        Nat.le_antisymm counts.few reached
      have pending : window.pending = true := by
        by_contra acknowledged
        have shut := Bool.eq_false_iff.mpr acknowledged
        have := onTime window waits shut
          (cause.imp (fun proceeds => proceeds.1) id)
        omega
      obtain ⟨sequence, after, before, missing⟩ :=
        (Window.pending_iff (by
          rw [counts.slots]
          exact counts.inside)).mp pending
      refine ⟨window, sequence, waits, after, before, missing, ?_⟩
      rw [counts.within sequence after before missing, last, Nat.add_comm]
    · intro window waits shut
      rw [waits] at moved
      cases event with
      | proceed =>
          simp only [SendPayload.step] at moved
          rw [if_neg (by simp [shut])] at moved
          exact moves_on shut (onTime window waits shut (.inl rfl))
            (Option.some.inj moved) state.emitted
      | timeout =>
          exact moves_on shut (onTime window waits shut (.inr rfl))
            (Option.some.inj moved) state.emitted
      | refused => cases moved
      | receive source datagrams =>
          simp only [SendPayload.step] at moved
          rw [if_neg (by simp [shut])] at moved
          cases moved

/-- Every step of a run of the sender is honest exactly when no window of it
becomes acknowledged only after its last permitted retransmission. -/
theorem honest_iff_on_time (config : Config) (blake3 : List UInt8 → Digest)
    (destination : SocketAddr) (request : SendPayload)
    (events : List SendEvent) :
    Along (request.transmit config blake3 destination)
        (fun state event => ∀ next,
          request.transmit config blake3 destination state event =
            some next →
          request.Honest config blake3 destination state next) {} events ↔
      Along (request.transmit config blake3 destination) (OnTime config) {}
        events := by
  refine Along.congr (request.Tallies config) ?_ ?_ ?_
  · exact fun _ _ _ tallies stepped => tallies.step stepped
  · exact fun _ _ tallies => honest_iff tallies
  · exact fun _ => List.count_nil

end Tallies

/-- The only packet of a write is lost, and sent again as the configuration
permits. -/
def abcLate : List SendEvent :=
  [.proceed, .proceed,
    .receive 50 [.ok ((abcWrite.startPacket {} abcHash).response .startAck
      (Bytes.toBigEndian 2 256))],
    .proceed, .proceed, .timeout, .proceed,
    .receive 50 [.ok ((abcWrite.dataPacket {} 0).response .ack
      (bitmapPayload 0 [true] 256))]]

/-- The write gives up with its window acknowledged. -/
theorem acknowledged_window_exhausted :
    let config : Config := { udpMaxRetries := 1 }
    config.validate = .ok () ∧
      ∃ state next window,
        run (abcWrite.transmit config abcHash 50) {} abcLate = some state ∧
          state.phase = .awaitAcks window ∧ window.pending = false ∧
          abcWrite.transmit config abcHash 50 state .proceed = some next ∧
          next.phase = exhausted ∧
          ¬abcWrite.Honest config abcHash 50 state next := by
  let config : Config := { udpMaxRetries := 1 }
  let window : Window := ⟨256, [true], 0, 1, 1⟩
  have arrives : ((run (abcWrite.transmit config abcHash 50) {} abcLate).map
      (·.phase)) = some (.awaitAcks window) := by
    decide +kernel
  obtain ⟨state, ran, phase⟩ := Option.map_eq_some_iff.mp arrives
  have shut : window.pending = false := rfl
  have fails : abcWrite.transmit config abcHash 50 state .proceed =
      some ⟨exhausted, state.emitted ++ [abcWrite.abortPacket]⟩ := by
    refine transmit_eq_some.mpr ⟨_, _, ?_, rfl⟩
    rw [phase]
    rfl
  refine ⟨by decide, state, _, window, ran, phase, shut, fails, rfl, ?_⟩
  intro honest
  obtain ⟨final, continues, _⟩ := honest.moves window phase shut
  cases continues

end SendPayload

end TrainPool
