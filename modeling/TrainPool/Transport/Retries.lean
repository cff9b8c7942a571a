import TrainPool.Library.Execution
import TrainPool.Transport.Reader

namespace TrainPool

open Execution

/-! How often a handshake sends its datagram.  The retry counter advances on
timeouts; a batch without an answer sends it again without counting. -/

/-- A batch in which the wait for an answer of one of the kinds ends: it has
such a datagram of the transfer, or one that does not decode. -/
def Settles (transferId : Uuid) (kinds : List Kind)
    (datagrams : List Datagram) : Prop :=
  ∃ datagram ∈ datagrams, ∀ packet ∈ datagram.toOption,
    packet.transferId = transferId ∧ packet.kind ∈ kinds

instance (transferId : Uuid) (kinds : List Kind)
    (datagrams : List Datagram) :
    Decidable (Settles transferId kinds datagrams) :=
  inferInstanceAs (Decidable (∃ datagram ∈ datagrams,
    ∀ packet ∈ datagram.toOption, _))

def countKind (kind : Kind) (packets : List Packet) : Nat :=
  packets.countP (·.kind = kind)

@[simp] theorem countKind_append (kind : Kind) (front back : List Packet) :
    countKind kind (front ++ back) =
      countKind kind front + countKind kind back :=
  List.countP_append

theorem countKind_eq_zero {kind : Kind} {packets : List Packet}
    (other : ∀ packet ∈ packets, packet.kind ≠ kind) :
    countKind kind packets = 0 := by
  unfold countKind
  rw [List.countP_eq_zero]
  intro packet member same
  exact other packet member (of_decide_eq_true same)

/-! The sender. -/

def Phase.awaitsStart : Phase → Bool
  | .awaitStart _ => true
  | _ => false

namespace SendPayload

variable (config : Config) (blake3 : List UInt8 → Digest)
  (destination : SocketAddr) (request : SendPayload)

def logged (state : Phase × List Packet) (event : SendEvent) :
    Option (Phase × List Packet) :=
  (request.step config blake3 destination state.1 event).map
    fun result => (result.1, state.2 ++ result.2)

/-- What the destination sends during the handshake answers it. -/
def Answered (state : Phase × List Packet) : SendEvent → Prop
  | .receive source datagrams =>
      state.1.awaitsStart → source = destination →
        Settles request.transferId [.startAck, .error] datagrams
  | _ => True

instance (state : Phase × List Packet) :
    (event : SendEvent) → Decidable (request.Answered destination state event)
  | .receive _ _ => inferInstanceAs (Decidable (_ → _ → _))
  | .proceed | .timeout | .refused => isTrue trivial

/-- The STARTs that have been sent. -/
def Opened (state : Phase × List Packet) : Prop :=
  match state.1 with
  | .ready => countKind .start state.2 = 0
  | .handshake retries =>
      retries ≤ config.udpMaxRetries ∧
        countKind .start state.2 ≤ retries
  | .awaitStart retries =>
      retries ≤ config.udpMaxRetries ∧
        countKind .start state.2 ≤ retries + 1
  | _ => countKind .start state.2 ≤ config.udpMaxRetries + 1

variable {config} {blake3} {destination} {request}

theorem readStart_none {datagrams : List Datagram}
    (waiting : request.readStart datagrams = .ok none) :
    ¬Settles request.transferId [.startAck, .error] datagrams := by
  induction datagrams with
  | nil =>
      intro settles
      obtain ⟨datagram, member, _⟩ := settles
      cases member
  | cons datagram rest ih =>
      intro settles
      obtain ⟨found, member, answers⟩ := settles
      cases datagram with
      | error text => cases waiting
      | ok packet =>
          unfold readStart at waiting
          split at waiting
          · cases waiting
          · rename_i noAck
            split at waiting
            · cases waiting
            · rename_i noError
              rcases List.mem_cons.mp member with rfl | member
              · obtain ⟨transfer, kind⟩ := answers packet rfl
                simp only [List.mem_cons, List.not_mem_nil, or_false] at kind
                rcases kind with kind | kind
                · exact noAck ⟨transfer, kind⟩
                · exact noError ⟨transfer, kind⟩
              · exact ih waiting ⟨found, member, answers⟩

theorem opened_past {packets sent : List Packet} {phase : Phase}
    (few : countKind .start packets ≤ config.udpMaxRetries + 1)
    (others : ∀ packet ∈ sent, packet.kind ≠ .start)
    (past : Opened config (phase, packets ++ sent) =
      (countKind .start (packets ++ sent) ≤ config.udpMaxRetries + 1)) :
    Opened config (phase, packets ++ sent) := by
  rw [past, countKind_append, countKind_eq_zero others]
  exact few

theorem Opened.bounded {state : Phase × List Packet}
    (opened : Opened config state) :
    countKind .start state.2 ≤ config.udpMaxRetries + 1 := by
  obtain ⟨phase, packets⟩ := state
  cases phase with
  | ready =>
      have none_ : countKind .start packets = 0 := opened
      simp only
      omega
  | handshake retries =>
      obtain ⟨bounded, few⟩ := opened
      exact few.trans (by omega)
  | awaitStart retries =>
      obtain ⟨bounded, few⟩ := opened
      exact few.trans (by omega)
  | window window => exact opened
  | round window => exact opened
  | awaitAcks window => exact opened
  | fin attempt => exact opened
  | awaitComplete attempt => exact opened
  | returned result => exact opened

theorem opened_step {state next : Phase × List Packet} {event : SendEvent}
    (opened : Opened config state)
    (answered : request.Answered destination state event)
    (stepped : request.logged config blake3 destination state event =
      some next) : Opened config next := by
  have before := opened.bounded
  obtain ⟨phase, packets⟩ := state
  obtain ⟨⟨after, sent⟩, taken, rfl⟩ := Option.map_eq_some_iff.mp stepped
  change request.step config blake3 destination phase event = some _ at taken
  change Opened config (after, packets ++ sent)
  cases step_moves taken with
  | checks checked =>
      have few : countKind .start packets = 0 := opened
      exact ⟨Nat.zero_le _, by simp [few]⟩
  | starts retries =>
      obtain ⟨bounded, few⟩ := opened
      refine ⟨bounded, ?_⟩
      simpa [countKind, startPacket, Packet.forHandle] using few
  | again retries event more =>
      obtain ⟨_, few⟩ := opened
      exact ⟨more, by simpa using few⟩
  | waits retries datagrams read =>
      exact absurd (answered rfl rfl) (readStart_none read)
  | sends window pending =>
      apply opened_past before _ rfl
      intro packet member
      obtain ⟨sequence, _, rfl⟩ := List.mem_map.mp member
      exact nofun
  | ends attempt few =>
      apply opened_past before _ rfl
      intro packet member
      obtain rfl := List.mem_singleton.mp member
      exact nofun
  | fails phase event error =>
      apply opened_past before _ rfl
      intro packet member
      obtain rfl := List.mem_singleton.mp member
      exact nofun
  | _ => exact opened_past before (by simp) rfl

theorem run_opened {events : List SendEvent}
    {state final : Phase × List Packet} (opened : Opened config state)
    (answered : Along (request.logged config blake3 destination)
      (request.Answered destination) state events)
    (ran : run (request.logged config blake3 destination) state events =
      some final) : Opened config final :=
  run_invariant_along (Opened config)
    (fun _ _ _ opened answered stepped => opened_step opened answered stepped)
    opened answered ran

end SendPayload

/-! The reader. -/

def ReadPhase.awaitsStart : ReadPhase → Bool
  | .awaitStart _ => true
  | _ => false

namespace ReadPayload

variable (config : Config) (blake3 : List UInt8 → Digest)
  (request : ReadPayload)

def logged (state : ReadPhase × List Packet) (event : SendEvent) :
    Option (ReadPhase × List Packet) :=
  (request.step config blake3 state.1 event).map
    fun result => (result.1, state.2 ++ result.2)

/-- What arrives before the START answers the request. -/
def Answered (state : ReadPhase × List Packet) : SendEvent → Prop
  | .receive _ datagrams => state.1.awaitsStart →
      Settles request.transferId [.start, .error] datagrams
  | _ => True

instance (state : ReadPhase × List Packet) :
    (event : SendEvent) → Decidable (request.Answered state event)
  | .receive _ _ => inferInstanceAs (Decidable (_ → _))
  | .proceed | .timeout | .refused => isTrue trivial

def Asked (state : ReadPhase × List Packet) : Prop :=
  match state.1 with
  | .ready => countKind .readRequest state.2 = 0
  | .request retries =>
      retries ≤ config.udpMaxRetries ∧
        countKind .readRequest state.2 ≤ retries
  | .awaitStart retries =>
      retries ≤ config.udpMaxRetries ∧
        countKind .readRequest state.2 ≤ retries + 1
  | _ => countKind .readRequest state.2 ≤ config.udpMaxRetries + 1

variable {config} {blake3} {request}

theorem readStart_waiting {datagrams : List Datagram}
    (waiting : request.readStart datagrams = .ok none) :
    ¬Settles request.transferId [.start, .error] datagrams := by
  induction datagrams with
  | nil =>
      intro settles
      obtain ⟨datagram, member, _⟩ := settles
      cases member
  | cons datagram rest ih =>
      intro settles
      obtain ⟨found, member, answers⟩ := settles
      cases datagram with
      | error text => cases waiting
      | ok packet =>
          unfold readStart at waiting
          split at waiting
          · cases waiting
          · rename_i noStart
            split at waiting
            · cases waiting
            · rename_i noError
              rcases List.mem_cons.mp member with rfl | member
              · obtain ⟨transfer, kind⟩ := answers packet rfl
                simp only [List.mem_cons, List.not_mem_nil, or_false] at kind
                rcases kind with kind | kind
                · exact noStart ⟨transfer, kind⟩
                · exact noError ⟨transfer, kind⟩
              · exact ih waiting ⟨found, member, answers⟩

theorem asked_past {packets sent : List Packet} {phase : ReadPhase}
    (few : countKind .readRequest packets ≤ config.udpMaxRetries + 1)
    (others : ∀ packet ∈ sent, packet.kind ≠ .readRequest)
    (past : Asked config (phase, packets ++ sent) =
      (countKind .readRequest (packets ++ sent) ≤
        config.udpMaxRetries + 1)) :
    Asked config (phase, packets ++ sent) := by
  rw [past, countKind_append, countKind_eq_zero others]
  exact few

theorem readBatch_kinds {coalesced : Bool} {datagrams : List Datagram}
    {batch : ReadBatch}
    (before : ∀ packet ∈ batch.sent, packet.kind ≠ .readRequest) :
    (∀ packet ∈ (request.readBatch config blake3 coalesced datagrams
        batch).1, packet.kind ≠ .readRequest) := by
  induction datagrams generalizing batch with
  | nil => exact before
  | cons datagram rest ih =>
      have answers : ∀ kind payload, kind ≠ .readRequest →
          ∀ packet ∈ batch.sent ++ [request.answer kind payload],
            packet.kind ≠ .readRequest := by
        intro kind payload different packet member
        rcases List.mem_append.mp member with member | member
        · exact before packet member
        · obtain rfl := List.mem_singleton.mp member
          exact different
      cases datagram with
      | error text => exact before
      | ok packet =>
          unfold readBatch
          split
          · exact ih before
          · split
            · split
              · rename_i next read
                apply ih
                unfold readData at read
                simp only at read
                split at read
                · cases read
                · split at read
                  · cases read
                  · split at read <;> cases read <;> exact before
              · exact before
            · split
              · split
                · exact before
                · split
                  · exact before
                  · exact answers .complete _ (by simp)
              · exact ih (answers .nack _ (by simp))
            · exact before
            · exact before
            · exact ih before

theorem asked_step {state next : ReadPhase × List Packet} {event : SendEvent}
    (asked : Asked config state) (answered : request.Answered state event)
    (stepped : request.logged config blake3 state event = some next) :
    Asked config next := by
  obtain ⟨phase, packets⟩ := state
  obtain ⟨result, taken, rfl⟩ := Option.map_eq_some_iff.mp stepped
  change request.step config blake3 phase event = some result at taken
  change Asked config (result.1, packets ++ result.2)
  unfold step at taken
  split at taken
  · have few : countKind .readRequest packets = 0 := asked
    split at taken <;> cases taken
    · exact ⟨Nat.zero_le _, by simp [few]⟩
    · exact asked_past (by omega) (by simp) rfl
  · cases taken
    obtain ⟨bounded, few⟩ := asked
    refine ⟨bounded, ?_⟩
    simpa [countKind, requestPacket, Packet.forHandle] using few
  · cases taken
    obtain ⟨bounded, few⟩ := asked
    exact asked_past (few.trans (by omega)) (by simp) rfl
  · obtain ⟨bounded, few⟩ := asked
    split at taken <;> cases taken
    · rename_i more
      refine ⟨more, ?_⟩
      simpa using few
    · exact asked_past (few.trans (by omega)) (by simp) rfl
  · -- Datagrams before the START.
    rename_i retries source datagrams
    obtain ⟨bounded, few⟩ := asked
    split at taken
    · cases taken
      exact asked_past (few.trans (by omega)) (by simp) rfl
    · rename_i waiting
      exact absurd (answered rfl) (readStart_waiting waiting)
    · split at taken <;> cases taken
      · exact asked_past (few.trans (by omega)) (by simp) rfl
      · apply asked_past (few.trans (by omega)) _ rfl
        intro packet member
        obtain rfl := List.mem_singleton.mp member
        intro same
        cases same
  · split at taken <;> cases taken
    · exact asked_past asked (by simp) rfl
    · exact asked_past asked (by simp) rfl
  · rename_i session source datagrams
    have kinds := @readBatch_kinds config blake3 request
      (1 < datagrams.length) datagrams ⟨session, [], none⟩ (by simp)
    split at taken
    · split at taken
      · rename_i sent batch read
        cases taken
        rw [read] at kinds
        apply asked_past asked _ rfl
        intro packet member
        rcases List.mem_append.mp member with member | member
        · exact kinds packet member
        · unfold endBatch at member
          split at member
          · cases member
          · obtain rfl := List.mem_singleton.mp member
            intro same
            cases same
      · rename_i sent result read
        cases taken
        rw [read] at kinds
        exact asked_past asked kinds rfl
    · cases taken
      exact asked_past asked (by simp) rfl
  · cases taken
    exact asked_past asked (by simp) rfl
  · cases taken

theorem run_asked {events : List SendEvent}
    {state final : ReadPhase × List Packet} (asked : Asked config state)
    (answered : Along (request.logged config blake3) request.Answered state
      events)
    (ran : run (request.logged config blake3) state events = some final) :
    Asked config final :=
  run_invariant_along (Asked config)
    (fun _ _ _ asked answered stepped => asked_step asked answered stepped)
    asked answered ran

theorem Asked.bounded {state : ReadPhase × List Packet}
    (asked : Asked config state) :
    countKind .readRequest state.2 ≤ config.udpMaxRetries + 1 := by
  obtain ⟨phase, packets⟩ := state
  cases phase with
  | ready =>
      have none_ : countKind .readRequest packets = 0 := asked
      simp only
      omega
  | request retries =>
      obtain ⟨bounded, few⟩ := asked
      exact few.trans (by omega)
  | awaitStart retries =>
      obtain ⟨bounded, few⟩ := asked
      exact few.trans (by omega)
  | awaitData session => exact asked
  | returned result => exact asked

end ReadPayload

/-- In every run in which each batch that arrives during a handshake answers it,
or fails it, a write sends START, and a read its request, at most once more than
it may retry. -/
theorem handshakes_bounded (config : Config) (blake3 : List UInt8 → Digest) :
    (∀ (request : SendPayload) (destination : SocketAddr)
        (events : List SendEvent) (final : Phase × List Packet),
      Along (request.logged config blake3 destination)
        (request.Answered destination) (.ready, []) events →
      run (request.logged config blake3 destination) (.ready, []) events =
        some final →
      countKind .start final.2 ≤ config.udpMaxRetries + 1) ∧
    ∀ (request : ReadPayload) (events : List SendEvent)
        (final : ReadPhase × List Packet),
      Along (request.logged config blake3) request.Answered (.ready, [])
        events →
      run (request.logged config blake3) (.ready, []) events = some final →
      countKind .readRequest final.2 ≤ config.udpMaxRetries + 1 := by
  constructor
  · intro request destination events final answered ran
    have opened : SendPayload.Opened config (.ready, []) := rfl
    exact (SendPayload.run_opened opened answered ran).bounded
  · intro request events final answered ran
    have asked : ReadPayload.Asked config (.ready, []) := rfl
    exact (ReadPayload.run_asked asked answered ran).bounded

def strayPacket : Packet := Packet.forHandle .complete abcHandle 8

def strayHandshake (rounds : Nat) : List SendEvent :=
  .proceed :: (List.replicate rounds
    [.proceed, .receive 2 [.ok strayPacket]]).flatten

def abcRead : ReadPayload where
  handle := abcReady
  transferId := 9
  offset := 0
  length := 3

theorem strayHandshake_exceeds :
    (∃ final, run (abcWrite.logged { udpMaxRetries := 1 } abcHash 2)
        (.ready, []) (strayHandshake 3) = some final ∧
      ¬countKind .start final.2 ≤ 1 + 1) ∧
    ∃ final, run (abcRead.logged { udpMaxRetries := 1 } abcHash)
        (.ready, []) (strayHandshake 3) = some final ∧
      ¬countKind .readRequest final.2 ≤ 1 + 1 :=
  ⟨⟨_, rfl, by decide⟩, _, rfl, by decide⟩

def lateHandshake : List SendEvent :=
  [.proceed, .proceed, .timeout, .proceed,
    .receive 2 [.ok (Packet.forHandle .startAck abcHandle 9)]]

theorem handshakes_bounded_late :
    ∃ final, run (abcWrite.logged { udpMaxRetries := 1 } abcHash 2)
        (.ready, []) lateHandshake = some final ∧
      countKind .start final.2 ≤ 1 + 1 := by
  refine ⟨_, rfl, (handshakes_bounded { udpMaxRetries := 1 } abcHash).1
    abcWrite 2 lateHandshake _ ?_ rfl⟩
  decide

end TrainPool
