import TrainPool.Runtime.ReadRange
import TrainPool.Transport.Reports

namespace TrainPool

open Execution Slice

/-! What the sender of a read response knows to be received, the reader has
received. -/

namespace ReadSession

structure Grows (before after : ReadSession) : Prop where
  source : after.source = before.source
  start : after.start = before.start
  slots : after.received.length = before.received.length
  received : ∀ sequence, before.isReceived sequence = true →
    after.isReceived sequence = true

variable {config : Config} {session : ReadSession} {packet : Packet}

theorem Grows.refl (session : ReadSession) : session.Grows session :=
  ⟨rfl, rfl, rfl, fun _ received => received⟩

theorem Grows.trans {first second third : ReadSession}
    (early : first.Grows second) (late : second.Grows third) :
    first.Grows third :=
  ⟨late.source.trans early.source, late.start.trans early.start,
    late.slots.trans early.slots, fun sequence received =>
      late.received sequence (early.received sequence received)⟩

theorem grows_store : session.Grows (session.store config packet) := by
  refine ⟨rfl, rfl, List.length_set, ?_⟩
  intro sequence received
  unfold isReceived at received ⊢
  simp only [store]
  by_cases same : packet.sequenceId = sequence
  · have inside : sequence < session.received.length := by
      by_contra outside
      rw [List.getD_eq_getElem?_getD,
        List.getElem?_eq_none (Nat.le_of_not_lt outside)] at received
      cases received
    subst same
    simp [List.getD_eq_getElem?_getD, inside]
  · rwa [List.getD_eq_getElem?_getD, List.getElem?_set_ne same,
      ← List.getD_eq_getElem?_getD]

def Backs (session : ReadSession) (packet : Packet) : Prop :=
  ∀ sequence ∈ packet.vouches, sequence < session.packetCount →
    session.isReceived sequence = true

theorem Backs.grows {later : ReadSession} (backs : session.Backs packet)
    (grows : session.Grows later) : later.Backs packet := by
  intro sequence vouched inside
  have count : later.packetCount = session.packetCount :=
    congrArg Packet.sequenceId grows.start
  exact grows.received sequence (backs sequence vouched (count ▸ inside))

theorem backs_other (notAck : packet.kind ≠ .ack)
    (notNack : packet.kind ≠ .nack) : session.Backs packet :=
  fun _ vouched _ => absurd vouched (Packet.vouches_other notAck notNack)

theorem backs_ack {request : ReadPayload} {sequence window : ℕ}
    (small : sequence < 2 ^ 32) :
    session.Backs (request.answer .ack
      (session.ackPayload sequence window)) := by
  intro other vouched _
  rcases vouched with ⟨_, member⟩ | ⟨nack, _⟩
  · obtain ⟨after, bit⟩ := Packet.mem_report_bits
      (Nat.lt_of_le_of_lt (Nat.div_mul_le_self sequence ackBits) small)
      rfl member
    have inside := (List.getElem?_eq_some_iff.mp bit).1
    rw [List.length_map, List.length_range] at inside
    rw [List.getElem?_map, List.getElem?_range inside] at bit
    simpa [Nat.add_sub_of_le after] using bit
  · cases nack

theorem backs_nack {request : ReadPayload} {window : ℕ}
    (slots : session.received.length = session.packetCount) :
    session.Backs (request.answer .nack (session.nackPayload window)) := by
  intro other vouched inside
  rcases vouched with ⟨ack, _⟩ | ⟨_, member⟩
  · cases ack
  · obtain ⟨_, _, clear⟩ := Packet.mem_cleared_bits
      (show 0 < 2 ^ 32 by decide) rfl member
    rw [← slots] at inside
    rw [Nat.sub_zero, List.getElem?_map,
      List.getElem?_eq_getElem inside] at clear
    unfold isReceived
    rw [List.getD_eq_getElem?_getD, List.getElem?_eq_getElem inside]
    simpa using clear

end ReadSession

namespace ReadPayload

variable {config : Config} {blake3 : List UInt8 → Digest}
  {request : ReadPayload}

def storeData (config : Config) (packet : Packet) (session : ReadSession) :
    Option ReadSession :=
  (readData config false packet ⟨session, [], none⟩).toOption.map (·.session)

/-- What a session has stored when a batch ends, also when it ends the read. -/
def collect (config : Config) :
    List Datagram → ReadSession → ReadSession
  | .ok packet :: rest, session =>
      if packet.transferId ≠ session.start.transferId then
        collect config rest session
      else
        match packet.kind with
        | .data =>
            match storeData config packet session with
            | some next => collect config rest next
            | none => session
        | .fin =>
            if session.receivedCount = session.packetCount then session
            else collect config rest session
        | .abort | .error => session
        | _ => collect config rest session
  | _, session => session

theorem storeData_eq (coalesced : Bool) (packet : Packet)
    (batch : ReadBatch) :
    storeData config packet batch.session =
      (readData config coalesced packet batch).toOption.map (·.session) := by
  simp only [storeData, readData]
  split
  · rfl
  · split
    · rfl
    · split <;> rfl

structure Batched (batch : ReadBatch) : Prop where
  slots : batch.session.received.length = batch.session.packetCount
  sent : ∀ packet ∈ batch.sent, batch.session.Backs packet
  sequence : ∀ sequence ∈ batch.ackSequence,
    sequence < batch.session.packetCount

theorem readData_batched {coalesced : Bool} {packet : Packet}
    {batch next : ReadBatch} (batched : Batched batch)
    (read : readData config coalesced packet batch = .ok next) :
    Batched next ∧ batch.session.Grows next.session := by
  obtain ⟨slots, sent, sequence⟩ := batched
  simp only [readData] at read
  split at read
  · cases read
  rename_i inside
  have inside := not_not.mp inside
  split at read
  · cases read
  split at read
  · cases read
    refine ⟨⟨slots, sent, ?_⟩, .refl _⟩
    intro other same
    cases same
    exact inside
  · cases read
    have grows := @ReadSession.grows_store config batch.session packet
    refine ⟨⟨grows.slots.trans slots, ?_, ?_⟩, grows⟩
    · intro other member
      exact (sent other member).grows grows
    · intro other same
      simp only at same
      split at same
      · cases same
        exact inside
      · exact sequence other same

theorem readBatch_batched {coalesced : Bool}
    {datagrams : List Datagram} {batch : ReadBatch}
    {sent : List Packet}
    {result : Except (Except SendError (List UInt8)) ReadBatch}
    (batched : Batched batch)
    (read : request.readBatch config blake3 coalesced datagrams batch =
      (sent, result)) :
    let final := collect config datagrams batch.session
    batch.session.Grows final ∧ (∀ packet ∈ sent, final.Backs packet) ∧
      ∀ next, result = .ok next → next.session = final ∧ Batched next := by
  induction datagrams generalizing batch with
  | nil =>
      cases read
      refine ⟨.refl _, batched.sent, ?_⟩
      intro next same
      cases same
      exact ⟨rfl, batched⟩
  | cons datagram rest ih =>
      have stopped : ∀ {error}, result = .error error →
          ∀ next, result = .ok next →
            next.session = batch.session ∧ Batched next := by
        intro error failed next same
        rw [failed] at same
        cases same
      cases datagram with
      | error text =>
          cases read
          exact ⟨.refl _, batched.sent, stopped rfl⟩
      | ok packet =>
          simp only [readBatch] at read
          simp only [collect]
          split at read
          · rename_i other
            rw [if_pos other]
            exact ih batched read
          rename_i own
          rw [if_neg own]
          cases kind : packet.kind with
          | data =>
              simp only [kind, storeData_eq coalesced packet batch] at read ⊢
              cases stored : readData config coalesced packet batch with
              | error error =>
                  rw [stored] at read
                  cases read
                  exact ⟨.refl _, batched.sent, stopped rfl⟩
              | ok next =>
                  rw [stored] at read
                  obtain ⟨later, grows⟩ := readData_batched batched stored
                  obtain ⟨grown, backs, ends⟩ := ih later read
                  exact ⟨grows.trans grown, backs, ends⟩
          | fin =>
              simp only [kind] at read ⊢
              split at read
              · rename_i complete
                rw [if_pos complete]
                split at read
                · cases read
                  exact ⟨.refl _, batched.sent, stopped rfl⟩
                split at read
                · cases read
                  exact ⟨.refl _, batched.sent, stopped rfl⟩
                · cases read
                  refine ⟨.refl _, ?_, stopped rfl⟩
                  intro answer member
                  rcases List.mem_append.mp member with old | new
                  · exact batched.sent answer old
                  · obtain rfl := List.mem_singleton.mp new
                    exact ReadSession.backs_other (by intro; contradiction)
                      (by intro; contradiction)
              · rename_i missing
                rw [if_neg missing]
                have asked : Batched { batch with
                    sent := batch.sent ++ [request.answer .nack
                      (batch.session.nackPayload
                        config.udpWindowPackets)] } := by
                  refine ⟨batched.slots, ?_, batched.sequence⟩
                  intro answer member
                  rcases List.mem_append.mp member with old | new
                  · exact batched.sent answer old
                  · obtain rfl := List.mem_singleton.mp new
                    exact ReadSession.backs_nack batched.slots
                have later := ih asked read
                exact later
          | abort | error =>
              simp only [kind] at read ⊢
              cases read
              exact ⟨.refl _, batched.sent, stopped rfl⟩
          | _ =>
              simp only [kind] at read ⊢
              exact ih batched read

theorem endBatch_backs {batch : ReadBatch} (batched : Batched batch)
    (small : batch.session.packetCount < 2 ^ 32) :
    ∀ packet ∈ request.endBatch config batch, batch.session.Backs packet := by
  intro packet member
  unfold endBatch at member
  split at member
  · cases member
  · rename_i sequence found
    obtain rfl := List.mem_singleton.mp member
    exact ReadSession.backs_ack
      (Nat.lt_trans (batched.sequence sequence found) small)

end ReadPayload

/-- The setting of a read: the task of a daemon that sends the response from a
socket of its own, and the reader.  `early` are datagrams of earlier chunks
that are still on their way between the two sockets. -/
structure Response where
  request : SendPayload
  sender : Config
  address : SocketAddr
  reading : ReadPayload
  reader : Config
  destination : SocketAddr
  server : SocketAddr
  early : List Packet
  blake3 : List UInt8 → Digest
  transfer : request.transferId = reading.transferId

/-- Both sides of a read.  `session` remembers what the reader has stored, also
when its session has ended. -/
structure ResponseState where
  phase : Phase := .ready
  emitted : List Packet := []
  reader : ReadPhase := .ready
  answered : List (SocketAddr × Packet) := []
  session : Option ReadSession := none
  deriving DecidableEq

inductive ResponseEvent where
  | sender (event : SendEvent)
  | reader (event : SendEvent)
  deriving DecidableEq

namespace ReadPhase

def peer (server : SocketAddr) : ReadPhase → SendEvent → SocketAddr
  | .awaitData session, _ => session.source
  | _, .receive source _ => source
  | _, _ => server

def remembers (config : Config) (session : Option ReadSession) :
    ReadPhase → SendEvent → ReadPhase → Option ReadSession
  | _, _, .awaitData next => some next
  | .awaitData current, .receive source datagrams, _ =>
      if source = current.source then
        some (ReadPayload.collect config datagrams current)
      else
        session
  | _, _, _ => session

end ReadPhase

namespace ReadPayload

variable {config : Config} {blake3 : List UInt8 → Digest}
  {request : ReadPayload}

inductive Moves (config : Config) (request : ReadPayload)
    (phase : ReadPhase) (event : SendEvent) :
    ReadPhase → List Packet → Prop
  | quiet (after : ReadPhase) (packets : List Packet)
      (before : ∀ session, phase ≠ .awaitData session)
      (unreturned : ∀ result, phase ≠ .returned result)
      (unopened : ∀ session, after ≠ .awaitData session)
      (kinds : ∀ packet ∈ packets, packet.kind = .readRequest) :
      Moves config request phase event after packets
  | opens (source : SocketAddr) (datagrams : List Datagram)
      (start : Packet) (session : ReadSession)
      (before : ∀ session, phase ≠ .awaitData session)
      (unreturned : ∀ result, phase ≠ .returned result)
      (received : event = .receive source datagrams)
      (read : request.readStart datagrams = .ok (some start))
      (opened : openSession config source start = .ok session) :
      Moves config request phase event (.awaitData session)
        [request.startAck config]
  | serves (session next : ReadSession) (after : ReadPhase)
      (packets : List Packet) (before : phase = .awaitData session)
      (grows : session.Grows next)
      (backs : next.packetCount < 2 ^ 32 →
        ∀ packet ∈ packets, next.Backs packet)
      (remembers : phase.remembers config (some session) event after =
        some next)
      (ends : after = .awaitData next ∨ ∃ result, after = .returned result) :
      Moves config request phase event after packets

theorem step_moves {phase after : ReadPhase} {event : SendEvent}
    {packets : List Packet}
    (sized : ∀ session, phase = .awaitData session →
      session.received.length = session.packetCount)
    (stepped : request.step config blake3 phase event =
      some (after, packets)) :
    Moves config request phase event after packets := by
  cases phase with
  | ready =>
      cases event with
      | proceed =>
          simp only [step] at stepped
          split at stepped
          · cases stepped
            exact .quiet _ _ (by simp) (by simp) (by simp) (by simp)
          · cases stepped
            exact .quiet _ _ (by simp) (by simp) (by simp) (by simp)
      | _ => cases stepped
  | request retries =>
      cases event with
      | proceed =>
          cases stepped
          refine .quiet _ _ (by simp) (by simp) (by simp) ?_
          intro packet member
          obtain rfl := List.mem_singleton.mp member
          rfl
      | refused =>
          cases stepped
          exact .quiet _ _ (by simp) (by simp) (by simp) (by simp)
      | _ => cases stepped
  | awaitStart retries =>
      cases event with
      | timeout =>
          simp only [step] at stepped
          split at stepped
          · cases stepped
            exact .quiet _ _ (by simp) (by simp) (by simp) (by simp)
          · cases stepped
            exact .quiet _ _ (by simp) (by simp) (by simp) (by simp)
      | receive source datagrams =>
          simp only [step] at stepped
          split at stepped
          · cases stepped
            exact .quiet _ _ (by simp) (by simp) (by simp) (by simp)
          · cases stepped
            exact .quiet _ _ (by simp) (by simp) (by simp) (by simp)
          · rename_i start read
            split at stepped
            · cases stepped
              exact .quiet _ _ (by simp) (by simp) (by simp) (by simp)
            · rename_i session opened
              cases stepped
              exact .opens source datagrams start session (by simp) (by simp)
                rfl read opened
      | _ => cases stepped
  | returned result => cases event <;> cases stepped
  | awaitData session =>
      have slots := sized session rfl
      cases event with
      | proceed => cases stepped
      | refused =>
          cases stepped
          exact .serves session session _ _ rfl (.refl session) (by simp) rfl
            (.inr ⟨_, rfl⟩)
      | timeout =>
          simp only [step] at stepped
          split at stepped
          · cases stepped
            exact .serves session
              { session with retries := session.retries + 1 } _ _ rfl
              ⟨rfl, rfl, rfl, fun _ received => received⟩ (by simp) rfl
              (.inl rfl)
          · cases stepped
            exact .serves session session _ _ rfl (.refl session) (by simp)
              rfl (.inr ⟨_, rfl⟩)
      | receive source datagrams =>
          simp only [step] at stepped
          split at stepped
          · rename_i same
            have batched : Batched ⟨session, [], none⟩ :=
              ⟨slots, by simp, by simp⟩
            split at stepped
            · rename_i sent batch read
              cases stepped
              obtain ⟨grows, backs, ends⟩ := readBatch_batched batched read
              obtain ⟨final, later⟩ := ends batch rfl
              rw [← final] at grows backs
              refine .serves session batch.session _ _ rfl grows ?_ rfl
                (.inl rfl)
              intro small packet member
              rcases List.mem_append.mp member with old | new
              · exact backs packet old
              · exact endBatch_backs later small packet new
            · rename_i sent result read
              cases stepped
              obtain ⟨grows, backs, _⟩ := readBatch_batched batched read
              refine .serves session _ _ _ rfl grows (fun _ => backs) ?_
                (.inr ⟨_, rfl⟩)
              simp [ReadPhase.remembers, same]
          · cases stepped
            exact .serves session session _ _ rfl (.refl session) (by simp)
              rfl (.inl rfl)

end ReadPayload

namespace Response

variable (response : Response)

def Foreign (packet : Packet) : Prop :=
  packet.transferId ≠ response.request.transferId ∨
    packet.kind ∉ [.start, .data, .fin, .abort]

/-- None of the datagrams that are still on their way is of this transfer. -/
def Unused : Prop :=
  ∀ packet ∈ response.early,
    packet.transferId ≠ response.request.transferId

/-- What the network can bring to the sender: from the socket of the reader,
something that the reader has sent to it, or something of another transfer or
of an earlier chunk. -/
def Returns (state : ResponseState) : SendEvent → Prop
  | .receive source datagrams => source = response.destination →
      ∀ packet ∈ validPackets datagrams,
        (response.address, packet) ∈ state.answered ∨
          packet.transferId ≠ response.request.transferId ∨
          packet ∈ response.early
  | _ => True

/-- What the network can bring to the reader: from the address of the sender,
something that it has sent, something foreign or something of an earlier
chunk; from other addresses, anything. -/
def Arrives (state : ResponseState) : SendEvent → Prop
  | .receive source datagrams => source = response.address →
      ∀ packet ∈ validPackets datagrams,
        packet ∈ state.emitted ∨ response.Foreign packet ∨
          packet ∈ response.early
  | _ => True

instance (packet : Packet) : Decidable (response.Foreign packet) :=
  inferInstanceAs (Decidable (_ ∨ _))

instance (state : ResponseState) :
    (event : SendEvent) → Decidable (response.Returns state event)
  | .receive _ datagrams => inferInstanceAs
      (Decidable (_ → ∀ packet ∈ validPackets datagrams, _ ∨ _ ∨ _))
  | .proceed | .timeout | .refused => isTrue trivial

instance (state : ResponseState) :
    (event : SendEvent) → Decidable (response.Arrives state event)
  | .receive _ datagrams => inferInstanceAs
      (Decidable (_ → ∀ packet ∈ validPackets datagrams, _ ∨ _ ∨ _))
  | .proceed | .timeout | .refused => isTrue trivial

def step (state : ResponseState) : ResponseEvent → Option ResponseState
  | .sender event =>
      if response.Returns state event then do
        let (phase, packets) ← response.request.step response.sender
          response.blake3 response.destination state.phase event
        some { state with phase, emitted := state.emitted ++ packets }
      else
        none
  | .reader event =>
      if response.Arrives state event then do
        let (reader, packets) ← response.reading.step response.reader
          response.blake3 state.reader event
        some { state with
          reader
          answered := state.answered ++ packets.map
            (state.reader.peer response.server event, ·)
          session := state.reader.remembers response.reader state.session
            event reader }
      else
        none

def packetCount : ℕ := response.request.packetCount response.sender

def stored (state : ResponseState) : Set ℕ :=
  { sequence | ∃ session ∈ state.session,
      session.source = response.address ∧
        session.isReceived sequence = true }

structure Serves (session : ReadSession) : Prop where
  start : session.start =
    response.request.startPacket response.sender response.blake3
  slots : session.received.length = response.packetCount
  small : response.packetCount < 2 ^ 32

structure Reported (state : ResponseState) : Prop where
  emitted : ∀ packet ∈ state.emitted,
    response.request.Sends response.sender response.blake3 packet
  waiting : ∀ session, state.reader = .awaitData session →
    state.session = some session
  unopened : (∀ session, state.reader ≠ .awaitData session) →
    (∀ result, state.reader ≠ .returned result) → state.session = none
  sized : ∀ session ∈ state.session,
    session.received.length = session.packetCount
  serves : ∀ session ∈ state.session, session.source = response.address →
    response.Serves session
  answered : ∀ packet, (response.address, packet) ∈ state.answered →
    packet.transferId = response.request.transferId →
      ∀ sequence ∈ packet.vouches, sequence < response.packetCount →
        sequence ∈ response.stored state
  backed : state.phase.Backed response.packetCount (response.stored state)
  begun : state.phase.Begun response.packetCount
  finished : ∀ packet ∈ state.emitted, packet.kind = .fin →
    ∀ sequence < response.packetCount, sequence ∈ response.stored state

section Steps

variable {response} {state next : ResponseState} {event : ResponseEvent}

theorem Serves.count {session : ReadSession}
    (serves : response.Serves session) :
    session.packetCount = response.packetCount := by
  rw [ReadSession.packetCount, serves.start]
  rfl

theorem Serves.grows {session later : ReadSession}
    (serves : response.Serves session) (grows : session.Grows later) :
    response.Serves later :=
  ⟨grows.start.trans serves.start, grows.slots.trans serves.slots,
    serves.small⟩

theorem openSession_spec {config : Config} {source : SocketAddr}
    {start : Packet} {session : ReadSession}
    (opened : ReadPayload.openSession config source start = .ok session) :
    start.announced ≤ config.chunkBytes ∧ session.source = source ∧
      session.start = start ∧
      session.received = List.replicate start.sequenceId false := by
  simp only [ReadPayload.openSession] at opened
  split at opened
  · cases opened
  split at opened
  · rename_i admitted
    cases opened
    exact ⟨admitted.2, rfl, rfl, rfl⟩
  · cases opened

theorem packetCount_small (valid : response.reader.Valid)
    (positive : 0 < response.sender.udpPayloadBytes)
    (admitted : (response.request.startPacket response.sender
      response.blake3).announced ≤ response.reader.chunkBytes) :
    response.packetCount < 2 ^ 32 := by
  rw [SendPayload.announced_startPacket] at admitted
  have limit := valid.chunk.2
  have count : response.packetCount ≤ response.request.payload.length :=
    divCeil_le positive _
  omega

theorem step_cases (stepped : response.step state event = some next) :
    (∃ sent phase packets, response.Returns state sent ∧
        response.request.step response.sender response.blake3
          response.destination state.phase sent = some (phase, packets) ∧
        next = { state with
          phase := phase, emitted := state.emitted ++ packets }) ∨
      ∃ taken reader packets, response.Arrives state taken ∧
        response.reading.step response.reader response.blake3 state.reader
          taken = some (reader, packets) ∧
        next = { state with
          reader := reader
          answered := state.answered ++ packets.map
            (state.reader.peer response.server taken, ·)
          session := state.reader.remembers response.reader state.session
            taken reader } := by
  cases event with
  | sender sent =>
      simp only [step] at stepped
      split at stepped
      · rename_i returns
        obtain ⟨⟨phase, packets⟩, sentStep, done⟩ :=
          Option.bind_eq_some_iff.mp stepped
        cases done
        exact .inl ⟨sent, phase, packets, returns, sentStep, rfl⟩
      · cases stepped
  | reader taken =>
      simp only [step] at stepped
      split at stepped
      · rename_i arrives
        obtain ⟨⟨reader, packets⟩, readerStep, done⟩ :=
          Option.bind_eq_some_iff.mp stepped
        cases done
        exact .inr ⟨taken, reader, packets, arrives, readerStep, rfl⟩
      · cases stepped

theorem Reported.sends (reported : response.Reported state)
    (positive : 0 < response.sender.udpPayloadBytes)
    (unused : response.Unused) {sent : SendEvent}
    {phase : Phase} {packets : List Packet}
    (returns : response.Returns state sent)
    (stepped : response.request.step response.sender response.blake3
      response.destination state.phase sent = some (phase, packets)) :
    response.Reported { state with
      phase := phase, emitted := state.emitted ++ packets } := by
  obtain ⟨emitted, waiting, unopened, sized, serves, answered, backed, begun,
    finished⟩ := reported
  refine ⟨?_, waiting, unopened, sized, serves, answered, ?_,
    SendPayload.step_begun positive begun stepped, ?_⟩
  · intro packet member
    rcases List.mem_append.mp member with old | new
    · exact emitted packet old
    · exact SendPayload.step_sends stepped packet new
  · refine SendPayload.step_backed backed ?_ stepped
    rintro datagrams rfl packet listed transfer
    rcases returns rfl packet (mem_validPackets.mpr listed) with
      sent | other | early
    · exact answered packet sent transfer
    · exact absurd transfer other
    · exact absurd transfer (unused packet early)
  · intro packet member fin
    rcases List.mem_append.mp member with old | new
    · exact finished packet old fin
    · obtain ⟨attempt, phase⟩ := SendPayload.step_fin stepped new fin
      rw [phase] at backed
      exact backed

theorem Reported.answers (reported : response.Reported state)
    {reader : ReadPhase} {packets : List Packet} {peer : SocketAddr}
    {session : Option ReadSession}
    (grown : response.stored state ⊆
      response.stored { state with session := session })
    (waiting : ∀ found, reader = .awaitData found → session = some found)
    (unopened : (∀ found, reader ≠ .awaitData found) →
      (∀ result, reader ≠ .returned result) → session = none)
    (sized : ∀ found ∈ session, found.received.length = found.packetCount)
    (serves : ∀ found ∈ session, found.source = response.address →
      response.Serves found)
    (backs : peer = response.address → ∀ packet ∈ packets,
      ∀ sequence ∈ packet.vouches, sequence < response.packetCount →
        sequence ∈ response.stored { state with session := session }) :
    response.Reported { state with
      reader := reader
      answered := state.answered ++ packets.map (peer, ·)
      session := session } := by
  refine ⟨reported.emitted, waiting, unopened, sized, serves, ?_,
    reported.backed.mono grown, reported.begun, ?_⟩
  · intro packet member transfer sequence vouched inside
    rcases List.mem_append.mp member with old | new
    · exact grown (reported.answered packet old transfer sequence vouched
        inside)
    · obtain ⟨answer, listed, same⟩ := List.mem_map.mp new
      cases same
      exact backs rfl packet listed sequence vouched inside
  · intro packet member fin sequence inside
    exact grown (reported.finished packet member fin sequence inside)

theorem Reported.start (reported : response.Reported state)
    (unused : response.Unused) {datagrams : List Datagram} {start : Packet}
    (arrives : response.Arrives state
      (.receive response.address datagrams))
    (read : response.reading.readStart datagrams = .ok (some start)) :
    start =
      response.request.startPacket response.sender response.blake3 := by
  have found := ReadPayload.readStart_some read
  have listed := List.mem_of_find?_eq_some found
  have own : response.reading.IsStart start := by
    simpa using List.find?_some found
  have transfer := own.1.trans response.transfer.symm
  rcases arrives rfl start listed with sent | (other | kind) | early
  · exact (reported.emitted start sent).eq_startPacket own.2
  · exact absurd transfer other
  · simp [own.2] at kind
  · exact absurd transfer (unused start early)

theorem step_reported (valid : response.reader.Valid)
    (positive : 0 < response.sender.udpPayloadBytes)
    (unused : response.Unused) (reported : response.Reported state)
    (stepped : response.step state event = some next) :
    response.Reported next := by
  rcases step_cases stepped with ⟨_, _, _, returns, sent, rfl⟩ |
      ⟨taken, reader, packets, arrives, read, rfl⟩
  · exact reported.sends positive unused returns sent
  have sized : ∀ session, state.reader = .awaitData session →
      session.received.length = session.packetCount :=
    fun session found =>
      reported.sized session (reported.waiting session found)
  have moves := ReadPayload.step_moves sized read
  cases moves with
  | quiet _ _ before unreturned unopened kinds =>
      have same : state.reader.remembers response.reader state.session taken
          reader = state.session := by
        unfold ReadPhase.remembers
        split
        · exact absurd rfl (unopened _)
        · exact absurd ‹_› (before _)
        · rfl
      rw [same]
      refine reported.answers (Set.Subset.refl _) ?_ ?_ reported.sized
        reported.serves ?_
      · intro found awaits
        exact absurd awaits (unopened found)
      · intro _ _
        exact reported.unopened before unreturned
      · intro _ packet member sequence vouched
        have kind := kinds packet member
        exact absurd vouched (Packet.vouches_other (by simp [kind])
          (by simp [kind]))
  | opens source datagrams start session before unreturned received found
      opened =>
      have none := reported.unopened before unreturned
      obtain ⟨admitted, origin, announced, slots⟩ := openSession_spec opened
      have length : session.received.length = start.sequenceId := by
        rw [slots, List.length_replicate]
      refine reported.answers ?_ ?_ ?_ ?_ ?_ ?_
      · intro sequence given
        obtain ⟨other, stored, _⟩ := given
        rw [none] at stored
        cases stored
      · intro found awaits
        cases awaits
        rfl
      · intro unopened _
        exact absurd rfl (unopened session)
      · intro found same
        cases same
        rw [ReadSession.packetCount, announced]
        exact length
      · intro found same peer
        cases same
        subst origin
        subst received
        rw [peer] at arrives
        obtain rfl := reported.start unused arrives found
        exact ⟨announced, length,
          packetCount_small valid positive admitted⟩
      · intro _ packet member sequence vouched
        obtain rfl := List.mem_singleton.mp member
        exact absurd vouched (Packet.vouches_other (by intro; contradiction)
          (by intro; contradiction))
  | serves session next _ _ before grows backs remembers ends =>
      have stored := reported.waiting session before
      have served := reported.serves session stored
      rw [stored, remembers, before]
      refine reported.answers ?_ ?_ ?_ ?_ ?_ ?_
      · intro sequence given
        obtain ⟨other, same, peer, received⟩ := given
        cases stored.symm.trans same
        exact ⟨next, rfl, grows.source.trans peer,
          grows.received sequence received⟩
      · intro found awaits
        rcases ends with waits | ⟨result, returned⟩
        · cases waits.symm.trans awaits
          rfl
        · cases returned.symm.trans awaits
      · intro unopened unreturned
        rcases ends with waits | ⟨result, returned⟩
        · exact absurd waits (unopened next)
        · exact absurd returned (unreturned result)
      · intro found same
        cases same
        rw [grows.slots, ReadSession.packetCount, grows.start]
        exact sized session before
      · intro found same peer
        cases same
        exact (served (grows.source.symm.trans peer)).grows grows
      · intro peer packet member sequence vouched inside
        have serves := (served peer).grows grows
        refine ⟨next, rfl, grows.source.trans peer, ?_⟩
        rw [← serves.count] at inside
        exact backs (serves.count ▸ serves.small) packet member sequence
          vouched inside

end Steps

theorem start_reported : response.Reported {} where
  emitted := by
    intro packet member
    cases member
  waiting := by
    intro session waits
    cases waits
  unopened := fun _ _ => rfl
  sized := by
    intro session stored
    cases stored
  serves := by
    intro session stored
    cases stored
  answered := by
    intro packet member
    cases member
  backed := trivial
  begun := trivial
  finished := by
    intro packet member
    cases member

end Response

end TrainPool
