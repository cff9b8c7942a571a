import TrainPool.Transport.Retries

namespace TrainPool

open Execution

/-! Datagrams that do not decode, put into the run of a transfer. -/

/-- A datagram of a batch: one of the run itself, or one that was put in. -/
inductive Arrival where
  | genuine (datagram : Datagram)
  | inserted (text : String)
  deriving DecidableEq

namespace Arrival

def delivered : Arrival → Datagram
  | genuine datagram => datagram
  | inserted text => .error text

def original : Arrival → Option Datagram
  | genuine datagram => some datagram
  | inserted _ => none

end Arrival

/-- An event of a run that somebody interferes with: an event of its own, a
further batch of datagrams that do not decode, or a batch of its own into which
some were put, the first of them behind `front`.  The texts are the messages of
the failures. -/
inductive NoisyEvent where
  | genuine (event : SendEvent)
  | extra (source : SocketAddr) (text : String) (more : List String)
  | mixed (source : SocketAddr) (front : List Datagram) (text : String)
      (back : List Arrival)
  deriving DecidableEq

namespace NoisyEvent

def delivered : NoisyEvent → SendEvent
  | genuine event => event
  | extra source text more => .receive source ((text :: more).map .error)
  | mixed source front text back =>
      .receive source (front ++ .error text :: back.map Arrival.delivered)

def original : NoisyEvent → Option SendEvent
  | genuine event => some event
  | extra _ _ _ => none
  | mixed source front _ back =>
      some (.receive source (front ++ back.filterMap Arrival.original))

end NoisyEvent

@[simp] theorem settles_error (transferId : Uuid) (kinds : List Kind)
    (text : String) (rest : List Datagram) :
    Settles transferId kinds (.error text :: rest) :=
  ⟨.error text, List.mem_cons_self, by simp [Except.toOption]⟩

@[simp] theorem settles_cons (transferId : Uuid) (kinds : List Kind)
    (packet : Packet) (rest : List Datagram) :
    Settles transferId kinds (.ok packet :: rest) ↔
      (packet.transferId = transferId ∧ packet.kind ∈ kinds) ∨
        Settles transferId kinds rest := by
  simp [Settles, Except.toOption]

@[simp] theorem not_settles_nil (transferId : Uuid) (kinds : List Kind) :
    ¬Settles transferId kinds [] := by
  simp [Settles]

/-! The sender. -/

def Phase.awaitsAcks : Phase → Bool
  | .awaitAcks current => current.pending
  | _ => false

namespace SendPayload

variable (config : Config) (blake3 : List UInt8 → Digest)
  (destination : SocketAddr) (request : SendPayload)

def AcksEnd (transferId : Uuid) (datagrams : List Datagram) : Prop :=
  ∃ datagram ∈ datagrams, ∀ packet ∈ datagram.toOption,
    packet.transferId = transferId ∧
      (packet.kind = .error ∨ packet.kind = .nack ∨
        packet.kind = .ack ∧ (parseBitmap packet.payload).isOk = false)

instance (transferId : Uuid) (datagrams : List Datagram) :
    Decidable (AcksEnd transferId datagrams) :=
  inferInstanceAs (Decidable (∃ datagram ∈ datagrams,
    ∀ packet ∈ datagram.toOption, _))

def Ended : Phase → List Datagram → Prop
  | .awaitStart _, front => Settles request.transferId [.startAck, .error] front
  | .awaitAcks _, front => AcksEnd request.transferId front
  | .awaitComplete _, front =>
      Settles request.transferId [.complete, .error] front
  | _, _ => False

instance (front : List Datagram) :
    (phase : Phase) → Decidable (request.Ended phase front)
  | .awaitStart _ => inferInstanceAs (Decidable (Settles _ _ _))
  | .awaitAcks _ => inferInstanceAs (Decidable (AcksEnd _ _))
  | .awaitComplete _ => inferInstanceAs (Decidable (Settles _ _ _))
  | .ready | .handshake _ | .window _ | .round _ | .fin _ | .returned _ =>
      inferInstanceAs (Decidable False)

/-- No datagram that was put in is read: it comes from elsewhere, as a batch
only where such batches cost nothing, or it stands behind the end of a wait. -/
def Unread (phase : Phase) : NoisyEvent → Prop
  | .genuine _ => True
  | .extra source _ _ => phase.awaitsAcks = true ∧ source ≠ destination
  | .mixed source front _ _ => source ≠ destination ∨ request.Ended phase front

instance (phase : Phase) :
    (event : NoisyEvent) → Decidable (request.Unread destination phase event)
  | .genuine _ => isTrue trivial
  | .extra _ _ _ => inferInstanceAs (Decidable (_ ∧ _))
  | .mixed _ _ _ _ => inferInstanceAs (Decidable (_ ∨ _))

def move (phase : Phase) (event : SendEvent) : Option Phase :=
  (request.step config blake3 destination phase event).map Prod.fst

variable {config} {blake3} {destination} {request}

theorem readStart_append {front : List Datagram}
    (settled : Settles request.transferId [.startAck, .error] front)
    (back : List Datagram) :
    request.readStart (front ++ back) = request.readStart front := by
  induction front with
  | nil => simp at settled
  | cons datagram rest ih =>
      cases datagram with
      | error text => rfl
      | ok packet =>
          simp only [List.cons_append, readStart]
          split
          · rfl
          · rename_i noAck
            split
            · rfl
            · rename_i noError
              apply ih
              simp only [settles_cons, List.mem_cons, List.not_mem_nil,
                or_false] at settled
              tauto

theorem readComplete_append {front : List Datagram}
    (settled : Settles request.transferId [.complete, .error] front)
    (back : List Datagram) :
    request.readComplete (front ++ back) = request.readComplete front := by
  induction front with
  | nil => simp at settled
  | cons datagram rest ih =>
      cases datagram with
      | error text => rfl
      | ok packet =>
          simp only [List.cons_append, readComplete]
          split
          · rfl
          · rename_i noComplete
            split
            · rfl
            · rename_i noError
              apply ih
              simp only [settles_cons, List.mem_cons, List.not_mem_nil,
                or_false] at settled
              tauto

theorem readAcks_append {transferId : Uuid} {count : Nat}
    {front : List Datagram} (ends : AcksEnd transferId front)
    (back : List Datagram) (window : Window) :
    window.readAcks count transferId (front ++ back) =
      window.readAcks count transferId front := by
  induction front generalizing window with
  | nil => simp [AcksEnd] at ends
  | cons datagram rest ih =>
      cases datagram with
      | error text => rfl
      | ok packet =>
          -- Either the packet ends the wait, or one of the rest does.
          have later : ¬(packet.transferId = transferId ∧
              (packet.kind = .error ∨ packet.kind = .nack ∨
                packet.kind = .ack ∧
                  (parseBitmap packet.payload).isOk = false)) →
              AcksEnd transferId rest := by
            intro other
            obtain ⟨found, member, reads⟩ := ends
            rcases List.mem_cons.mp member with rfl | member
            · exact absurd (reads packet rfl) other
            · exact ⟨found, member, reads⟩
          simp only [List.cons_append, Window.readAcks]
          split
          · rename_i foreign
            exact ih (later fun ended => foreign ended.1) window
          · split
            · rfl
            · rename_i isAck
              split
              · rename_i parsed
                apply ih
                apply later
                intro ended
                simp [isAck, parsed, Except.isOk, Except.toBool] at ended
              · rfl
            · split <;> rfl
            · rename_i noError noAck noNack
              apply ih
              apply later
              intro ended
              rcases ended.2 with same | same | same
              · exact noError same
              · exact noNack same
              · exact noAck same.1

theorem move_unread {phase : Phase} {event : NoisyEvent}
    (unread : request.Unread destination phase event) :
    (∀ genuine, event.original = some genuine →
      request.move config blake3 destination phase event.delivered =
        request.move config blake3 destination phase genuine) ∧
      (event.original = none →
        request.move config blake3 destination phase event.delivered =
          some phase) := by
  cases event with
  | genuine event =>
      constructor
      · intro genuine same
        cases same
        rfl
      · intro absurd
        cases absurd
  | extra source text more =>
      constructor
      · intro genuine same
        cases same
      · intro _
        cases phase with
        | awaitAcks window =>
            have pending : window.pending = true := unread.1
            simp [move, step, NoisyEvent.delivered, pending, unread.2]
        | _ => cases unread.1
  | mixed source front text back =>
      constructor
      · intro genuine same
        cases same
        cases phase with
        | awaitStart retries =>
            rcases unread with elsewhere | settled
            · simp [move, step, NoisyEvent.delivered, elsewhere]
            · simp only [move, step, NoisyEvent.delivered,
                readStart_append settled]
        | awaitAcks window =>
            rcases unread with elsewhere | ends
            · simp [move, step, NoisyEvent.delivered, elsewhere]
            · simp only [move, step, NoisyEvent.delivered,
                readAcks_append ends]
        | awaitComplete attempt =>
            rcases unread with elsewhere | settled
            · simp [move, step, NoisyEvent.delivered, elsewhere]
            · simp only [move, step, NoisyEvent.delivered,
                readComplete_append settled]
        | _ => rfl
      · intro absurd
        cases absurd

end SendPayload

/-! The reader. -/

/-- Behind these datagrams `receive_payload` reads no further: one does not
decode, aborts the transfer or lies outside it, or FIN finds all stored. -/
def ReadSession.ends (config : Config) :
    ReadSession → List Datagram → Bool
  | _, [] => false
  | _, .error _ :: _ => true
  | session, .ok packet :: rest =>
      if packet.transferId ≠ session.start.transferId then
        session.ends config rest
      else
        match packet.kind with
        | .data =>
            if ¬packet.sequenceId < session.packetCount then
              true
            else if ¬packet.sequenceId * config.udpPayloadBytes +
                packet.payload.length ≤ session.buffer.length then
              true
            else if session.isReceived packet.sequenceId then
              session.ends config rest
            else
              (session.store config packet).ends config rest
        | .fin =>
            if session.receivedCount = session.packetCount then
              true
            else
              session.ends config rest
        | .abort | .error => true
        | _ => session.ends config rest

namespace ReadPayload

variable (config : Config) (blake3 : List UInt8 → Digest)
  (request : ReadPayload)

def Passes : ReadPhase → SocketAddr → Prop
  | .awaitData session, source => source ≠ session.source
  | _, _ => False

instance (source : SocketAddr) :
    (phase : ReadPhase) → Decidable (Passes phase source)
  | .awaitData session => inferInstanceAs (Decidable (source ≠ session.source))
  | .ready | .request _ | .awaitStart _ | .returned _ =>
      inferInstanceAs (Decidable False)

def Ended : ReadPhase → List Datagram → Prop
  | .awaitStart _, front => Settles request.transferId [.start, .error] front
  | .awaitData session, front => session.ends config front = true
  | _, _ => False

instance (front : List Datagram) :
    (phase : ReadPhase) → Decidable (request.Ended config phase front)
  | .awaitStart _ => inferInstanceAs (Decidable (Settles _ _ _))
  | .awaitData session =>
      inferInstanceAs (Decidable (session.ends config front = true))
  | .ready | .request _ | .returned _ => inferInstanceAs (Decidable False)

/-- No datagram that was put in is read. -/
def Unread (phase : ReadPhase) : NoisyEvent → Prop
  | .genuine _ => True
  | .extra source _ _ => Passes phase source
  | .mixed source front _ _ =>
      Passes phase source ∨ request.Ended config phase front

instance (phase : ReadPhase) :
    (event : NoisyEvent) → Decidable (request.Unread config phase event)
  | .genuine _ => isTrue trivial
  | .extra source _ _ => inferInstanceAs (Decidable (Passes phase source))
  | .mixed _ _ _ _ => inferInstanceAs (Decidable (_ ∨ _))

def move (phase : ReadPhase) (event : SendEvent) : Option ReadPhase :=
  (request.step config blake3 phase event).map Prod.fst

variable {config} {blake3} {request}

theorem readStart_append {front : List Datagram}
    (settled : Settles request.transferId [.start, .error] front)
    (back : List Datagram) :
    request.readStart (front ++ back) = request.readStart front := by
  induction front with
  | nil => simp at settled
  | cons datagram rest ih =>
      cases datagram with
      | error text => rfl
      | ok packet =>
          simp only [List.cons_append, readStart]
          split
          · rfl
          · rename_i noStart
            split
            · rfl
            · rename_i noError
              apply ih
              simp only [settles_cons, List.mem_cons, List.not_mem_nil,
                or_false] at settled
              tauto

theorem readData_fits {packet : Packet} {batch : ReadBatch}
    (inside : packet.sequenceId < batch.session.packetCount)
    (fits : packet.sequenceId * config.udpPayloadBytes +
      packet.payload.length ≤ batch.session.buffer.length)
    (coalesced : Bool) :
    ∃ next, readData config coalesced packet batch = .ok next ∧
      next.session = if batch.session.isReceived packet.sequenceId then
        batch.session else batch.session.store config packet := by
  unfold readData
  simp only [inside, fits, not_true_eq_false, if_false]
  split
  · exact ⟨_, rfl, rfl⟩
  · exact ⟨_, rfl, rfl⟩

/-- Where the reader stops reading, neither what follows nor how the datagrams
were batched matters. -/
theorem readBatch_append {front : List Datagram}
    {batch other : ReadBatch} (ends : batch.session.ends config front = true)
    (same : other.session = batch.session) (coalesced apart : Bool)
    (back : List Datagram) :
    ∃ result,
      (request.readBatch config blake3 coalesced (front ++ back) batch).2 =
        .error result ∧
      (request.readBatch config blake3 apart front other).2 =
        .error result := by
  induction front generalizing batch other with
  | nil => cases ends
  | cons datagram rest ih =>
      cases datagram with
      | error text => exact ⟨_, rfl, rfl⟩
      | ok packet =>
          simp only [List.cons_append, readBatch, same]
          simp only [ReadSession.ends] at ends
          split at ends
          · rename_i foreign
            rw [if_pos foreign, if_pos foreign]
            exact ih ends same
          · rename_i own
            rw [if_neg own, if_neg own]
            cases kind : packet.kind with
            | data =>
                simp only [kind] at ends
                by_cases inside :
                    packet.sequenceId < batch.session.packetCount
                · by_cases fits : packet.sequenceId * config.udpPayloadBytes +
                      packet.payload.length ≤ batch.session.buffer.length
                  · rw [if_neg (not_not.mpr inside),
                      if_neg (not_not.mpr fits)] at ends
                    obtain ⟨next, read, kept⟩ :=
                      readData_fits inside fits coalesced
                    rw [← same] at inside fits
                    obtain ⟨next', read', kept'⟩ :=
                      readData_fits inside fits apart
                    simp only [read, read']
                    apply ih
                    · rw [kept]
                      split at ends
                      · rename_i stored
                        rw [if_pos stored]
                        exact ends
                      · rename_i fresh
                        rw [if_neg fresh]
                        exact ends
                    · rw [kept, kept', same]
                  · have inside' := inside
                    have fits' := fits
                    rw [← same] at inside' fits'
                    simp only [readData, inside, fits, inside', fits',
                      not_true_eq_false, not_false_eq_true, if_true, if_false]
                    exact ⟨_, rfl, rfl⟩
                · have inside' := inside
                  rw [← same] at inside'
                  simp only [readData, inside, inside', not_false_eq_true,
                    if_true]
                  exact ⟨_, rfl, rfl⟩
            | fin =>
                simp only [kind] at ends
                by_cases whole :
                    batch.session.receivedCount = batch.session.packetCount
                · simp only [if_pos whole]
                  by_cases changed :
                      packet.payload ≠ batch.session.checksum
                  · simp only [if_pos changed]
                    exact ⟨_, rfl, rfl⟩
                  · simp only [if_neg changed]
                    split
                    · exact ⟨_, rfl, rfl⟩
                    · exact ⟨_, rfl, rfl⟩
                · simp only [if_neg whole]
                  rw [if_neg whole] at ends
                  exact ih ends rfl
            | abort => exact ⟨_, rfl, rfl⟩
            | error => exact ⟨_, rfl, rfl⟩
            | _ =>
                simp only [kind] at ends
                exact ih ends same

theorem move_ends {session : ReadSession} {source : SocketAddr}
    {front back other : List Datagram}
    (ends : session.ends config front = true) :
    request.move config blake3 (.awaitData session)
        (.receive source (front ++ back)) =
      request.move config blake3 (.awaitData session)
        (.receive source (front ++ other)) := by
  simp only [move, step]
  split
  · obtain ⟨result, read, base⟩ := @readBatch_append config blake3 request
      front ⟨session, [], none⟩ ⟨session, [], none⟩ ends rfl
      (1 < (front ++ back).length) false back
    obtain ⟨result', read', base'⟩ := @readBatch_append config blake3 request
      front ⟨session, [], none⟩ ⟨session, [], none⟩ ends rfl
      (1 < (front ++ other).length) false other
    obtain rfl : result = result' := by
      rw [base] at base'
      exact Except.error.inj base'
    generalize request.readBatch config blake3 _ (front ++ back) _ = one at *
    generalize request.readBatch config blake3 _ (front ++ other) _ = two at *
    obtain ⟨sent, outcome⟩ := one
    obtain ⟨sent', outcome'⟩ := two
    cases read
    cases read'
    rfl
  · rfl

theorem move_unread {phase : ReadPhase} {event : NoisyEvent}
    (unread : request.Unread config phase event) :
    (∀ genuine, event.original = some genuine →
      request.move config blake3 phase event.delivered =
        request.move config blake3 phase genuine) ∧
      (event.original = none →
        request.move config blake3 phase event.delivered = some phase) := by
  cases event with
  | genuine event =>
      constructor
      · intro genuine same
        cases same
        rfl
      · intro absurd
        cases absurd
  | extra source text more =>
      constructor
      · intro genuine same
        cases same
      · intro _
        cases phase with
        | awaitData session =>
            have elsewhere : source ≠ session.source := unread
            simp [move, step, NoisyEvent.delivered, elsewhere]
        | _ => cases unread
  | mixed source front text back =>
      constructor
      · intro genuine same
        cases same
        cases phase with
        | awaitStart retries =>
            rcases unread with elsewhere | settled
            · cases elsewhere
            · simp only [move, step, NoisyEvent.delivered,
                readStart_append settled]
        | awaitData session =>
            rcases unread with elsewhere | ends
            · have elsewhere : source ≠ session.source := elsewhere
              simp [move, step, NoisyEvent.delivered, elsewhere]
            · exact move_ends ends
        | _ => rfl
      · intro absurd
        cases absurd

end ReadPayload

theorem undecodable_inert (config : Config) (blake3 : List UInt8 → Digest) :
    (∀ (request : SendPayload) (destination : SocketAddr)
        (events : List NoisyEvent),
      Along (fun phase event =>
          request.move config blake3 destination phase event.delivered)
        (request.Unread destination) .ready events →
      run (request.move config blake3 destination) .ready
          (events.map NoisyEvent.delivered) =
        run (request.move config blake3 destination) .ready
          (events.filterMap NoisyEvent.original)) ∧
    ∀ (request : ReadPayload) (events : List NoisyEvent),
      Along (fun phase event =>
          request.move config blake3 phase event.delivered)
        (request.Unread config) .ready events →
      run (request.move config blake3) .ready
          (events.map NoisyEvent.delivered) =
        run (request.move config blake3) .ready
          (events.filterMap NoisyEvent.original) := by
  constructor
  · intro request destination events unread
    apply run_filterMap _ unread
    intro phase event unread
    exact SendPayload.move_unread unread
  · intro request events unread
    apply run_filterMap _ unread
    intro phase event unread
    exact ReadPayload.move_unread unread

/-- An answer to the write of `abc`. -/
def abcAnswer (kind : Kind) (payload : List UInt8) : Datagram :=
  .ok { Packet.forHandle kind abcHandle 9 with payload := payload }

/-- The write of `abc` without loss, from what its three waits receive. -/
def abcExchange (started acknowledged completed : List NoisyEvent) :
    List NoisyEvent :=
  [.genuine .proceed, .genuine .proceed] ++ started ++
    [.genuine .proceed, .genuine .proceed] ++ acknowledged ++
    [.genuine .proceed, .genuine .proceed, .genuine .proceed,
      .genuine .proceed] ++ completed

/-- The read of `abc` without loss, from what its two waits receive. -/
def abcReply (started received : List NoisyEvent) : List NoisyEvent :=
  [.genuine .proceed, .genuine .proceed] ++ started ++ received

def abcStarted : Datagram := .ok (abcWrite.startPacket {} abcHash)

def abcReceived : List Datagram :=
  [.ok (abcWrite.dataPacket {} 0), .ok (abcWrite.finPacket {} abcHash)]

def disturbedWrite : List NoisyEvent :=
  abcExchange [.genuine (.receive 2 [abcAnswer .startAck []])]
    [.genuine (.receive 2 [abcAnswer .ack (bitmapPayload 0 [true] 32)])]
    [.mixed 2 [] "invalid UDP magic" [.genuine (abcAnswer .complete [])]]

def disturbedRead : List NoisyEvent :=
  abcReply [.genuine (.receive 2 [abcStarted])]
    [.mixed 2 [] "invalid UDP magic" (abcReceived.map Arrival.genuine)]

theorem undecodable_fatal :
    (run (abcWrite.move {} abcHash 2) .ready
        (disturbedWrite.filterMap NoisyEvent.original) =
        some (.returned (.ok ())) ∧
      run (abcWrite.move {} abcHash 2) .ready
        (disturbedWrite.map NoisyEvent.delivered) =
        some (.returned (.error (.undecoded "invalid UDP magic")))) ∧
    run (abcRead.move {} abcHash) .ready
        (disturbedRead.filterMap NoisyEvent.original) =
        some (.returned (.ok [97, 98, 99])) ∧
      run (abcRead.move {} abcHash) .ready
        (disturbedRead.map NoisyEvent.delivered) =
        some (.returned (.error (.undecoded "invalid UDP magic"))) := by
  decide +kernel

def unreadWrite : List NoisyEvent :=
  abcExchange [.mixed 2 [abcAnswer .startAck []] "invalid UDP magic"
      [.inserted "invalid UDP datagram length"]]
    [.extra 3 "invalid UDP magic" ["invalid UDP datagram length"],
      .genuine (.receive 2 [abcAnswer .ack (bitmapPayload 0 [true] 32)])]
    [.mixed 3 [] "invalid UDP magic" [], .genuine .proceed,
      .mixed 2 [abcAnswer .complete []] "invalid UDP magic" []]

def unreadRead : List NoisyEvent :=
  abcReply [.mixed 2 [abcStarted] "invalid UDP magic" []]
    [.extra 3 "invalid UDP magic" [],
      .mixed 2 abcReceived "invalid UDP magic" [.genuine abcStarted]]

theorem undecodable_inert_unread :
    run (abcWrite.move {} abcHash 2) .ready
        (unreadWrite.map NoisyEvent.delivered) =
      some (.returned (.ok ())) ∧
    run (abcRead.move {} abcHash) .ready
        (unreadRead.map NoisyEvent.delivered) =
      some (.returned (.ok [97, 98, 99])) := by
  constructor
  · rw [(undecodable_inert {} abcHash).1 abcWrite 2 unreadWrite (by decide +kernel)]
    decide +kernel
  · rw [(undecodable_inert {} abcHash).2 abcRead unreadRead (by decide +kernel)]
    decide +kernel

end TrainPool
