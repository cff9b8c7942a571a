import TrainPool.Config
import TrainPool.Transport.Packet

namespace TrainPool

open Slice

/-- A chunk to send.  A payload in memory is shorter than `2 ^ 64` bytes. -/
structure SendPayload where
  handle : MemoryBlockHandle
  transferId : Uuid
  offset : Nat
  payload : List UInt8
  readResponse : Bool
  bounded : payload.length < 2 ^ 64
  deriving DecidableEq

/-- Why `send_payload` fails: by its own decision, because a datagram does not
decode, because the peer answered with an error, or because the socket refused
a datagram. -/
inductive SendError where
  | message (text : String)
  | undecoded (text : String)
  | remote (payload : List UInt8)
  | socket
  deriving DecidableEq, Repr

namespace SendPayload

variable (config : Config) (blake3 : List UInt8 → Digest)
  (request : SendPayload)

def packetCount : Nat :=
  divCeil request.payload.length config.udpPayloadBytes

def flags : Nat := if request.readResponse then 1 else 0

def startPacket : Packet :=
  { Packet.forHandle .start request.handle request.transferId with
    flags := request.flags
    sequenceId := request.packetCount config
    offset := request.offset
    payload := Bytes.toBigEndian 8 request.payload.length ++
      (blake3 request.payload).toList }

def piece (sequence : Nat) : List UInt8 :=
  let start := sequence * config.udpPayloadBytes
  slice request.payload start
    (min (start + config.udpPayloadBytes) request.payload.length)

def dataPacket (sequence : Nat) : Packet :=
  { Packet.forHandle .data request.handle request.transferId with
    flags := request.flags
    sequenceId := sequence
    offset := request.offset + sequence * config.udpPayloadBytes
    payload := request.piece config sequence }

def finPacket : Packet :=
  { Packet.forHandle .fin request.handle request.transferId with
    flags := request.flags
    sequenceId := request.packetCount config
    offset := request.offset
    payload := (blake3 request.payload).toList }

def abortPacket : Packet :=
  { Packet.forHandle .abort request.handle request.transferId with
    flags := request.flags
    offset := request.offset }

end SendPayload

structure Window where
  negotiated : Nat
  acknowledged : List Bool
  base : Nat
  finish : Nat
  round : Nat
  deriving DecidableEq, Repr

/-- Where `send_payload` stands: at the head of one of its loops, or waiting
for datagrams inside it. -/
inductive Phase where
  | ready
  | handshake (retries : Nat)
  | awaitStart (retries : Nat)
  | window (window : Window)
  | round (window : Window)
  | awaitAcks (window : Window)
  | fin (attempt : Nat)
  | awaitComplete (attempt : Nat)
  | returned (result : Except SendError Unit)
  deriving DecidableEq

/-- What happens to the sender: it runs to its next wait, a timer fires, the
socket refuses a datagram, or datagrams arrive. -/
inductive SendEvent where
  | proceed
  | timeout
  | refused
  | receive (source : SocketAddr) (datagrams : List Datagram)
  deriving DecidableEq

namespace Window

def pending (window : Window) : Bool :=
  (slice window.acknowledged window.base window.finish).any (!·)

def unacknowledged (window : Window) : List Nat :=
  ((List.range window.finish).drop window.base).filter fun sequence =>
    !window.acknowledged.getD sequence false

/-- Take the sequences of a bitmap that satisfy `known` as acknowledged. -/
def acknowledge (known : Nat → Bool) (ackBase : Nat) (window : Window) :
    Window :=
  { window with
    acknowledged := (List.range ackBits).foldl
      (fun acknowledged index =>
        if known index then acknowledged.set (ackBase + index) true
        else acknowledged)
      window.acknowledged }

def negotiate (receiverWindow : Nat) (window : Window) : Window :=
  { window with negotiated := min window.negotiated (max receiverWindow 2) }

def readAcks (packetCount : Nat) (transferId : Uuid) :
    List Datagram → Window → Except SendError Window
  | [], window => .ok window
  | .error text :: _, _ => .error (.undecoded text)
  | .ok packet :: rest, window =>
      if packet.transferId ≠ transferId then
        readAcks packetCount transferId rest window
      else
        match packet.kind with
        | .error => .error (.remote packet.payload)
        | .ack =>
            match parseBitmap packet.payload with
            | .ok (ackBase, bitmap, receiverWindow) =>
                readAcks packetCount transferId rest
                  ((window.negotiate receiverWindow).acknowledge
                    (fun index => ackBase + index < packetCount &&
                      bitmapContains bitmap index) ackBase)
            | .error _ => .error (.message "invalid ACK/NACK bitmap")
        | .nack =>
            match parseBitmap packet.payload with
            | .ok (ackBase, bitmap, receiverWindow) =>
                -- A clear bit of a NACK is a received packet; the rest of the
                -- batch is dropped.
                .ok ((window.negotiate receiverWindow).acknowledge
                  (fun index => window.base ≤ ackBase + index &&
                    ackBase + index < window.finish &&
                    !bitmapContains bitmap index) ackBase)
            | .error _ => .error (.message "invalid ACK/NACK bitmap")
        | _ => readAcks packetCount transferId rest window

end Window

namespace SendPayload

variable (config : Config) (blake3 : List UInt8 → Digest)
  (destination : SocketAddr) (request : SendPayload)

/-- `send_payload` announces a failure of `send_payload_inner` to the peer. -/
def fail (error : SendError) : Phase × List Packet :=
  (.returned (.error error), [request.abortPacket])

/-- The outcome of the handshake on one batch: the window of the receiver, if
its answer is there. -/
def readStart : List Datagram → Except SendError (Option (Option Nat))
  | [] => .ok none
  | .error text :: _ => .error (.undecoded text)
  | .ok packet :: rest =>
      if packet.transferId = request.transferId ∧ packet.kind = .startAck then
        .ok (some (if packet.payload.length = 2 then
          some (Bytes.fromBigEndian packet.payload) else none))
      else if packet.transferId = request.transferId ∧
          packet.kind = .error then
        .error (.remote packet.payload)
      else
        readStart rest

def readComplete : List Datagram → Except SendError Bool
  | [] => .ok false
  | .error text :: _ => .error (.undecoded text)
  | .ok packet :: rest =>
      if packet.transferId = request.transferId ∧ packet.kind = .complete then
        .ok true
      else if packet.transferId = request.transferId ∧
          packet.kind = .error then
        .error (.remote packet.payload)
      else
        readComplete rest

def firstWindow (receiverWindow : Option Nat) : Window :=
  let own := min config.udpWindowPackets ackBits
  { negotiated := match receiverWindow with
      | some offered => min own (max offered 2)
      | none => own
    acknowledged := List.replicate (request.packetCount config) false
    base := 0
    finish := 0
    round := 0 }

/-- The end of a round of the DATA phase, whether or not its packets have been
acknowledged. -/
def endRound (window : Window) : Phase × List Packet :=
  let round := window.round + 1
  if round ≤ config.udpMaxRetries then
    (.round { window with
      round := round
      negotiated := if 1 < round then max (window.negotiated / 2) 2
        else window.negotiated }, [])
  else
    request.fail (.message
      "TRAINPOOL_TRANSFER_TIMEOUT: bounded UDP retry exhausted")

/-- The conditions that `send_payload_inner` checks first. -/
def Admissible : Prop :=
  request.payload ≠ [] ∧ request.payload.length ≤ config.chunkBytes ∧
    request.offset + request.payload.length ≤ request.handle.size

def check : Except SendError Unit :=
  if request.payload = [] then
    .error (.message "zero-length UDP transfer")
  else if config.chunkBytes < request.payload.length then
    .error (.message "UDP transfer exceeds configured chunk size")
  else if request.handle.size < request.offset + request.payload.length then
    .error (.message "UDP transfer range exceeds block")
  else
    .ok ()

def step : Phase → SendEvent → Option (Phase × List Packet)
  | .ready, .proceed =>
      match request.check config with
      | .ok _ => some (.handshake 0, [])
      | .error error => some (request.fail error)
  | .handshake retries, .proceed =>
      some (.awaitStart retries, [request.startPacket config blake3])
  | .handshake _, .refused => some (request.fail .socket)
  | .awaitStart retries, .timeout => some (retryStart retries)
  | .awaitStart retries, .receive source datagrams =>
      if source = destination then
        match request.readStart datagrams with
        | .error error => some (request.fail error)
        | .ok (some receiverWindow) =>
            some (.window (request.firstWindow config receiverWindow), [])
        | .ok none => some (.handshake retries, [])
      else
        some (retryStart retries)
  | .window window, .proceed =>
      if window.base < request.packetCount config then
        some (.round { window with
          finish := min (window.base + window.negotiated)
            (request.packetCount config)
          round := 0 }, [])
      else
        some (.fin 0, [])
  | .round window, .proceed =>
      if window.pending then
        let packets := window.unacknowledged.map (request.dataPacket config)
        if packets.all fun packet => decide packet.Encodes then
          some (.awaitAcks window, packets)
        else
          some (request.fail (.message
            "UDP datagram exceeds MTU-safe envelope"))
      else
        some (.window { window with base := window.finish }, [])
  | .round _, .refused => some (request.fail .socket)
  | .awaitAcks window, .proceed =>
      if window.pending then none else some (request.endRound config window)
  | .awaitAcks window, .timeout => some (request.endRound config window)
  | .awaitAcks window, .receive source datagrams =>
      if window.pending then
        if source = destination then
          match window.readAcks (request.packetCount config)
              request.transferId datagrams with
          | .error error => some (request.fail error)
          | .ok next => some (.awaitAcks next, [])
        else
          some (.awaitAcks window, [])
      else
        none
  | .fin attempt, .proceed =>
      if attempt ≤ config.udpMaxRetries then
        some (.awaitComplete attempt, [request.finPacket config blake3])
      else
        some (request.fail (.message
          "TRAINPOOL_TRANSFER_TIMEOUT: UDP FIN acknowledgement"))
  | .fin _, .refused => some (request.fail .socket)
  | .awaitComplete attempt, .timeout => some (.fin (attempt + 1), [])
  | .awaitComplete attempt, .receive source datagrams =>
      if source = destination then
        match request.readComplete datagrams with
        | .error error => some (request.fail error)
        | .ok true => some (.returned (.ok ()), [])
        | .ok false => some (.fin (attempt + 1), [])
      else
        some (.fin (attempt + 1), [])
  | _, _ => none
where
  retryStart (retries : Nat) : Phase × List Packet :=
    if retries + 1 ≤ config.udpMaxRetries then
      (.handshake (retries + 1), [])
    else
      request.fail (.message "TRAINPOOL_TRANSFER_TIMEOUT: UDP START")

example (result : Except SendError Unit) (event : SendEvent) :
    request.step config blake3 destination (.returned result) event =
      none := by
  simp only [step]

section Steps

variable {config : Config} {blake3 : List UInt8 → Digest}
  {destination : SocketAddr} {request : SendPayload} {phase : Phase}
  {event : SendEvent} {packets : List Packet}
  {result : Phase × List Packet}

/-- What a step of the sender can do: the phase after it and the packets it
sends. -/
inductive Moves (config : Config) (blake3 : List UInt8 → Digest)
    (destination : SocketAddr) (request : SendPayload) :
    Phase → SendEvent → Phase → List Packet → Prop
  | checks (checked : request.check config = .ok ()) :
      Moves config blake3 destination request .ready .proceed (.handshake 0)
        []
  | starts (retries : Nat) :
      Moves config blake3 destination request (.handshake retries) .proceed
        (.awaitStart retries) [request.startPacket config blake3]
  | again (retries : Nat) (event : SendEvent)
      (few : retries + 1 ≤ config.udpMaxRetries) :
      Moves config blake3 destination request (.awaitStart retries) event
        (.handshake (retries + 1)) []
  | waits (retries : Nat) (datagrams : List Datagram)
      (read : request.readStart datagrams = .ok none) :
      Moves config blake3 destination request (.awaitStart retries)
        (.receive destination datagrams) (.handshake retries) []
  | opens (retries : Nat) (datagrams : List Datagram)
      (receiverWindow : Option Nat)
      (read : request.readStart datagrams = .ok (some receiverWindow)) :
      Moves config blake3 destination request (.awaitStart retries)
        (.receive destination datagrams)
        (.window (request.firstWindow config receiverWindow)) []
  | sizes (window : Window)
      (more : window.base < request.packetCount config) :
      Moves config blake3 destination request (.window window) .proceed
        (.round { window with
          finish := min (window.base + window.negotiated)
            (request.packetCount config)
          round := 0 }) []
  | finishes (window : Window)
      (done : request.packetCount config ≤ window.base) :
      Moves config blake3 destination request (.window window) .proceed
        (.fin 0) []
  | sends (window : Window) (pending : window.pending = true) :
      Moves config blake3 destination request (.round window) .proceed
        (.awaitAcks window)
        (window.unacknowledged.map (request.dataPacket config))
  | passes (window : Window) (shut : window.pending = false) :
      Moves config blake3 destination request (.round window) .proceed
        (.window { window with base := window.finish }) []
  | repeats (window : Window) (event : SendEvent) (negotiated : Nat)
      (few : window.round < config.udpMaxRetries) :
      Moves config blake3 destination request (.awaitAcks window) event
        (.round { window with
          round := window.round + 1
          negotiated := negotiated }) []
  | acknowledges (window next : Window) (datagrams : List Datagram)
      (read : window.readAcks (request.packetCount config) request.transferId
        datagrams = .ok next) :
      Moves config blake3 destination request (.awaitAcks window)
        (.receive destination datagrams) (.awaitAcks next) []
  | strays (window : Window) (event : SendEvent) :
      Moves config blake3 destination request (.awaitAcks window) event
        (.awaitAcks window) []
  | ends (attempt : Nat) (few : attempt ≤ config.udpMaxRetries) :
      Moves config blake3 destination request (.fin attempt) .proceed
        (.awaitComplete attempt) [request.finPacket config blake3]
  | endsAgain (attempt : Nat) (event : SendEvent) :
      Moves config blake3 destination request (.awaitComplete attempt) event
        (.fin (attempt + 1)) []
  | completes (attempt : Nat) (datagrams : List Datagram)
      (read : request.readComplete datagrams = .ok true) :
      Moves config blake3 destination request (.awaitComplete attempt)
        (.receive destination datagrams) (.returned (.ok ())) []
  | fails (phase : Phase) (event : SendEvent) (error : SendError) :
      Moves config blake3 destination request phase event
        (.returned (.error error)) [request.abortPacket]

theorem retryStart_moves (retries : Nat) (event : SendEvent) :
    Moves config blake3 destination request (.awaitStart retries) event
      (step.retryStart config request retries).1
      (step.retryStart config request retries).2 := by
  unfold step.retryStart
  split
  · rename_i few
    exact .again retries event few
  · exact .fails _ event _

theorem endRound_moves (window : Window) (event : SendEvent) :
    Moves config blake3 destination request (.awaitAcks window) event
      (request.endRound config window).1
      (request.endRound config window).2 := by
  unfold endRound
  dsimp only
  split
  · exact .repeats window event _ (by omega)
  · exact .fails _ event _

theorem step_moves
    (stepped : request.step config blake3 destination phase event =
      some result) :
    Moves config blake3 destination request phase event result.1
      result.2 := by
  unfold step at stepped
  split at stepped
  · split at stepped <;> cases stepped
    · rename_i checked
      exact .checks checked
    · exact .fails _ _ _
  · cases stepped
    exact .starts _
  · cases stepped
    exact .fails _ _ _
  · cases stepped
    exact retryStart_moves _ _
  · split at stepped
    · rename_i origin
      subst origin
      split at stepped <;> cases stepped
      · exact .fails _ _ _
      · exact .opens _ _ _ ‹_›
      · exact .waits _ _ ‹_›
    · cases stepped
      exact retryStart_moves _ _
  · split at stepped <;> cases stepped
    · exact .sizes _ ‹_›
    · exact .finishes _ (Nat.le_of_not_lt ‹_›)
  · split at stepped
    · dsimp only at stepped
      split at stepped <;> cases stepped
      · exact .sends _ ‹_›
      · exact .fails _ _ _
    · cases stepped
      exact .passes _ (Bool.eq_false_iff.mpr ‹_›)
  · cases stepped
    exact .fails _ _ _
  · split at stepped <;> cases stepped
    exact endRound_moves _ _
  · cases stepped
    exact endRound_moves _ _
  · split at stepped
    · split at stepped
      · rename_i origin
        subst origin
        split at stepped <;> cases stepped
        · exact .fails _ _ _
        · exact .acknowledges _ _ _ ‹_›
      · cases stepped
        exact .strays _ _
    · cases stepped
  · split at stepped <;> cases stepped
    · exact .ends _ ‹_›
    · exact .fails _ _ _
  · cases stepped
    exact .fails _ _ _
  · cases stepped
    exact .endsAgain _ _
  · split at stepped
    · rename_i origin
      subst origin
      split at stepped <;> cases stepped
      · exact .fails _ _ _
      · exact .completes _ _ ‹_›
      · exact .endsAgain _ _
    · cases stepped
      exact .endsAgain _ _
  · cases stepped

inductive Sends (config : Config) (blake3 : List UInt8 → Digest)
    (request : SendPayload) : Packet → Prop
  | start : Sends config blake3 request (request.startPacket config blake3)
  | data (sequence : Nat) :
      Sends config blake3 request (request.dataPacket config sequence)
  | fin : Sends config blake3 request (request.finPacket config blake3)
  | abort : Sends config blake3 request request.abortPacket

theorem step_sends
    (stepped : request.step config blake3 destination phase event =
      some result) :
    ∀ packet ∈ result.2, Sends config blake3 request packet := by
  obtain ⟨next, packets⟩ := result
  intro packet member
  cases step_moves stepped with
  | starts retries =>
      obtain rfl := List.mem_singleton.mp member
      exact .start
  | sends window pending =>
      obtain ⟨sequence, _, rfl⟩ := List.mem_map.mp member
      exact .data sequence
  | ends attempt few =>
      obtain rfl := List.mem_singleton.mp member
      exact .fin
  | fails phase event error =>
      obtain rfl := List.mem_singleton.mp member
      exact .abort
  | _ => cases member

theorem readComplete_true {datagrams : List Datagram}
    (completed : request.readComplete datagrams = .ok true) :
    ∃ packet, .ok packet ∈ datagrams ∧
      packet.transferId = request.transferId ∧ packet.kind = .complete := by
  induction datagrams with
  | nil => cases completed
  | cons datagram rest ih =>
      cases datagram with
      | error text => cases completed
      | ok packet =>
          unfold readComplete at completed
          split at completed
          · rename_i found
            exact ⟨packet, by simp, found⟩
          · split at completed
            · cases completed
            · obtain ⟨packet, member, found⟩ := ih completed
              exact ⟨packet, List.mem_cons_of_mem _ member, found⟩

theorem step_returns
    (stepped : request.step config blake3 destination phase event =
      some (.returned (.ok ()), packets)) :
    ∃ datagrams packet, event = .receive destination datagrams ∧
      .ok packet ∈ datagrams ∧ packet.transferId = request.transferId ∧
        packet.kind = .complete := by
  cases step_moves stepped with
  | completes attempt datagrams read =>
      obtain ⟨packet, member, found⟩ := readComplete_true read
      exact ⟨datagrams, packet, rfl, member, found⟩

theorem readComplete_error {datagrams : List Datagram}
    {payload : List UInt8}
    (failed : request.readComplete datagrams = .error (.remote payload)) :
    ∃ packet, .ok packet ∈ datagrams ∧
      packet.transferId = request.transferId ∧ packet.kind = .error := by
  induction datagrams with
  | nil => cases failed
  | cons datagram rest ih =>
      cases datagram with
      | error text => cases failed
      | ok packet =>
          unfold readComplete at failed
          split at failed
          · cases failed
          · split at failed
            · rename_i found
              exact ⟨packet, by simp, found⟩
            · obtain ⟨packet, member, found⟩ := ih failed
              exact ⟨packet, List.mem_cons_of_mem _ member, found⟩

theorem readStart_error {datagrams : List Datagram}
    {payload : List UInt8}
    (failed : request.readStart datagrams = .error (.remote payload)) :
    ∃ packet, .ok packet ∈ datagrams ∧
      packet.transferId = request.transferId ∧ packet.kind = .error := by
  induction datagrams with
  | nil => cases failed
  | cons datagram rest ih =>
      cases datagram with
      | error text => cases failed
      | ok packet =>
          unfold readStart at failed
          split at failed
          · cases failed
          · split at failed
            · rename_i found
              exact ⟨packet, by simp, found⟩
            · obtain ⟨packet, member, found⟩ := ih failed
              exact ⟨packet, List.mem_cons_of_mem _ member, found⟩

theorem readAcks_error {datagrams : List Datagram}
    {packetCount : Nat} {transferId : Uuid} {window : Window}
    {payload : List UInt8}
    (failed : window.readAcks packetCount transferId datagrams =
      .error (.remote payload)) :
    ∃ packet, .ok packet ∈ datagrams ∧ packet.transferId = transferId ∧
      packet.kind = .error := by
  induction datagrams generalizing window with
  | nil => cases failed
  | cons datagram rest ih =>
      have later : ∀ window : Window,
          window.readAcks packetCount transferId rest =
            .error (.remote payload) →
          ∃ packet, .ok packet ∈ datagram :: rest ∧
            packet.transferId = transferId ∧ packet.kind = .error := by
        intro window failed
        obtain ⟨packet, member, found⟩ := ih failed
        exact ⟨packet, List.mem_cons_of_mem _ member, found⟩
      cases datagram with
      | error text => cases failed
      | ok packet =>
          unfold Window.readAcks at failed
          split at failed
          · exact later _ failed
          · rename_i transfer
            split at failed
            · rename_i kind
              exact ⟨packet, by simp, not_not.mp transfer, kind⟩
            · split at failed
              · exact later _ failed
              · cases failed
            · split at failed <;> cases failed
            · exact later _ failed

theorem step_refused {payload : List UInt8}
    (stepped : request.step config blake3 destination phase event =
      some (.returned (.error (.remote payload)), packets)) :
    ∃ datagrams packet, event = .receive destination datagrams ∧
      .ok packet ∈ datagrams ∧ packet.transferId = request.transferId ∧
        packet.kind = .error := by
  unfold step at stepped
  split at stepped
  · unfold check at stepped
    split at stepped
    · cases stepped
    · rename_i checked
      cases stepped
      split at checked
      · cases checked
      · split at checked
        · cases checked
        · split at checked <;> cases checked
  · cases stepped
  · cases stepped
  · simp only [step.retryStart] at stepped
    split at stepped <;> cases stepped
  · rename_i source datagrams
    split at stepped
    · rename_i origin
      subst origin
      split at stepped
      · rename_i failed
        cases stepped
        obtain ⟨packet, member, found⟩ := readStart_error failed
        exact ⟨datagrams, packet, rfl, member, found⟩
      · cases stepped
      · cases stepped
    · simp only [step.retryStart] at stepped
      split at stepped <;> cases stepped
  · split at stepped <;> cases stepped
  · split at stepped
    · simp only at stepped
      split at stepped <;> cases stepped
    · cases stepped
  · cases stepped
  · split at stepped
    · cases stepped
    · simp only [endRound] at stepped
      split at stepped <;> cases stepped
  · simp only [endRound] at stepped
    split at stepped <;> cases stepped
  · rename_i source datagrams
    split at stepped
    · split at stepped
      · rename_i origin
        subst origin
        split at stepped
        · rename_i failed
          cases stepped
          obtain ⟨packet, member, found⟩ := readAcks_error failed
          exact ⟨datagrams, packet, rfl, member, found⟩
        · cases stepped
      · cases stepped
    · cases stepped
  · split at stepped <;> cases stepped
  · cases stepped
  · cases stepped
  · rename_i source datagrams
    split at stepped
    · rename_i origin
      subst origin
      split at stepped
      · rename_i failed
        cases stepped
        obtain ⟨packet, member, found⟩ := readComplete_error failed
        exact ⟨datagrams, packet, rfl, member, found⟩
      · cases stepped
      · cases stepped
    · cases stepped
  · cases stepped

theorem readAcks_range {datagrams : List Datagram}
    {packetCount : Nat} {transferId : Uuid} {window next : Window}
    (read : window.readAcks packetCount transferId datagrams = .ok next) :
    next.base = window.base ∧ next.finish = window.finish ∧
      next.round = window.round := by
  induction datagrams generalizing window with
  | nil =>
      cases read
      exact ⟨rfl, rfl, rfl⟩
  | cons datagram rest ih =>
      cases datagram with
      | error text => cases read
      | ok packet =>
          unfold Window.readAcks at read
          split at read
          · exact ih read
          · split at read
            · cases read
            · split at read
              · obtain ⟨base, finish, round⟩ := ih read
                exact ⟨base, finish, round⟩
              · cases read
            · split at read <;> cases read
              exact ⟨rfl, rfl, rfl⟩
            · exact ih read

def Bounded (config : Config) (request : SendPayload) : Phase → Prop
  | .window window | .round window | .awaitAcks window =>
      window.finish ≤ request.packetCount config
  | _ => True

theorem step_bounded (bounded : Bounded config request phase)
    (stepped : request.step config blake3 destination phase event =
      some result) : Bounded config request result.1 := by
  obtain ⟨next, packets⟩ := result
  cases step_moves stepped with
  | opens retries datagrams receiverWindow read => exact Nat.zero_le _
  | sizes window more => exact Nat.min_le_right _ _
  | sends window pending => exact bounded
  | passes window shut => exact bounded
  | repeats window event negotiated few => exact bounded
  | acknowledges window next datagrams read =>
      exact (readAcks_range read).2.1.trans_le bounded
  | strays window event => exact bounded
  | _ => trivial

/-- The sender cuts its payload into `packetCount` pieces. -/
theorem step_sequences (bounded : Bounded config request phase)
    (stepped : request.step config blake3 destination phase event =
      some result) {packet : Packet} (sent : packet ∈ result.2)
    (data : packet.kind = .data) :
    packet.sequenceId < request.packetCount config := by
  obtain ⟨next, packets⟩ := result
  cases step_moves stepped with
  | sends window pending =>
      obtain ⟨sequence, listed, rfl⟩ := List.mem_map.mp sent
      have inside : sequence < window.finish :=
        List.mem_range.mp (List.mem_of_mem_drop
          (List.mem_of_mem_filter listed))
      exact Nat.lt_of_lt_of_le inside bounded
  | starts retries =>
      obtain rfl := List.mem_singleton.mp sent
      cases data
  | ends attempt few =>
      obtain rfl := List.mem_singleton.mp sent
      cases data
  | fails phase event error =>
      obtain rfl := List.mem_singleton.mp sent
      cases data
  | _ => cases sent

end Steps

end SendPayload

/-- The write of `abc` to a block that waits for it. -/
def abcWrite : SendPayload where
  handle := abcHandle
  transferId := 9
  offset := 0
  payload := [97, 98, 99]
  readResponse := false
  bounded := by decide

end TrainPool
