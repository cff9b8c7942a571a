import TrainPool.Runtime.Incoming
import TrainPool.Runtime.Link

namespace TrainPool

open Execution Slice

/-! The batched path of DATA packets against handling them one by one: what
each stores, and what it adds to the counters of the job. -/

structure DataCounters where
  udpPayloadBytes : Nat := 0
  duplicateDatagrams : Nat := 0
  outOfOrderDatagrams : Nat := 0
  deriving DecidableEq, Repr

namespace DataCounters

def add (first second : DataCounters) : DataCounters where
  udpPayloadBytes := first.udpPayloadBytes + second.udpPayloadBytes
  duplicateDatagrams := first.duplicateDatagrams + second.duplicateDatagrams
  outOfOrderDatagrams :=
    first.outOfOrderDatagrams + second.outOfOrderDatagrams

instance : Add DataCounters := ⟨add⟩

@[simp] theorem add_udpPayloadBytes (first second : DataCounters) :
    (first + second).udpPayloadBytes =
      first.udpPayloadBytes + second.udpPayloadBytes := rfl

@[simp] theorem add_duplicateDatagrams (first second : DataCounters) :
    (first + second).duplicateDatagrams =
      first.duplicateDatagrams + second.duplicateDatagrams := rfl

@[simp] theorem add_outOfOrderDatagrams (first second : DataCounters) :
    (first + second).outOfOrderDatagrams =
      first.outOfOrderDatagrams + second.outOfOrderDatagrams := rfl

theorem ext_fields {first second : DataCounters}
    (bytes : first.udpPayloadBytes = second.udpPayloadBytes)
    (duplicates : first.duplicateDatagrams = second.duplicateDatagrams)
    (late : first.outOfOrderDatagrams = second.outOfOrderDatagrams) :
    first = second := by
  cases first
  cases second
  cases bytes
  cases duplicates
  cases late
  rfl

theorem add_assoc (first second third : DataCounters) :
    first + second + third = first + (second + third) :=
  ext_fields (Nat.add_assoc _ _ _) (Nat.add_assoc _ _ _)
    (Nat.add_assoc _ _ _)

@[simp] theorem empty_add (counters : DataCounters) :
    ({} : DataCounters) + counters = counters :=
  ext_fields (Nat.zero_add _) (Nat.zero_add _) (Nat.zero_add _)

@[simp] theorem add_empty (counters : DataCounters) :
    counters + ({} : DataCounters) = counters := rfl

end DataCounters

namespace IncomingSession

def count (session : IncomingSession) (packet : Packet) : DataCounters :=
  let duplicate := session.isReceived packet.sequenceId
  { udpPayloadBytes := if duplicate then 0 else packet.payload.length
    duplicateDatagrams := if duplicate then 1 else 0
    outOfOrderDatagrams :=
      if !duplicate && session.outOfOrder packet then 1 else 0 }

/-- The counters of the one-by-one path.  A refused packet adds nothing. -/
def countData (session : IncomingSession) (packet : Packet) : DataCounters :=
  match (do session.checkMetadata packet; session.checkRange packet) with
  | .error _ => {}
  | .ok _ => session.count packet

/-- The counters of the batched path, which adds them after its loop and
nothing when one of its packets is refused. -/
def countAll (session : IncomingSession) (counters : DataCounters) :
    List Packet → DataCounters
  | [] => counters
  | packet :: rest =>
      match (do session.checkMetadata packet; session.checkRange packet) with
      | .error _ => {}
      | .ok _ =>
          if session.isReceived packet.sequenceId then
            session.countAll { counters with
              duplicateDatagrams := counters.duplicateDatagrams + 1 } rest
          else
            (session.store packet).countAll { counters with
              udpPayloadBytes :=
                counters.udpPayloadBytes + packet.payload.length
              outOfOrderDatagrams := counters.outOfOrderDatagrams +
                (if session.outOfOrder packet then 1 else 0) } rest

/-- What DATA packets change of a session, but for the time of the last. -/
structure Progress where
  buffer : List UInt8
  received : List Bool
  receivedCount : Nat
  lastSequence : Option Nat
  deriving DecidableEq

def progress (session : IncomingSession) : Progress :=
  ⟨session.buffer, session.received, session.receivedCount,
    session.lastSequence⟩

end IncomingSession

namespace Handler

/-- What one lock acquisition of a handler adds to the counters of the job of
its packet. -/
def adds (source : SocketAddr) (handler : Handler) (shared : Shared) :
    DataCounters :=
  match handler.stage,
      shared.udp.incoming.lookup (handler.packet.key source) with
  | .dataSession, some session => session.countData handler.packet
  | .batchSession, some session =>
      session.countAll {} (handler.packet :: handler.rest)
  | _, _ => {}

section Meter

variable (config : Config) (blake3 : List UInt8 → Digest)
  (source : SocketAddr)

/-- A handler that nothing interrupts, with what it adds to the counters. -/
def meter (moment : Moment) :
    Nat → Handler → Shared → Option (Shared × DataCounters)
  | 0, _, _ => none
  | fuel + 1, handler, shared => do
      let (next, outcome) ← handler.run config blake3 source moment.now
        moment.instant moment.choice shared
      match outcome with
      | .next stage => do
          let (final, rest) ←
            meter moment fuel { handler with stage := stage } next
          some (final, handler.adds source shared + rest)
      | _ => some (next, handler.adds source shared)

def meterAll : List (Moment × Handler) → Shared →
    Option (Shared × DataCounters)
  | [], shared => some (shared, {})
  | (moment, handler) :: rest, shared => do
      let (next, first) ← handler.meter config blake3 source moment 8 shared
      let (final, second) ← meterAll rest next
      some (final, first + second)

end Meter

end Handler

section Steps

variable {config : Config} {blake3 : List UInt8 → Digest}
  {source : SocketAddr} {moment : Moment} {handler : Handler}
  {shared next : Shared}

theorem Handler.meter_next {stage : Stage} (fuel : Nat)
    (ran : handler.run config blake3 source moment.now moment.instant
      moment.choice shared = some (next, .next stage)) :
    handler.meter config blake3 source moment (fuel + 1) shared =
      (Handler.meter config blake3 source moment fuel
        { handler with stage := stage } next).map
          fun result => (result.1, handler.adds source shared + result.2) := by
  rw [meter, ran]
  simp only [Option.bind_eq_bind, Option.bind_some]
  cases Handler.meter config blake3 source moment fuel
    { handler with stage := stage } next with
  | none => rfl
  | some result => rfl

theorem Handler.meter_answer {reply : Option Packet} (fuel : Nat)
    (ran : handler.run config blake3 source moment.now moment.instant
      moment.choice shared = some (next, .answer reply)) :
    handler.meter config blake3 source moment (fuel + 1) shared =
      some (next, handler.adds source shared) := by
  rw [meter, ran]
  rfl

end Steps

/-! One session and the packets that it does not refuse. -/

namespace IncomingSession

def Admits (session : IncomingSession) (packet : Packet) : Prop :=
  session.checkMetadata packet = .ok () ∧ session.checkRange packet = .ok ()

def take (session : IncomingSession) (packet : Packet) : IncomingSession :=
  if session.isReceived packet.sequenceId then session
  else session.store packet

def retime (instant : Nat) (session : IncomingSession) : IncomingSession :=
  { session with lastActivity := instant }

def tally (session : IncomingSession) : List Packet → DataCounters
  | [] => {}
  | packet :: rest => session.count packet + (session.take packet).tally rest

structure Alike (first second : IncomingSession) : Prop where
  object : first.object = second.object
  lease : first.lease = second.lease
  generation : first.generation = second.generation
  baseOffset : first.baseOffset = second.baseOffset
  blockSize : first.blockSize = second.blockSize
  payloadSize : first.payloadSize = second.payloadSize
  packetCount : first.packetCount = second.packetCount
  length : first.buffer.length = second.buffer.length

variable {session other : IncomingSession} {packet : Packet}

theorem Admits.alike (admits : session.Admits packet)
    (alike : session.Alike other) : other.Admits packet := by
  obtain ⟨metadata, range⟩ := admits
  constructor
  · unfold checkMetadata at metadata ⊢
    rw [ensure_ok] at metadata ⊢
    rwa [← alike.object, ← alike.lease, ← alike.generation,
      ← alike.blockSize]
  · rw [checkRange_ok] at range ⊢
    rwa [← alike.packetCount, ← alike.baseOffset, ← alike.payloadSize,
      ← alike.length]

theorem alike_retime (session : IncomingSession) (instant : Nat) :
    session.Alike (session.retime instant) :=
  ⟨rfl, rfl, rfl, rfl, rfl, rfl, rfl, rfl⟩

theorem Admits.alike_take (admits : session.Admits packet) :
    session.Alike (session.take packet) := by
  unfold take
  split
  · exact ⟨rfl, rfl, rfl, rfl, rfl, rfl, rfl, rfl⟩
  · exact ⟨rfl, rfl, rfl, rfl, rfl, rfl, rfl,
      (length_overwrite (checkRange_ok.mp admits.2).2.2).symm⟩

theorem Admits.checked (admits : session.Admits packet) :
    (do session.checkMetadata packet; session.checkRange packet) =
      .ok () :=
  checked_ok.mpr admits

theorem retime_take (instant : Nat) :
    (session.retime instant).take packet =
      (session.take packet).retime instant := by
  have same : (session.retime instant).isReceived packet.sequenceId =
      session.isReceived packet.sequenceId := rfl
  unfold take
  rw [same]
  split <;> rfl

theorem Admits.receiveData (admits : session.Admits packet)
    (instant window : Nat) :
    ∃ reply, session.receiveData instant window packet =
      ((session.take packet).retime instant, .ok reply) := by
  have touched := admits.alike (alike_retime session instant)
  have range : ({ session with lastActivity := instant } :
      IncomingSession).checkRange packet = .ok () := touched.2
  unfold IncomingSession.receiveData
  rw [admits.1]
  simp only [range]
  refine ⟨_, Prod.ext ?_ rfl⟩
  rw [← retime_take]
  rfl

theorem Admits.countData (admits : session.Admits packet) :
    session.countData packet = session.count packet := by
  unfold IncomingSession.countData
  rw [admits.checked]

theorem receiveAll_eq {packets : List Packet}
    (admits : ∀ packet ∈ packets, session.Admits packet) :
    session.receiveAll packets = (packets.foldl take session, .ok ()) := by
  induction packets generalizing session with
  | nil => rfl
  | cons packet rest ih =>
      have here := admits packet (by simp)
      have later : ∀ packet ∈ rest,
          (session.take _).Admits packet := fun other member =>
        (admits other (List.mem_cons_of_mem _ member)).alike here.alike_take
      rw [List.foldl_cons, ← ih later, receiveAll, here.checked]
      unfold take
      by_cases received : session.isReceived packet.sequenceId
      · simp only [received, if_true]
      · simp only [received]
        rfl

theorem countAll_eq {packets : List Packet} {counters : DataCounters}
    (admits : ∀ packet ∈ packets, session.Admits packet) :
    session.countAll counters packets =
      counters + session.tally packets := by
  induction packets generalizing session counters with
  | nil => rfl
  | cons packet rest ih =>
      have here := admits packet (by simp)
      have later : ∀ packet ∈ rest,
          (session.take _).Admits packet := fun other member =>
        (admits other (List.mem_cons_of_mem _ member)).alike here.alike_take
      rw [countAll, here.checked, tally, ← DataCounters.add_assoc,
        ← ih later]
      unfold take count
      by_cases received : session.isReceived packet.sequenceId
      · simp only [received, if_true]
        rfl
      · simp only [received]
        rfl

@[simp] theorem progress_retime (instant : Nat) :
    (session.retime instant).progress = session.progress := rfl

theorem tally_retime (instant : Nat) (packets : List Packet) :
    (session.retime instant).tally packets = session.tally packets := by
  induction packets generalizing session with
  | nil => rfl
  | cons packet rest ih =>
      rw [tally, retime_take, ih]
      rfl

theorem foldl_retime (instant : Nat) (packets : List Packet) :
    packets.foldl take (session.retime instant) =
      (packets.foldl take session).retime instant := by
  induction packets generalizing session with
  | nil => rfl
  | cons packet rest ih => rw [List.foldl_cons, retime_take, ih, List.foldl_cons]

theorem counted_tally (packets : List Packet) :
    (packets.foldl take session).receivedCount +
        (session.tally packets).duplicateDatagrams =
      session.receivedCount + packets.length := by
  induction packets generalizing session with
  | nil => rfl
  | cons packet rest ih =>
      have later := @ih (session.take packet)
      have here : (session.take packet).receivedCount +
          (session.count packet).duplicateDatagrams =
            session.receivedCount + 1 := by
        unfold take count
        by_cases received : session.isReceived packet.sequenceId
        · simp [received]
        · simp [received, IncomingSession.store]
      simp only [List.foldl_cons, IncomingSession.tally,
        DataCounters.add_duplicateDatagrams, List.length_cons]
      omega

end IncomingSession

/-! The two paths. -/

section Paths

variable {config : Config} {blake3 : List UInt8 → Digest}
  {source : SocketAddr} {shared : Shared} {key : SessionKey}
  {session : IncomingSession} {packet : Packet}

theorem completedBase_admitted (pieces : session.payloadSize =
      config.udpPayloadBytes) (admits : session.Admits packet) :
    completedBase config packet = some session.baseOffset := by
  obtain ⟨_, offset, _⟩ := IncomingSession.checkRange_ok.mp admits.2
  rw [pieces] at offset
  unfold completedBase
  simp only [offset]
  rw [if_pos (Nat.le_add_left _ _), Nat.add_sub_cancel]

theorem isCompleted_admitted {udp : UdpServerState}
    (pieces : session.payloadSize = config.udpPayloadBytes)
    (admits : session.Admits packet) (keyed : packet.key source = key) :
    udp.isCompleted config source packet =
      (udp.completed.lookup (key, session.baseOffset)).isSome := by
  unfold UdpServerState.isCompleted
  rw [completedBase_admitted pieces admits, keyed]

theorem runDataSession_admitted {instant : Nat}
    (keyed : packet.key source = key)
    (found : shared.udp.incoming.lookup key = some session)
    (admits : session.Admits packet) :
    ∃ reply, Handler.runDataSession config source instant packet shared =
      ({ shared with
        udp := shared.udp.setSession key
          ((session.take packet).retime instant) }, .answer reply) := by
  obtain ⟨reply, received⟩ :=
    admits.receiveData instant config.udpWindowPackets
  refine ⟨reply.map (packet.response .ack), ?_⟩
  unfold Handler.runDataSession
  rw [keyed, found]
  simp only [received]

theorem adds_dataSession (keyed : packet.key source = key)
    (found : shared.udp.incoming.lookup key = some session)
    (admits : session.Admits packet) :
    Handler.adds source { packet := packet, stage := .dataSession } shared =
      session.count packet := by
  unfold Handler.adds
  dsimp only
  rw [keyed, found]
  exact admits.countData

theorem meter_data {moment : Moment} (kind : packet.kind = .data)
    (keyed : packet.key source = key)
    (found : shared.udp.incoming.lookup key = some session)
    (pieces : session.payloadSize = config.udpPayloadBytes)
    (admits : session.Admits packet) :
    Handler.meter config blake3 source moment 8 { packet := packet } shared =
      let aged := shared.udp.ageCompleted moment.instant
      let after := (session.take packet).retime moment.instant
      if (aged.completed.lookup (key, session.baseOffset)).isSome then
        some ({ shared with udp := aged }, {})
      else
        some ({ shared with udp := aged.setSession key after },
          session.count packet) := by
  have dispatched : Handler.dispatch config packet = .next .dataCompleted := by
    unfold Handler.dispatch
    rw [kind]
  have known : (shared.udp.ageCompleted moment.instant).isCompleted config
      source packet = _ := isCompleted_admitted pieces admits keyed
  rw [Handler.meter_next 7 (by rw [Handler.run, dispatched])]
  generalize aged : ({ shared with
    udp := shared.udp.ageCompleted moment.instant } : Shared) = old
  have live : old.udp.incoming.lookup key = some session := by
    rw [← aged]
    exact found
  obtain ⟨reply, stored⟩ : ∃ reply, Handler.runDataSession config source
      moment.instant packet old = (_, .answer reply) :=
    runDataSession_admitted keyed live admits
  have udp : shared.udp.ageCompleted moment.instant = old.udp := by
    rw [← aged]
  rw [udp] at known
  simp only [udp]
  split
  · rename_i completed
    rw [Handler.meter_answer 6 (by
      simp only [Handler.run, known, completed, if_true]
      rfl)]
    change some (old, ({} : DataCounters) + {}) = some _
    rw [← aged]
    rfl
  · rename_i missing
    rw [Handler.meter_next 6 (by
        simp only [Handler.run, known, missing]
        rfl),
      Handler.meter_answer 5 (by rw [Handler.run, stored]),
      adds_dataSession keyed live admits]
    change some (_, ({} : DataCounters) + ({} + session.count packet)) = some _
    rw [DataCounters.empty_add, DataCounters.empty_add, ← aged]

theorem meter_batch {moment : Moment} {first : Packet} {rest : List Packet}
    (keyed : first.key source = key)
    (found : shared.udp.incoming.lookup key = some session)
    (pieces : session.payloadSize = config.udpPayloadBytes)
    (admits : ∀ packet ∈ first :: rest, session.Admits packet) :
    Handler.meter config blake3 source moment 8
        { packet := first, rest := rest, stage := .batchCompleted } shared =
      let after := ((first :: rest).foldl IncomingSession.take session).retime
        moment.instant
      if (shared.udp.completed.lookup (key, session.baseOffset)).isSome then
        some (shared, {})
      else
        some ({ shared with udp := shared.udp.setSession key after },
          session.tally (first :: rest)) := by
  have known : shared.udp.isCompleted config source first = _ :=
    isCompleted_admitted pieces (admits first (by simp)) keyed
  simp only
  split
  · rename_i completed
    rw [Handler.meter_answer 7 (by
      simp only [Handler.run, known, completed, if_true]
      rfl)]
    rfl
  · rename_i missing
    have stored : ∃ reply, Handler.runBatchSession config source
        moment.instant first rest shared = ({ shared with
          udp := shared.udp.setSession key
            (((first :: rest).foldl IncomingSession.take session).retime
              moment.instant) }, .answer (some reply)) := by
      apply Exists.intro
      unfold Handler.runBatchSession
      rw [keyed, found]
      simp only [IncomingSession.receiveAll_eq admits]
      rfl
    obtain ⟨reply, stored⟩ := stored
    have counted : Handler.adds source
        { packet := first, rest := rest, stage := .batchSession } shared =
          session.tally (first :: rest) := by
      unfold Handler.adds
      dsimp only
      rw [keyed, found]
      dsimp only
      rw [IncomingSession.countAll_eq admits, DataCounters.empty_add]
    rw [Handler.meter_next 7 (by
        simp only [Handler.run, known, missing]
        rfl),
      Handler.meter_answer 6 (by rw [Handler.run, stored]), counted]
    change some (_, ({} : DataCounters) + _) = some _
    rw [DataCounters.empty_add]

/-- Packets of one live session, which refuses none of them. -/
structure Together (source : SocketAddr) (key : SessionKey)
    (session : IncomingSession) (packets : List Packet) : Prop where
  data : ∀ packet ∈ packets, packet.kind = .data
  keyed : ∀ packet ∈ packets, packet.key source = key
  admits : ∀ packet ∈ packets, session.Admits packet

theorem Together.next {rest : List Packet} {instant : Nat}
    (together : Together source key session (packet :: rest)) :
    Together source key ((session.take packet).retime instant)
      rest where
  data := fun other member => together.data other (List.mem_cons_of_mem _ member)
  keyed := fun other member =>
    together.keyed other (List.mem_cons_of_mem _ member)
  admits := fun other member =>
    ((together.admits other (List.mem_cons_of_mem _ member)).alike
      (together.admits packet (by simp)).alike_take).alike
        (IncomingSession.alike_retime _ _)

theorem take_pieces : (session.take packet).payloadSize =
    session.payloadSize := by
  unfold IncomingSession.take
  split <;> rfl

theorem take_baseOffset : (session.take packet).baseOffset =
    session.baseOffset := by
  unfold IncomingSession.take
  split <;> rfl

def singly (arrivals : List (Moment × Packet)) : List (Moment × Handler) :=
  arrivals.map fun arrival => (arrival.1, { packet := arrival.2 })

theorem meterAll_cons {moment : Moment} {rest : List (Moment × Packet)}
    {next : Shared} {counters : DataCounters}
    (here : Handler.meter config blake3 source moment 8 { packet := packet }
      shared = some (next, counters)) :
    Handler.meterAll config blake3 source (singly ((moment, packet) :: rest))
        shared =
      (Handler.meterAll config blake3 source (singly rest) next).map
        fun result => (result.1, counters + result.2) := by
  simp only [singly, List.map_cons, Handler.meterAll]
  rw [here]
  simp only [Option.bind_eq_bind, Option.bind_some]
  cases Handler.meterAll config blake3 source (rest.map fun arrival =>
    (arrival.1, ({ packet := arrival.2 } : Handler))) next with
  | none => rfl
  | some result => rfl

def TakesAll (config : Config) (blake3 : List UInt8 → Digest)
    (source : SocketAddr) (key : SessionKey) (session : IncomingSession)
    (arrivals : List (Moment × Packet)) (shared : Shared) : Prop :=
  ∃ final instant, Handler.meterAll config blake3 source (singly arrivals)
      shared = some (final, session.tally (arrivals.map Prod.snd)) ∧
    final.udp.incoming.lookup key =
      some (((arrivals.map Prod.snd).foldl IncomingSession.take
        session).retime instant)

/-- The first packet is taken when the daemon forgets or never knew a completion
of the session. -/
theorem TakesAll.cons {moment : Moment} {rest : List (Moment × Packet)}
    (pieces : session.payloadSize = config.udpPayloadBytes)
    (together : Together source key session
      (packet :: rest.map Prod.snd))
    (found : shared.udp.incoming.lookup key = some session)
    (aged : (shared.udp.ageCompleted moment.instant).completed.lookup
      (key, session.baseOffset) = none)
    (others : ∀ next : Shared, ∀ after : IncomingSession,
      after.payloadSize = config.udpPayloadBytes →
      Together source key after (rest.map Prod.snd) →
      next.udp.incoming.lookup key = some after →
      next.udp.completed.lookup (key, after.baseOffset) = none →
      TakesAll config blake3 source key after rest next) :
    TakesAll config blake3 source key session ((moment, packet) :: rest)
      shared := by
  have here : Handler.meter config blake3 source moment 8
      { packet := packet } shared = _ :=
    meter_data (together.data packet (by simp))
      (together.keyed packet (by simp)) found pieces
      (together.admits packet (by simp))
  simp only [aged, Option.isSome_none] at here
  generalize stored : (session.take packet).retime moment.instant = after
    at here
  generalize later : ({ shared with
      udp := (shared.udp.ageCompleted moment.instant).setSession key
        after } : Shared) = next at here
  have kept : after.payloadSize = config.udpPayloadBytes := by
    rw [← stored]
    exact take_pieces.trans pieces
  have live : next.udp.incoming.lookup key = some after := by
    rw [← later, UdpServerState.setSession, Table.lookup_insert_eq,
      if_pos rfl]
  have unknown : next.udp.completed.lookup (key, after.baseOffset) =
      none := by
    have based : after.baseOffset = session.baseOffset := by
      rw [← stored]
      exact take_baseOffset
    rw [based, ← later]
    exact aged
  obtain ⟨final, instant, ran, result⟩ :=
    others next after kept (stored ▸ together.next) live unknown
  refine ⟨final, instant, ?_, ?_⟩
  · rw [meterAll_cons here, ran, ← stored, IncomingSession.tally_retime]
    rfl
  · rw [result, ← stored, IncomingSession.foldl_retime]
    rfl

theorem takesAll {arrivals : List (Moment × Packet)}
    (pieces : session.payloadSize = config.udpPayloadBytes)
    (together : Together source key session
      (arrivals.map Prod.snd))
    (found : shared.udp.incoming.lookup key = some session)
    (missing : shared.udp.completed.lookup (key, session.baseOffset) =
      none) :
    TakesAll config blake3 source key session arrivals shared := by
  induction arrivals generalizing session shared with
  | nil => exact ⟨shared, session.lastActivity, rfl, found⟩
  | cons arrival rest ih =>
      apply TakesAll.cons pieces together found
        (Table.lookup_retain_none missing)
      intro next after kept others live unknown
      exact ih kept others live unknown

/-- A completion of the session is still fresh whenever a packet arrives. -/
def Fresh (arrivals : List (Moment × Packet)) (completed : Nat) : Prop :=
  ∀ arrival ∈ arrivals, arrival.1.instant - completed < completedExpiryMs

instance (arrivals : List (Moment × Packet)) (completed : Nat) :
    Decidable (Fresh arrivals completed) :=
  inferInstanceAs (Decidable (∀ arrival ∈ arrivals, _))

theorem Together.tail {rest : List Packet}
    (together : Together source key session (packet :: rest)) :
    Together source key session rest where
  data := fun other member =>
    together.data other (List.mem_cons_of_mem _ member)
  keyed := fun other member =>
    together.keyed other (List.mem_cons_of_mem _ member)
  admits := fun other member =>
    together.admits other (List.mem_cons_of_mem _ member)

/-- While a fresh completion of the session is known, a packet is only
acknowledged. -/
theorem meter_fresh {moment : Moment} {completed : Nat}
    (pieces : session.payloadSize = config.udpPayloadBytes)
    (together : Together source key session [packet])
    (found : shared.udp.incoming.lookup key = some session)
    (known : shared.udp.completed.lookup (key, session.baseOffset) =
      some completed)
    (fresh : moment.instant - completed < completedExpiryMs) :
    ∃ next, Handler.meter config blake3 source moment 8 { packet := packet }
        shared = some (next, {}) ∧
      next.udp.incoming.lookup key = some session ∧
      next.udp.completed.lookup (key, session.baseOffset) =
        some completed := by
  have aged : (shared.udp.ageCompleted moment.instant).completed.lookup
      (key, session.baseOffset) = some completed :=
    Table.lookup_retain.mpr ⟨known, decide_eq_true fresh⟩
  refine ⟨{ shared with udp := shared.udp.ageCompleted moment.instant }, ?_,
    found, aged⟩
  rw [meter_data (together.data packet (by simp))
    (together.keyed packet (by simp)) found pieces
    (together.admits packet (by simp))]
  simp only [aged, Option.isSome_some, if_true]

theorem meterAll_fresh {arrivals : List (Moment × Packet)} {completed : Nat}
    (pieces : session.payloadSize = config.udpPayloadBytes)
    (together : Together source key session
      (arrivals.map Prod.snd))
    (found : shared.udp.incoming.lookup key = some session)
    (known : shared.udp.completed.lookup (key, session.baseOffset) =
      some completed) (fresh : Fresh arrivals completed) :
    ∃ final, Handler.meterAll config blake3 source (singly arrivals) shared =
        some (final, {}) ∧
      final.udp.incoming.lookup key = some session := by
  induction arrivals generalizing shared with
  | nil => exact ⟨shared, rfl, found⟩
  | cons arrival rest ih =>
      obtain ⟨moment, packet⟩ := arrival
      have alone : Together source key session [packet] :=
        ⟨fun other member => together.data other (by simp_all),
          fun other member => together.keyed other (by simp_all),
          fun other member => together.admits other (by simp_all)⟩
      obtain ⟨next, here, live, still⟩ := meter_fresh pieces alone found known
        (fresh (moment, packet) (by simp))
      obtain ⟨final, ran, result⟩ := ih together.tail live still
        fun arrival member => fresh arrival (List.mem_cons_of_mem _ member)
      refine ⟨final, ?_, result⟩
      rw [meterAll_cons here, ran]
      rfl

def TakesSome (config : Config) (blake3 : List UInt8 → Digest)
    (source : SocketAddr) (key : SessionKey) (session : IncomingSession)
    (arrivals : List (Moment × Packet)) (shared : Shared) : Prop :=
  ∃ final counters last, Handler.meterAll config blake3 source
      (singly arrivals) shared = some (final, counters) ∧
    final.udp.incoming.lookup key = some last ∧
    session.receivedCount <
      last.receivedCount + counters.duplicateDatagrams

theorem TakesAll.some_ {arrivals : List (Moment × Packet)}
    (all : TakesAll config blake3 source key session arrivals shared)
    (nonempty : arrivals ≠ []) :
    TakesSome config blake3 source key session arrivals shared := by
  obtain ⟨final, instant, ran, result⟩ := all
  refine ⟨final, _, _, ran, result, ?_⟩
  have counted := @IncomingSession.counted_tally session
    (arrivals.map Prod.snd)
  have positive := List.length_pos_of_ne_nil nonempty
  rw [List.length_map] at counted
  change session.receivedCount <
    ((arrivals.map Prod.snd).foldl IncomingSession.take
      session).receivedCount + _
  omega

/-- The first packet that finds the completion of the session stale makes the
daemon forget it, and is taken. -/
theorem meterAll_stale {arrivals : List (Moment × Packet)} {completed : Nat}
    (pieces : session.payloadSize = config.udpPayloadBytes)
    (together : Together source key session
      (arrivals.map Prod.snd))
    (found : shared.udp.incoming.lookup key = some session)
    (known : shared.udp.completed.lookup (key, session.baseOffset) =
      some completed) (stale : ¬Fresh arrivals completed) :
    TakesSome config blake3 source key session arrivals shared := by
  induction arrivals generalizing shared with
  | nil =>
      refine absurd ?_ stale
      intro arrival member
      cases member
  | cons arrival rest ih =>
      obtain ⟨moment, packet⟩ := arrival
      by_cases fresh : moment.instant - completed < completedExpiryMs
      · have alone : Together source key session [packet] :=
          ⟨fun other member => together.data other (by simp_all),
            fun other member => together.keyed other (by simp_all),
            fun other member => together.admits other (by simp_all)⟩
        obtain ⟨next, here, live, still⟩ :=
          meter_fresh pieces alone found known fresh
        have later : ¬Fresh rest completed := by
          intro all
          apply stale
          intro arrival member
          rcases List.mem_cons.mp member with rfl | member
          · exact fresh
          · exact all arrival member
        obtain ⟨final, counters, last, ran, result, more⟩ :=
          ih together.tail live still later
        refine ⟨final, counters, last, ?_, result, more⟩
        rw [meterAll_cons here, ran, Option.map_some,
          DataCounters.empty_add]
      · have aged : (shared.udp.ageCompleted moment.instant).completed.lookup
            (key, session.baseOffset) = none := by
          rw [Option.eq_none_iff_forall_not_mem]
          intro time retained
          obtain ⟨same, young⟩ := Table.lookup_retain.mp
            (Option.mem_def.mp retained)
          obtain rfl := Option.some.inj (known.symm.trans same)
          exact fresh (of_decide_eq_true young)
        have all : TakesAll config blake3 source key session
            ((moment, packet) :: rest) shared := by
          apply TakesAll.cons pieces together found aged
          intro next after kept others live unknown
          exact takesAll kept others live unknown
        exact all.some_ (by simp)

/-- What the two paths are compared on: the progress of the session, and what
is added to the counters of its job. -/
def observe (key : SessionKey) (result : Shared × DataCounters) :
    Option IncomingSession.Progress × DataCounters :=
  ((result.1.udp.incoming.lookup key).map IncomingSession.progress, result.2)

theorem Together.sameData {packets : List Packet}
    (together : Together source key session packets) {first : Packet}
    (firstMember : first ∈ packets) (member : packet ∈ packets) :
    SameData first packet := by
  have same := (together.keyed packet member).trans
    (together.keyed first firstMember).symm
  obtain ⟨_, transfer, block⟩ := SessionKey.mk.inj same
  have object := (ensure_ok.mp (together.admits packet member).1).1
  have firstObject := (ensure_ok.mp (together.admits first firstMember).1).1
  exact ⟨together.data packet member, transfer,
    object.trans firstObject.symm, block⟩

theorem Together.udpDatagrams {first : Packet} {rest : List Packet}
    (together : Together source key session (first :: rest))
    (several : 1 < (first :: rest).length) :
    udpDatagrams ((first :: rest).map .ok) =
      [{ packet := first, rest := rest, stage := .batchCompleted }] := by
  have all : ∀ packet ∈ first :: rest, SameData first packet :=
    fun packet member => together.sameData (by simp) member
  unfold TrainPool.udpDatagrams
  rw [validPackets_ok]
  simp only [List.length_map]
  rw [if_pos ⟨several, all_isOk _, all⟩]

def batched (moment : Moment) (packets : List Packet) :
    List (Moment × Handler) :=
  (udpDatagrams (packets.map .ok)).map (moment, ·)

theorem meterAll_batched {moment : Moment} {packets : List Packet}
    (several : 1 < packets.length)
    (pieces : session.payloadSize = config.udpPayloadBytes)
    (together : Together source key session packets)
    (found : shared.udp.incoming.lookup key = some session) :
    Handler.meterAll config blake3 source (batched moment packets) shared =
      let after := (packets.foldl IncomingSession.take session).retime
        moment.instant
      if (shared.udp.completed.lookup (key, session.baseOffset)).isSome then
        some (shared, {})
      else
        some ({ shared with udp := shared.udp.setSession key after },
          session.tally packets) := by
  cases packets with
  | nil => simp at several
  | cons first rest =>
      rw [batched, together.udpDatagrams several]
      simp only [List.map_cons, List.map_nil, Handler.meterAll]
      rw [meter_batch (together.keyed first (by simp)) found pieces
        together.admits]
      simp only
      split
      · rfl
      · rfl

end Paths

/-- At every moment of every run, DATA packets of a live session that refuses
none of them have the same effect as a batch and one by one, unless a completion
of the session expires by the time one of them arrives: the batched path does
not forget expired completions. -/
theorem Daemon.batch_agrees_iff {config : Config}
    {blake3 : List UInt8 → Digest} {self : Identity}
    {events : List DaemonEvent} {daemon : Daemon}
    (reached : run (Daemon.step config blake3 self) Daemon.empty events =
      some daemon)
    {source : SocketAddr} {key : SessionKey} {session : IncomingSession}
    (live : daemon.shared.udp.incoming.lookup key = some session)
    {arrivals : List (Moment × Packet)} (several : 2 ≤ arrivals.length)
    (together : Together source key session (arrivals.map Prod.snd))
    (moment : Moment) :
    ∃ batch single,
      Handler.meterAll config blake3 source
          (batched moment (arrivals.map Prod.snd)) daemon.shared =
        some batch ∧
      Handler.meterAll config blake3 source (singly arrivals) daemon.shared =
        some single ∧
      (observe key batch = observe key single ↔
        ∀ completed, daemon.shared.udp.completed.lookup
            (key, session.baseOffset) = some completed →
          Fresh arrivals completed) := by
  have formed := (Daemon.run_formed Daemon.empty_formed reached).sessions
  have pieces := (formed key session live).pieces
  have many : 1 < (arrivals.map Prod.snd).length := by
    rwa [List.length_map]
  have batch : Handler.meterAll config blake3 source
      (batched moment (arrivals.map Prod.snd)) daemon.shared = _ :=
    meterAll_batched many pieces together live
  cases known : daemon.shared.udp.completed.lookup
      (key, session.baseOffset) with
  | none =>
      simp only [known, Option.isSome_none] at batch
      obtain ⟨final, instant, ran, result⟩ : TakesAll config blake3 source key
          session arrivals daemon.shared := takesAll pieces together live known
      refine ⟨_, _, batch, ran, ?_⟩
      apply iff_of_true
      · unfold observe
        rw [result, UdpServerState.setSession, Table.lookup_insert_eq,
          if_pos rfl]
        rfl
      · intro completed same
        cases same
  | some completed =>
      simp only [known, Option.isSome_some, if_true] at batch
      by_cases fresh : Fresh arrivals completed
      · obtain ⟨final, ran, result⟩ : ∃ final, Handler.meterAll config blake3
            source (singly arrivals) daemon.shared = some (final, {}) ∧ _ :=
          meterAll_fresh pieces together live known fresh
        refine ⟨_, _, batch, ran, ?_⟩
        apply iff_of_true
        · unfold observe
          rw [result, live]
        · intro other same
          cases same
          exact fresh
      · obtain ⟨final, counters, last, ran, result, more⟩ :
          TakesSome config blake3 source key session arrivals daemon.shared :=
            meterAll_stale pieces together live known fresh
        refine ⟨_, _, batch, ran, ?_⟩
        apply iff_of_false
        · intro same
          unfold observe at same
          rw [result, live] at same
          obtain ⟨progress, nothing⟩ := Prod.mk.inj same
          obtain ⟨_, _, count, _⟩ := IncomingSession.Progress.mk.inj
            (Option.some.inj progress)
          have zero : counters = {} := nothing.symm
          rw [zero, ← count] at more
          exact Nat.lt_irrefl _ more
        · intro all
          exact fresh (all completed rfl)

/-! A transfer of two chunks of one block.  The FIN of the first names the
offset of the second. -/

def twoChunkHandle : MemoryBlockHandle :=
  { abcHandle with size := 6 }

def twoChunkPacket (kind : Kind) (sequence offset : Nat)
    (payload : List UInt8) : Packet :=
  { Packet.forHandle kind twoChunkHandle 9 with
    sequenceId := sequence
    offset := offset
    payload := payload }

def twoChunkStart (offset : Nat) : Packet :=
  twoChunkPacket .start 1 offset
    (Bytes.toBigEndian 8 3 ++ (abcHash []).toList)

def handleOnly (task steps : Nat) : List DaemonEvent :=
  List.replicate steps (.handle task {})

def twoChunkRun : List DaemonEvent :=
  [.request (.allocateLocal twoChunkHandle true true),
    .receive 1 [.ok (twoChunkStart 0)]] ++ handleOnly 0 4 ++
  [.receive 1 [.ok (twoChunkPacket .data 0 0 [97, 98, 99])]] ++
    handleOnly 1 3 ++
  [.receive 1 [.ok (twoChunkPacket .fin 1 3 (abcHash []).toList)]] ++
    handleOnly 2 8 ++
  [.receive 1 [.ok (twoChunkStart 3)]] ++ handleOnly 3 4

def twoCopies (instant : Nat) : List (Moment × Packet) :=
  List.replicate 2 (⟨1, instant, {}⟩,
    twoChunkPacket .data 0 3 [97, 98, 99])

def twoChunkSession : IncomingSession where
  object := 3
  lease := 5
  generation := 0
  baseOffset := 3
  blockSize := 6
  payloadSize := 1200
  packetCount := 1
  checksum := (abcHash []).toList
  buffer := [0, 0, 0]
  received := [false]
  receivedCount := 0
  lastSequence := none
  lastActivity := 0

theorem twoCopies_together (instant : Nat) :
    Together 1 ⟨1, 9, 7⟩ twoChunkSession
      ((twoCopies instant).map Prod.snd) := by
  have all : ∀ packet ∈ (twoCopies instant).map Prod.snd,
      packet = twoChunkPacket .data 0 3 [97, 98, 99] := by
    simp [twoCopies]
  refine ⟨?_, ?_, ?_⟩
  all_goals
    intro packet member
    rw [all packet member]
  · rfl
  · rfl
  · exact ⟨rfl, rfl⟩

theorem batch_agrees_iff_twoCopies :
    ∃ daemon batch single,
      run (Daemon.step {} abcHash ⟨2, 20⟩) Daemon.empty twoChunkRun =
          some daemon ∧
        Handler.meterAll {} abcHash 1
            (batched ⟨1, 2000, {}⟩ ((twoCopies 2000).map Prod.snd))
            daemon.shared = some batch ∧
        Handler.meterAll {} abcHash 1 (singly (twoCopies 2000))
            daemon.shared = some single ∧
        observe ⟨1, 9, 7⟩ batch = observe ⟨1, 9, 7⟩ single := by
  obtain ⟨batch, single, together, one, agree⟩ :=
    @Daemon.batch_agrees_iff {} abcHash ⟨2, 20⟩ twoChunkRun _ rfl 1 ⟨1, 9, 7⟩
      twoChunkSession rfl (twoCopies 2000) (Nat.le_refl 2)
      (twoCopies_together 2000) ⟨1, 2000, {}⟩
  refine ⟨_, batch, single, rfl, together, one, agree.mpr ?_⟩
  intro completed known
  obtain rfl : 0 = completed := Option.some.inj known
  decide

set_option maxRecDepth 4000 in
/-- Two minutes after the FIN, the batch is acknowledged and dropped, and its
packets would have been stored one by one. -/
theorem expired_completion_differs :
    ∃ daemon batch single,
      run (Daemon.step {} abcHash ⟨2, 20⟩) Daemon.empty twoChunkRun =
          some daemon ∧
        daemon.shared.udp.incoming.lookup ⟨1, 9, 7⟩ =
          some twoChunkSession ∧
        Together 1 ⟨1, 9, 7⟩ twoChunkSession
          ((twoCopies 120000).map Prod.snd) ∧
        Handler.meterAll {} abcHash 1
            (batched ⟨1, 120000, {}⟩ ((twoCopies 120000).map Prod.snd))
            daemon.shared = some batch ∧
        Handler.meterAll {} abcHash 1 (singly (twoCopies 120000))
            daemon.shared = some single ∧
        observe ⟨1, 9, 7⟩ batch ≠ observe ⟨1, 9, 7⟩ single :=
  ⟨_, _, _, rfl, rfl, twoCopies_together 120000, rfl, rfl, by decide⟩

end TrainPool
