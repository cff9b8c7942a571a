import TrainPool.Library.Execution
import TrainPool.Library.Gauge
import TrainPool.Runtime.Udp
import TrainPool.Transport.Sender

namespace TrainPool

open Execution Gauge

/-! The payload-sized buffers of a daemon and the reservations that stand for
them in `RamAccounting::owned`.  A reservation is given back when the value
that owns it is dropped. -/

/-- How far a relayed `WriteChunk` is: it has reserved its length, it holds the
payload, or it has dropped its reservation and sends its last answer. -/
inductive WriteRelay where
  | reserved
  | holding
  | answering
  deriving DecidableEq, Repr

/-- Those who hold buffers or reservations: a `RamBlock` with the references to
it, a staging reservation of the SDK, an `IncomingSession` in the map or taken
by its FIN, a relayed chunk, and the task that answers a read request. -/
inductive Holder where
  | block (id : Uuid) (size : Nat) (mapped : Bool) (references : Nat)
  | staging (id : Uuid) (bytes : Nat)
  | session (key : SessionKey) (length : Nat)
  | taken (key : SessionKey) (length : Nat)
  | writeRelay (length : Nat) (stage : WriteRelay)
  | readRelay (length : Nat) (payload : Option Nat)
  | response (length : Nat)
  deriving DecidableEq

namespace Holder

def reservation : Holder → Nat
  | .block _ size _ _ => size
  | .staging _ bytes => bytes
  | .session _ length => length
  | .taken _ length => length
  | .writeRelay length .reserved => length
  | .writeRelay length .holding => length
  | .writeRelay _ .answering => 0
  | .readRelay length _ => length
  | .response _ => 0

def buffer : Holder → Nat
  | .block _ size _ _ => size
  | .staging _ _ => 0
  | .session _ length => length
  | .taken _ length => length
  | .writeRelay _ .reserved => 0
  | .writeRelay length .holding => length
  | .writeRelay length .answering => length
  | .readRelay _ payload => payload.getD 0
  | .response length => length

def isMapped : Holder → Bool
  | .block _ _ mapped _ => mapped
  | _ => false

def isMappedAs (id : Uuid) : Holder → Bool
  | .block other _ mapped _ => mapped && other = id
  | _ => false

def isSession : Holder → Bool
  | .session _ _ => true
  | _ => false

def isSessionOf (keys : List SessionKey) : Holder → Bool
  | .session key _ => key ∈ keys
  | _ => false

def isResponse : Holder → Bool
  | .response _ => true
  | _ => false

end Holder

structure Buffers where
  owned : Nat := 0
  budget : Nat := 0
  activeReads : Nat := 0
  holders : List Holder := []
  deriving DecidableEq

/-- Where a relayed read gets its bytes from.  The reader of a UDP transfer
takes the length that START announces. -/
inductive ReadOrigin where
  | localBlock
  | tcp
  | udp (announced : Nat)
  deriving DecidableEq

/-- `admitted` is the outcome of the checks on the block, `expired` the sessions
that have not been active for too long.  A handler that fails drops what it
holds: `interrupted` ends a relay at any point. -/
inductive BufferEvent where
  | refreshMemory (budget : Nat)
  | allocate (id : Uuid) (size : Nat)
  | get (index : Nat)
  | dropReference (index : Nat)
  | unmap (index : Nat)
  | reserveStaging (id : Uuid) (bytes : Nat)
  | releaseStaging (index : Nat)
  | writeChunk (length : Nat)
  | readChunk (length : Nat)
  | receivePayload (index : Nat)
  | answer (index : Nat)
  | fetch (index : Nat) (origin : ReadOrigin)
  | interrupted (index : Nat)
  | start (source : SocketAddr) (packet : Packet) (admitted : Bool)
      (expired : List SessionKey)
  | fin (index : Nat)
  | finished (index : Nat)
  | abort (index : Nat)
  | readRequest (packet : Packet) (admitted : Bool)
  | responded (index : Nat)
  deriving DecidableEq

namespace Buffers

/-- `RamAccounting::reserve` for a new holder, who appears only if the budget
allows it. -/
def reserve (holder : Holder) (state : Buffers) : Buffers :=
  if state.owned + holder.reservation ≤ state.budget then
    { state with
      owned := state.owned + holder.reservation
      holders := state.holders ++ [holder] }
  else
    state

/-- A holder is replaced by others; its reservation is dropped unless they keep
it. -/
def replace (index : Nat) (holder : Holder) (others : List Holder)
    (state : Buffers) : Buffers :=
  { state with
    owned := state.owned -
      (holder.reservation - total Holder.reservation others)
    holders := state.holders.eraseIdx index ++ others }

def expireSessions (expired : List SessionKey) (state : Buffers) : Buffers :=
  { state with
    owned := state.owned - total Holder.reservation
      (state.holders.filter (·.isSessionOf expired))
    holders := state.holders.filter (!·.isSessionOf expired) }

variable (config : Config)

def startSession (key : SessionKey) (length : Nat) (state : Buffers) :
    Buffers :=
  if state.holders.any (·.isSessionOf [key]) then
    state
  else if state.holders.countP Holder.isSession < config.udpMaxSessions then
    state.reserve (.session key length)
  else
    state

def grants (packet : Packet) (admitted : Bool) (state : Buffers) : Prop :=
  checkRead config packet = .ok () ∧ admitted = true ∧
    state.activeReads < config.udpMaxSessions

instance (packet : Packet) (admitted : Bool) (state : Buffers) :
    Decidable (state.grants config packet admitted) :=
  inferInstanceAs (Decidable (_ ∧ _ ∧ _))

def step (state : Buffers) : BufferEvent → Option Buffers
  | .refreshMemory budget => some { state with budget := budget }
  | .allocate id size =>
      if state.holders.any (·.isMappedAs id) then
        some state
      else if state.holders.countP Holder.isMapped < 100000 then
        some (state.reserve (.block id size true 0))
      else
        some state
  | .get index =>
      match state.holders[index]? with
      | some (.block id size true references) =>
          some (state.replace index (.block id size true references)
            [.block id size true (references + 1)])
      | _ => none
  | .dropReference index =>
      match state.holders[index]? with
      | some (.block id size mapped (references + 1)) =>
          some (state.replace index (.block id size mapped (references + 1))
            (if mapped || 0 < references then
              [.block id size mapped references] else []))
      | _ => none
  | .unmap index =>
      match state.holders[index]? with
      | some (.block id size true references) =>
          some (state.replace index (.block id size true references)
            (if 0 < references then
              [.block id size false references] else []))
      | _ => none
  | .reserveStaging id bytes =>
      if bytes ≤ config.chunkBytes then
        some (state.reserve (.staging id bytes))
      else
        some state
  | .releaseStaging index =>
      match state.holders[index]? with
      | some (.staging id bytes) =>
          some (state.replace index (.staging id bytes) [])
      | _ => none
  | .writeChunk length =>
      if 0 < length ∧ length ≤ config.chunkBytes then
        some (state.reserve (.writeRelay length .reserved))
      else
        some state
  | .readChunk length =>
      if 0 < length ∧ length ≤ config.chunkBytes then
        some (state.reserve (.readRelay length none))
      else
        some state
  | .receivePayload index =>
      match state.holders[index]? with
      | some (.writeRelay length .reserved) =>
          some (state.replace index (.writeRelay length .reserved)
            [.writeRelay length .holding])
      | _ => none
  | .answer index =>
      match state.holders[index]? with
      | some (.writeRelay length .holding) =>
          -- The reservation is dropped before the last answer is sent, the
          -- payload when the handler returns.
          some (state.replace index (.writeRelay length .holding)
            [.writeRelay length .answering])
      | _ => none
  | .fetch index origin =>
      match state.holders[index]? with
      | some (.readRelay length none) =>
          match origin with
          | .localBlock | .tcp =>
              some (state.replace index (.readRelay length none)
                [.readRelay length (some length)])
          | .udp announced =>
              if announced ≤ config.chunkBytes then
                some (state.replace index (.readRelay length none)
                  [.readRelay length (some announced)])
              else
                none
      | _ => none
  | .interrupted index =>
      match state.holders[index]? with
      | some (.writeRelay length stage) =>
          some (state.replace index (.writeRelay length stage) [])
      | some (.readRelay length payload) =>
          some (state.replace index (.readRelay length payload) [])
      | _ => none
  | .start source packet admitted expired =>
      match checkStart config packet with
      | .error _ => some state
      | .ok _ =>
          if admitted then
            some ((state.expireSessions expired).startSession config
              (packet.key source)
              (Bytes.fromBigEndian (packet.payload.take 8)))
          else
            some state
  | .fin index =>
      match state.holders[index]? with
      | some (.session key length) =>
          some (state.replace index (.session key length)
            [.taken key length])
      | _ => none
  | .finished index =>
      match state.holders[index]? with
      | some (.taken key length) =>
          some (state.replace index (.taken key length) [])
      | _ => none
  | .abort index =>
      match state.holders[index]? with
      | some (.session key length) =>
          some (state.replace index (.session key length) [])
      | _ => none
  | .readRequest packet admitted =>
      if state.grants config packet admitted then
        -- The copy of the payload is not reserved.
        some { state with
          activeReads := state.activeReads + 1
          holders := state.holders ++ [.response packet.sequenceId] }
      else
        some state
  | .responded index =>
      match state.holders[index]? with
      | some (.response length) =>
          some { state.replace index (.response length) [] with
            activeReads := state.activeReads - 1 }
      | _ => none

structure Tallied (state : Buffers) : Prop where
  owned : state.owned = total Holder.reservation state.holders
  sessions : state.holders.countP Holder.isSession ≤ config.udpMaxSessions
  reads : state.activeReads = state.holders.countP Holder.isResponse
  limit : state.activeReads ≤ config.udpMaxSessions

def Covered (state : Buffers) : Prop :=
  ∀ holder ∈ state.holders, holder.buffer ≤ holder.reservation

variable {config} {state next : Buffers} {event : BufferEvent}
  {holder : Holder} {others : List Holder} {index : Nat}

theorem Covered.total_le (covered : state.Covered) :
    total Holder.buffer state.holders ≤
      total Holder.reservation state.holders :=
  total_mono covered

theorem reserve_tallied (tallied : Tallied config state)
    (room : holder.isSession = true →
      state.holders.countP Holder.isSession < config.udpMaxSessions)
    (other : holder.isResponse = false) :
    Tallied config (state.reserve holder) := by
  unfold reserve
  split
  · refine ⟨?_, ?_, ?_, tallied.limit⟩
    · simp [tallied.owned]
    · rw [List.countP_append]
      cases kind : holder.isSession with
      | false => simpa [kind] using tallied.sessions
      | true => simpa [kind] using Nat.succ_le_of_lt (room kind)
    · simp [List.countP_append, other, tallied.reads]
  · exact tallied

theorem reserve_covered (covered : state.Covered)
    (fits : holder.buffer ≤ holder.reservation) :
    (state.reserve holder).Covered := by
  unfold reserve
  split
  · intro other listed
    rcases List.mem_append.mp listed with kept | added
    · exact covered other kept
    · obtain rfl := List.mem_singleton.mp added
      exact fits
  · exact covered

/-- The others take the place of a holder: they keep no more than its
reservation, no session but its own, and its read. -/
structure Succeeds (holder : Holder) (others : List Holder) : Prop where
  owned : total Holder.reservation others ≤ holder.reservation
  sessions : others.countP Holder.isSession ≤
    if holder.isSession then 1 else 0
  reads : others.countP Holder.isResponse =
    if holder.isResponse then 1 else 0

theorem Succeeds.nothing (other : holder.isResponse = false) :
    Succeeds holder [] :=
  ⟨Nat.zero_le _, Nat.zero_le _, by simp [other]⟩

theorem Succeeds.single {other : Holder}
    (owned : other.reservation ≤ holder.reservation)
    (sessions : other.isSession = true → holder.isSession = true)
    (reads : other.isResponse = holder.isResponse) :
    Succeeds holder [other] := by
  refine ⟨by simpa using owned, ?_, ?_⟩
  · cases session : other.isSession with
    | true => simp [session, sessions session]
    | false => simp [session]
  · cases response : other.isResponse with
    | true => simp [response, ← reads]
    | false => simp [response, ← reads]

theorem replace_tallied (tallied : Tallied config state)
    (found : state.holders[index]? = some holder)
    (succeeds : Succeeds holder others) :
    Tallied config (state.replace index holder others) := by
  have owned := @total_eraseIdx _ Holder.reservation _ _ _ found
  have sessionCount := @countP_eraseIdx _ Holder.isSession _ _ _ found
  have readCount := @countP_eraseIdx _ Holder.isResponse _ _ _ found
  obtain ⟨fits, sessions, reads⟩ := succeeds
  refine ⟨?_, ?_, ?_, tallied.limit⟩
  · have before := tallied.owned
    simp only [replace, total_append]
    omega
  · have before := tallied.sessions
    simp only [replace, List.countP_append]
    omega
  · have before := tallied.reads
    simp only [replace, List.countP_append]
    omega

theorem replace_covered (covered : state.Covered)
    (fits : ∀ other ∈ others, other.buffer ≤ other.reservation) :
    (state.replace index holder others).Covered := by
  intro other listed
  rcases List.mem_append.mp listed with kept | added
  · exact covered other (List.mem_of_mem_eraseIdx kept)
  · exact fits other added

theorem expireSessions_tallied (tallied : Tallied config state)
    (expired : List SessionKey) :
    Tallied config (state.expireSessions expired) := by
  have owned := total_filter Holder.reservation
    (·.isSessionOf expired) state.holders
  refine ⟨?_, ?_, ?_, tallied.limit⟩
  · have before := tallied.owned
    rw [owned] at before
    simp only [expireSessions, before, Nat.add_sub_cancel_left]
  · exact List.filter_sublist.countP_le.trans tallied.sessions
  · have kept : (state.holders.filter
        (!·.isSessionOf expired)).countP Holder.isResponse =
          state.holders.countP Holder.isResponse := by
      rw [List.countP_filter]
      apply List.countP_congr
      intro other listed
      cases other <;> simp [Holder.isResponse, Holder.isSessionOf]
    exact tallied.reads.trans kept.symm

theorem expireSessions_covered (covered : state.Covered)
    (expired : List SessionKey) :
    (state.expireSessions expired).Covered :=
  fun other listed => covered other (List.mem_filter.mp listed).1

theorem startSession_tallied (tallied : Tallied config state)
    (key : SessionKey) (length : Nat) :
    Tallied config (state.startSession config key length) := by
  unfold startSession
  split
  · exact tallied
  split
  · rename_i room
    exact reserve_tallied tallied (fun _ => room) rfl
  · exact tallied

theorem startSession_covered (covered : state.Covered) (key : SessionKey)
    (length : Nat) : (state.startSession config key length).Covered := by
  unfold startSession
  split
  · exact covered
  split
  · exact reserve_covered covered (Nat.le_refl _)
  · exact covered

/-- The step makes no buffer that its holder has not reserved: it grants no
read request, it does not send the last answer of a relayed write, and a
relayed read over UDP is announced at most the length it asked for. -/
def Reserves (config : Config) (state : Buffers) : BufferEvent → Prop
  | .readRequest packet admitted => ¬state.grants config packet admitted
  | .answer _ => False
  | .fetch index (.udp announced) =>
      ∀ holder ∈ state.holders[index]?, announced ≤ holder.reservation
  | _ => True

inductive Moves (config : Config) (state : Buffers) (event : BufferEvent) :
    Buffers → Prop
  | stays : Moves config state event state
  | refreshes (budget : Nat) :
      Moves config state event { state with budget := budget }
  | reserves (holder : Holder) (session : holder.isSession = false)
      (response : holder.isResponse = false)
      (fits : holder.buffer ≤ holder.reservation) :
      Moves config state event (state.reserve holder)
  | replaces (index : Nat) (holder : Holder) (others : List Holder)
      (found : state.holders[index]? = some holder)
      (succeeds : Succeeds holder others)
      (fits : Reserves config state event →
        ∀ other ∈ others, other.buffer ≤ other.reservation) :
      Moves config state event (state.replace index holder others)
  | starts (expired : List SessionKey) (key : SessionKey) (length : Nat) :
      Moves config state event
        ((state.expireSessions expired).startSession config key length)
  | grants (packet : Packet) (admitted : Bool)
      (asked : event = .readRequest packet admitted)
      (granted : state.grants config packet admitted) :
      Moves config state event { state with
        activeReads := state.activeReads + 1
        holders := state.holders ++ [.response packet.sequenceId] }
  | responds (index length : Nat)
      (found : state.holders[index]? = some (.response length)) :
      Moves config state event
        { state.replace index (.response length) [] with
          activeReads := state.activeReads - 1 }

theorem Moves.drops (found : state.holders[index]? = some holder)
    (other : holder.isResponse = false) :
    Moves config state event (state.replace index holder []) :=
  .replaces index holder [] found (.nothing other) fun _ => nofun

theorem Moves.turns {other : Holder}
    (found : state.holders[index]? = some holder)
    (succeeds : Succeeds holder [other])
    (fits : Reserves config state event → other.buffer ≤ other.reservation) :
    Moves config state event (state.replace index holder [other]) := by
  refine .replaces index holder [other] found succeeds ?_
  intro reserves member listed
  obtain rfl := List.mem_singleton.mp listed
  exact fits reserves

theorem fetch_moves {origin : ReadOrigin}
    (stepped : state.step config (.fetch index origin) = some next) :
    Moves config state (.fetch index origin) next := by
  simp only [step] at stepped
  split at stepped
  · rename_i length found
    have succeeds (payload : Option Nat) : Succeeds (.readRelay length none)
        [.readRelay length payload] :=
      .single (Nat.le_refl _) id rfl
    split at stepped
    · cases stepped
      exact .turns found (succeeds _) fun _ => Nat.le_refl _
    · cases stepped
      exact .turns found (succeeds _) fun _ => Nat.le_refl _
    · split at stepped <;> cases stepped
      refine .turns found (succeeds _) fun reserves => ?_
      exact reserves (.readRelay length none) found
  · cases stepped

theorem step_moves (stepped : state.step config event = some next) :
    Moves config state event next := by
  cases event with
  | refreshMemory budget =>
      cases stepped
      exact .refreshes budget
  | allocate id size =>
      simp only [step] at stepped
      split at stepped
      · cases stepped
        exact .stays
      split at stepped <;> cases stepped
      · exact .reserves _ rfl rfl (Nat.le_refl _)
      · exact .stays
  | reserveStaging id bytes | writeChunk length | readChunk length =>
      simp only [step] at stepped
      split at stepped <;> cases stepped
      · exact .reserves _ rfl rfl (Nat.zero_le _)
      · exact .stays
  | get index | receivePayload index | fin index =>
      simp only [step] at stepped
      split at stepped <;> cases stepped
      rename_i found
      exact .turns found (.single (Nat.le_refl _) (by simp [Holder.isSession])
        rfl) fun _ => Nat.le_refl _
  | answer index =>
      simp only [step] at stepped
      split at stepped <;> cases stepped
      rename_i found
      exact .turns found (.single (Nat.zero_le _) id rfl) False.elim
  | releaseStaging index | finished index | abort index =>
      simp only [step] at stepped
      split at stepped <;> cases stepped
      rename_i found
      exact .drops found rfl
  | dropReference index | unmap index =>
      simp only [step] at stepped
      split at stepped <;> cases stepped
      rename_i found
      split
      · exact .turns found (.single (Nat.le_refl _) id rfl)
          fun _ => Nat.le_refl _
      · exact .drops found rfl
  | fetch index origin => exact fetch_moves stepped
  | interrupted index =>
      simp only [step] at stepped
      split at stepped <;> cases stepped
      · rename_i found
        exact .drops found rfl
      · rename_i found
        exact .drops found rfl
  | start source packet admitted expired =>
      simp only [step] at stepped
      split at stepped
      · cases stepped
        exact .stays
      split at stepped <;> cases stepped
      · exact .starts expired _ _
      · exact .stays
  | readRequest packet admitted =>
      simp only [step] at stepped
      split at stepped <;> cases stepped
      · rename_i granted
        exact .grants packet admitted rfl granted
      · exact .stays
  | responded index =>
      simp only [step] at stepped
      split at stepped <;> cases stepped
      rename_i found
      exact .responds index _ found

/-- No step loses track of a reservation, and the limits hold after every
step. -/
theorem step_tallied (tallied : Tallied config state)
    (stepped : state.step config event = some next) :
    Tallied config next := by
  cases step_moves stepped with
  | stays => exact tallied
  | refreshes budget =>
      exact ⟨tallied.owned, tallied.sessions, tallied.reads, tallied.limit⟩
  | reserves holder session response fits =>
      exact reserve_tallied tallied (by simp [session]) response
  | replaces index holder others found succeeds fits =>
      exact replace_tallied tallied found succeeds
  | starts expired key length =>
      exact startSession_tallied (expireSessions_tallied tallied expired) _ _
  | grants packet admitted asked granted =>
      refine ⟨?_, ?_, ?_, ?_⟩
      · simp [Holder.reservation, tallied.owned]
      · simpa [List.countP_append, Holder.isSession] using tallied.sessions
      · simp [List.countP_append, Holder.isResponse, tallied.reads]
      · exact Nat.succ_le_of_lt granted.2.2
  | responds index length found =>
      have owned := @total_eraseIdx _ Holder.reservation _ _ _ found
      have sessions := @countP_eraseIdx _ Holder.isSession _ _ _ found
      have reads := @countP_eraseIdx _ Holder.isResponse _ _ _ found
      simp only [Holder.reservation, Holder.isSession, Holder.isResponse,
        Bool.false_eq_true, if_false, if_true] at owned sessions reads
      obtain ⟨ownedBefore, sessionsBefore, readsBefore, limit⟩ := tallied
      refine ⟨?_, ?_, ?_, ?_⟩
      · simp [replace, Holder.reservation]
        omega
      · simp [replace]
        omega
      · simp [replace]
        omega
      · simp
        omega

theorem step_covered (covered : state.Covered)
    (reserves : Reserves config state event)
    (stepped : state.step config event = some next) : next.Covered := by
  cases step_moves stepped with
  | stays => exact covered
  | refreshes budget => exact covered
  | reserves holder session response fits => exact reserve_covered covered fits
  | replaces index holder others found succeeds fits =>
      exact replace_covered covered (fits reserves)
  | starts expired key length =>
      exact startSession_covered (expireSessions_covered covered expired) _ _
  | grants packet admitted asked granted =>
      subst asked
      exact absurd granted reserves
  | responds index length found =>
      have kept : (state.replace index (.response length) []).Covered :=
        replace_covered covered nofun
      exact kept

theorem tallied_empty : Tallied config {} :=
  ⟨rfl, Nat.zero_le _, rfl, Nat.zero_le _⟩

theorem covered_empty : Covered {} := by
  intro holder listed
  cases listed

/-- In every reachable state the limits on sessions and read responses hold,
and as long as every step reserves what it allocates, the owned bytes cover
all buffers. -/
theorem buffers_accounted (config : Config) (events : List BufferEvent)
    {final : Buffers}
    (ran : run (Buffers.step config) {} events = some final) :
    (Along (Buffers.step config) (Reserves config) {} events →
      total Holder.buffer final.holders ≤ final.owned) ∧
      final.holders.countP Holder.isSession ≤ config.udpMaxSessions ∧
      final.holders.countP Holder.isResponse ≤ config.udpMaxSessions := by
  have tallied : Tallied config final :=
    run_invariant (Tallied config) (fun _ _ _ => step_tallied)
      tallied_empty ran
  refine ⟨?_, tallied.sessions, ?_⟩
  · intro along
    have covered : final.Covered :=
      run_invariant_along Covered (fun _ _ _ => step_covered)
        covered_empty along ran
    rw [tallied.owned]
    exact covered.total_le
  · rw [← tallied.reads]
    exact tallied.limit

instance Reserves.decidable (config : Config) (state : Buffers) :
    (event : BufferEvent) → Decidable (Reserves config state event)
  | .readRequest packet admitted =>
      inferInstanceAs (Decidable (¬state.grants config packet admitted))
  | .answer _ => inferInstanceAs (Decidable False)
  | .fetch index (.udp announced) =>
      inferInstanceAs (Decidable
        (∀ holder ∈ state.holders[index]?, announced ≤ holder.reservation))
  | .fetch _ .localBlock | .fetch _ .tcp | .refreshMemory _ | .allocate _ _
  | .get _ | .dropReference _ | .unmap _ | .reserveStaging _ _
  | .releaseStaging _ | .writeChunk _ | .readChunk _ | .receivePayload _
  | .interrupted _ | .start _ _ _ _ | .fin _ | .finished _ | .abort _
  | .responded _ => isTrue trivial

/-- A block, a staging reservation, a relayed write that fails after its
payload has come, a relayed read and a UDP write session. -/
def mixedBuffers : List BufferEvent :=
  [.refreshMemory 100, .allocate 7 3, .get 0, .reserveStaging 1 20,
    .writeChunk 3, .receivePayload 2, .interrupted 2,
    .readChunk 3, .fetch 2 (.udp 3),
    .start 1 (abcWrite.startPacket {} abcHash) true [], .fin 3]

def mixedFinal : Buffers where
  owned := 29
  budget := 100
  holders := [.block 7 3 true 1, .staging 1 20, .readRelay 3 (some 3),
    .taken ⟨1, 9, 7⟩ 3]

theorem buffers_accounted_mixed :
    run (Buffers.step {}) {} mixedBuffers = some mixedFinal ∧
      total Holder.buffer mixedFinal.holders ≤ mixedFinal.owned := by
  have ran : run (Buffers.step {}) {} mixedBuffers = some mixedFinal := by
    decide +kernel
  have along : Along (Buffers.step {}) (Reserves {}) {} mixedBuffers := by
    decide +kernel
  exact ⟨ran, (buffers_accounted {} mixedBuffers ran).1 along⟩

/-- A block of three bytes is read over UDP: its copy is not reserved. -/
theorem response_unaccounted :
    ∃ final, run (Buffers.step {}) {}
        [.refreshMemory 100, .allocate 7 3,
          .readRequest { Packet.forHandle .readRequest abcReady 9 with
            sequenceId := 3 } true] = some final ∧
      final.owned = 3 ∧ total Holder.buffer final.holders = 6 :=
  ⟨⟨3, 100, 1, [.block 7 3 true 0, .response 3]⟩, by decide +kernel, rfl,
    rfl⟩

end Buffers

end TrainPool
