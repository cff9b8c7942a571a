import TrainPool.Runtime.TcpBlocks

namespace TrainPool

namespace TcpData

open Execution Wire

variable {ν : Type}

/-! Where the two ends of a connection can be, with what is under way between
them. -/

def Behind (asked served : List Exchange) : Prop :=
  asked <+: served ∧ served.length ≤ asked.length + 1

theorem Behind.refl (asked : List Exchange) : Behind asked asked :=
  ⟨List.prefix_rfl, Nat.le_succ _⟩

theorem Behind.snoc (asked : List Exchange) (last : Exchange) :
    Behind asked (asked ++ [last]) :=
  ⟨List.prefix_append _ _, by simp⟩

def Call.length : Call → Nat
  | .write _ _ _ payload => payload.length
  | .read _ _ _ length => length

section

variable (crates : Crates ν)

def Said (bytes : List UInt8) : Prop :=
  bytes = [] ∨ ∃ message,
    crates.writeFrame crates.response (crates.refusal message) = .ok bytes

/-- The two ends agree: what the one has still to read is what the other has
written since, and what has been served is what has been asked, up to the
exchange that is going on. -/
inductive Script (asked : List Exchange) :
    ClientStage ν → ServerStage → List UInt8 → List UInt8 →
      List Exchange → Prop
  | greeted (nonce : Uuid) (bytes : List UInt8)
      (written : crates.writeFrame crates.challenge ⟨nonce⟩ = .ok bytes) :
      Script asked .greeted (.challenging nonce) [] bytes asked
  | answered (server client : Uuid) (auth : Wire.Authentication)
      (bytes : List UInt8)
      (written : crates.writeFrame crates.authentication auth = .ok bytes) :
      Script asked (.answered server client) (.challenging server) bytes []
        asked
  | accepted (server client : Uuid) (auth : Wire.Authenticated)
      (bytes : List UInt8)
      (written : crates.writeFrame crates.authenticated auth = .ok bytes) :
      Script asked (.answered server client) .ready [] bytes asked
  | rejected (server client : Uuid) (bytes : List UInt8)
      (said : Said crates bytes) :
      Script asked (.answered server client) .failed [] bytes asked
  | held : Script asked .held .ready [] [] asked
  -- The words of a server that has failed may pass for its consent.
  | spurned : Script asked .held .failed [] [] asked
  | finished : Script asked .finished .ready [] [] asked
  | pooled : Script asked .pooled .ready [] [] asked
  | asked (call : Call) (bytes : List UInt8)
      (written : crates.writeFrame crates.request (call.request crates) =
        .ok bytes) :
      Script asked (.announced call) .ready bytes [] asked
  | handling (call : Call) :
      Script asked (.announced call) (.handling (call.request crates)) [] []
        asked
  | waiting (call : Call) (arc : Arc) (some_ : 0 < call.length) :
      Script asked (.announced call) (.waiting (call.request crates) arc)
        [] [] asked
  | invited (handle : MemoryBlockHandle) (transferId : Uuid) (offset : Nat)
      (payload : List UInt8) (checksum : String) (arc : Arc)
      (bytes : List UInt8) (some_ : 0 < payload.length)
      (written : crates.writeFrame crates.response (.answer crates.null) =
        .ok bytes) :
      Script asked (.announced (.write handle transferId offset payload))
        (.receiving handle
          ⟨transferId, offset, payload.length, handle.size, checksum⟩ arc [])
        [] bytes asked
  | sending (handle : MemoryBlockHandle) (transferId : Uuid) (offset : Nat)
      (got rest : List UInt8) (checksum : String) (arc : Arc) :
      Script asked (.sent handle transferId offset (got ++ rest))
        (.receiving handle ⟨transferId, offset, (got ++ rest).length,
          handle.size, checksum⟩ arc got) rest [] asked
  | stored (handle : MemoryBlockHandle) (transferId : Uuid) (offset : Nat)
      (payload : List UInt8) :
      Script asked (.sent handle transferId offset payload) .stored [] []
        (asked ++ [.wrote handle.id transferId offset payload])
  | thanked (handle : MemoryBlockHandle) (transferId : Uuid) (offset : Nat)
      (payload bytes : List UInt8)
      (written : crates.writeFrame crates.response (.answer crates.null) =
        .ok bytes) :
      Script asked (.sent handle transferId offset payload) .ready [] bytes
        (asked ++ [.wrote handle.id transferId offset payload])
  | told (handle : MemoryBlockHandle) (transferId : Uuid) (offset : Nat)
      (metadata : ReadMetadata) (bytes piece : List UInt8)
      (written : crates.writeFrame crates.response
        (.answer (crates.metadata metadata)) = .ok bytes) :
      Script asked (.announced (.read handle transferId offset piece.length))
        .ready [] (bytes ++ piece) (asked ++ [.read handle.id offset piece])
  | fetching (handle : MemoryBlockHandle) (transferId : Uuid) (offset : Nat)
      (metadata : ν) (piece : List UInt8) :
      Script asked
        (.receiving handle transferId offset piece.length metadata) .ready
        [] piece (asked ++ [.read handle.id offset piece])
  | refused (call : Call) (up down : List UInt8) (served : List Exchange)
      (said : Said crates down) (behind : Behind asked served) :
      Script asked (.announced call) .failed up down served
  | undone (handle : MemoryBlockHandle) (transferId : Uuid) (offset : Nat)
      (payload up down : List UInt8) (served : List Exchange)
      (said : Said crates down) (behind : Behind asked served) :
      Script asked (.sent handle transferId offset payload) .failed up down
        served

/-- The streams of a connection carry what its ends expect.  A client that has
gone reads no more. -/
def Aligned (connection : Connection ν) : Prop :=
  ∃ up down,
    Script crates connection.asked connection.client connection.server up down
      connection.served ∧
    Frames.Carries connection.clientOpen connection.toServer up ∧
    (connection.clientOpen = true →
      Frames.Carries connection.serverOpen connection.toClient down)

structure Asks (connection next : Connection ν) : Prop where
  daemon : next.daemon = connection.daemon
  address : next.address = connection.address
  server : next.server = connection.server
  serverOpen : next.serverOpen = connection.serverOpen
  served : next.served = connection.served
  unpooled : connection.client ≠ .pooled

end

variable {crates : Crates ν} {connection next : Connection ν}

theorem Script.behind {asked served : List Exchange}
    {client : ClientStage ν} {server : ServerStage} {up down : List UInt8}
    (script : Script crates asked client server up down served) :
    Behind asked served := by
  cases script with
  | stored | thanked | told | fetching => exact .snoc _ _
  | refused _ _ _ _ _ behind => exact behind
  | undone _ _ _ _ _ _ _ _ behind => exact behind
  | _ => exact .refl _

theorem Aligned.fail (aligned : Aligned crates connection)
    (rest : List UInt8) :
    Aligned crates ({ connection with toClient := rest }.fail) := by
  obtain ⟨up, down, script, carries, _⟩ := aligned
  exact ⟨up, down, script, carries.weaken, nofun⟩

theorem listen_spec {α : Type} {form : Form α ν}
    {continue_ : Connection ν → α → Result (Connection ν)}
    (heard : connection.listen crates form continue_ = some next) :
    ∃ result rest,
      crates.readFrame form connection.toClient = some (result, rest) ∧
      ((∃ message, result = .ok message ∧
          continue_ { connection with toClient := rest } message =
            .ok next) ∨
        next = { connection with toClient := rest }.fail) := by
  obtain ⟨⟨result, rest⟩, read, heard⟩ := Option.bind_eq_some_iff.mp heard
  refine ⟨result, rest, read, ?_⟩
  dsimp only at heard
  split at heard
  · rename_i after continued
    cases heard
    obtain ⟨message, same, continued⟩ := bind_ok.mp continued
    exact .inl ⟨message, same, continued⟩
  · cases heard
    exact .inr rfl

theorem tell_spec {α : Type} (form : Form α ν) (message : α)
    (stage : ClientStage ν) (connection : Connection ν) :
    connection.tell crates form message stage = connection.fail ∨
      ∃ bytes, crates.writeFrame form message = .ok bytes ∧
        connection.tell crates form message stage = { connection with
          client := stage, toServer := connection.toServer ++ bytes } := by
  unfold Connection.tell
  split
  · rename_i bytes written
    exact .inr ⟨bytes, written, rfl⟩
  · exact .inl rfl

theorem Said.read (lawful : crates.Lawful) {writer : Bool}
    {stream down rest : List UInt8} {result : Result (Wire.Response ν)}
    (said : Said crates down) (carries : Frames.Carries writer stream down)
    (read : crates.readFrame crates.response stream = some (result, rest)) :
    ∃ message, result = .ok (crates.refusal message) := by
  rcases said with rfl | ⟨message, written⟩
  · rw [carries.nil, Crates.readFrame_nil] at read
    cases read
  · rw [← List.append_nil down] at carries
    exact ⟨message, ((lawful.refusal message).frame written carries read).1⟩

theorem Said.rest {α : Type} {form : Form α ν} {writer : Bool}
    {stream down rest : List UInt8} {result : Result α}
    (said : Said crates down) (carries : Frames.Carries writer stream down)
    (read : crates.readFrame form stream = some (result, rest)) :
    Frames.Carries writer rest [] := by
  rcases said with rfl | ⟨message, written⟩
  · rw [carries.nil, Crates.readFrame_nil] at read
    cases read
  · rw [← List.append_nil down] at carries
    exact (Crates.readFrame_carries written carries read).2

theorem silent {α : Type} {form : Form α ν} {writer : Bool}
    {stream rest : List UInt8} {result : Result α}
    (carries : Frames.Carries writer stream [])
    (read : crates.readFrame form stream = some (result, rest)) : False := by
  rw [carries.nil, Crates.readFrame_nil] at read
  cases read

section

variable {settings : Settings}

/-! The steps of the client. -/

theorem meet_aligned (lawful : crates.Lawful) {nonce : Uuid}
    (aligned : Aligned crates connection)
    (present : connection.clientOpen = true)
    (stage : connection.client = .greeted)
    (stepped : connection.clientStep crates settings (.meet nonce) =
      some next) : Aligned crates next := by
  obtain ⟨daemon, address, client, server, clientOpen, serverOpen, toServer,
    toClient, asked, served⟩ := connection
  cases stage
  cases present
  simp only [Connection.clientStep] at stepped
  obtain ⟨result, rest, read, ⟨challenge, same, goes⟩ | rfl⟩ :=
    listen_spec stepped
  · rw [pure_ok] at goes
    subst goes
    rcases tell_spec crates.authentication _ _ _ with told | told
    · rw [told]
      exact aligned.fail rest
    · obtain ⟨bytes, said, told⟩ := told
      rw [told]
      obtain ⟨up, down, script, carries, heard⟩ := aligned
      dsimp only at script
      cases script with
      | greeted server first written =>
          have heard := heard rfl
          rw [← List.append_nil down] at heard
          obtain ⟨met, left⟩ :=
            (lawful.challenge ⟨server⟩).frame written heard read
          cases met.symm.trans same
          exact ⟨_, _, .answered server nonce _ bytes said,
            carries.append bytes, fun _ => left⟩
  · exact aligned.fail rest

theorem accept_aligned (aligned : Aligned crates connection)
    (present : connection.clientOpen = true) {server client : Uuid}
    (stage : connection.client = .answered server client)
    (stepped : connection.clientStep crates settings .accept = some next) :
    Aligned crates next := by
  obtain ⟨daemon, address, client_, server_, clientOpen, serverOpen, toServer,
    toClient, asked, served⟩ := connection
  cases stage
  cases present
  simp only [Connection.clientStep] at stepped
  obtain ⟨result, rest, read, ⟨auth, _, goes⟩ | rfl⟩ := listen_spec stepped
  · obtain ⟨_, _, goes⟩ := bind_ok.mp goes
    rw [pure_ok] at goes
    subst goes
    obtain ⟨up, down, script, carries, heard⟩ := aligned
    dsimp only at script
    have heard := heard rfl
    cases script with
    | answered => exact (silent heard read).elim
    | accepted _ _ _ bytes written =>
        rw [← List.append_nil down] at heard
        have left := (Crates.readFrame_carries written heard read).2
        exact ⟨_, _, .held, carries, fun _ => left⟩
    | rejected _ _ _ said =>
        exact ⟨_, _, .spurned, carries, fun _ => said.rest heard read⟩
  · exact aligned.fail rest

theorem ask_aligned {call : Call} (aligned : Aligned crates connection)
    (present : connection.clientOpen = true)
    (stage : connection.client = .held)
    (stepped : connection.clientStep crates settings (.ask call) =
      some next) : Aligned crates next := by
  obtain ⟨daemon, address, client, server, clientOpen, serverOpen, toServer,
    toClient, asked, served⟩ := connection
  cases stage
  cases present
  simp only [Connection.clientStep] at stepped
  cases stepped
  rcases tell_spec crates.request (call.request crates) (.announced call)
    ⟨daemon, address, .held, server, true, serverOpen, toServer, toClient,
      asked, served⟩ with told | told
  · rw [told]
    exact aligned.fail toClient
  · obtain ⟨bytes, written, told⟩ := told
    rw [told]
    obtain ⟨up, down, script, carries, heard⟩ := aligned
    dsimp only at script
    cases script with
    | held =>
        exact ⟨_, _, .asked call bytes written, carries.append bytes,
          heard⟩
    | spurned =>
        exact ⟨_, _, .refused call _ [] _ (.inl rfl) (.refl _),
          carries.append bytes, heard⟩

theorem invited_aligned (lawful : crates.Lawful)
    {handle : MemoryBlockHandle} {transferId : Uuid} {offset : Nat}
    {payload : List UInt8} (aligned : Aligned crates connection)
    (present : connection.clientOpen = true)
    (stage : connection.client =
      .announced (.write handle transferId offset payload))
    (stepped : connection.clientStep crates settings .hear = some next) :
    Aligned crates next := by
  obtain ⟨daemon, address, client, server, clientOpen, serverOpen, toServer,
    toClient, asked, served⟩ := connection
  cases stage
  cases present
  simp only [Connection.clientStep] at stepped
  obtain ⟨result, rest, read, ⟨response, same, goes⟩ | rfl⟩ :=
    listen_spec stepped
  · obtain ⟨_, agreed, goes⟩ := bind_ok.mp goes
    rw [pure_ok] at goes
    subst goes
    obtain ⟨up, down, script, carries, heard⟩ := aligned
    dsimp only at script
    have heard := heard rfl
    cases script with
    | asked | handling | waiting => exact (silent heard read).elim
    | invited _ _ _ _ checksum arc bytes _ written =>
        rw [← List.append_nil down] at heard
        obtain ⟨_, left⟩ := lawful.done.frame written heard read
        exact ⟨_, _, .sending handle transferId offset [] payload checksum
          arc, carries.append payload, fun _ => left⟩
    | refused _ _ _ _ said =>
        obtain ⟨message, refusal⟩ := said.read lawful heard read
        cases refusal.symm.trans same
        exact absurd (ensure_ok.mp agreed) (by simp [Crates.refusal])
  · exact aligned.fail rest

theorem told_aligned (lawful : crates.Lawful)
    {handle : MemoryBlockHandle} {transferId : Uuid} {offset length : Nat}
    (aligned : Aligned crates connection)
    (present : connection.clientOpen = true)
    (stage : connection.client =
      .announced (.read handle transferId offset length))
    (stepped : connection.clientStep crates settings .hear = some next) :
    Aligned crates next := by
  obtain ⟨daemon, address, client, server, clientOpen, serverOpen, toServer,
    toClient, asked, served⟩ := connection
  cases stage
  cases present
  simp only [Connection.clientStep] at stepped
  obtain ⟨result, rest, read, ⟨response, same, goes⟩ | rfl⟩ :=
    listen_spec stepped
  · obtain ⟨metadata, agreed, goes⟩ := bind_ok.mp goes
    rw [pure_ok] at goes
    subst goes
    obtain ⟨up, down, script, carries, heard⟩ := aligned
    dsimp only at script
    have heard := heard rfl
    cases script with
    | asked | handling | waiting => exact (silent heard read).elim
    | told _ _ _ shown bytes piece written =>
        obtain ⟨_, left⟩ := (lawful.metadata shown).frame written heard read
        exact ⟨_, _, .fetching handle transferId offset metadata piece,
          carries, fun _ => left⟩
    | refused _ _ _ _ said =>
        obtain ⟨message, refusal⟩ := said.read lawful heard read
        cases refusal.symm.trans same
        exact absurd (ensure_bind_ok.mp agreed).1 (by simp [Crates.refusal])
  · exact aligned.fail rest

theorem thanked_aligned (lawful : crates.Lawful)
    {handle : MemoryBlockHandle} {transferId : Uuid} {offset : Nat}
    {payload : List UInt8} (aligned : Aligned crates connection)
    (present : connection.clientOpen = true)
    (stage : connection.client = .sent handle transferId offset payload)
    (stepped : connection.clientStep crates settings .hear = some next) :
    Aligned crates next := by
  obtain ⟨daemon, address, client, server, clientOpen, serverOpen, toServer,
    toClient, asked, served⟩ := connection
  cases stage
  cases present
  simp only [Connection.clientStep] at stepped
  obtain ⟨result, rest, read, ⟨response, same, goes⟩ | rfl⟩ :=
    listen_spec stepped
  · obtain ⟨_, agreed, goes⟩ := bind_ok.mp goes
    rw [pure_ok] at goes
    subst goes
    obtain ⟨up, down, script, carries, heard⟩ := aligned
    dsimp only at script
    have heard := heard rfl
    cases script with
    | sending | stored => exact (silent heard read).elim
    | thanked _ _ _ _ bytes written =>
        rw [← List.append_nil down] at heard
        obtain ⟨_, left⟩ := lawful.done.frame written heard read
        exact ⟨_, _, .finished, carries, fun _ => left⟩
    | undone _ _ _ _ _ _ _ said =>
        obtain ⟨message, refusal⟩ := said.read lawful heard read
        cases refusal.symm.trans same
        exact absurd (ensure_ok.mp agreed) (by simp [Crates.refusal])
  · exact aligned.fail rest

theorem fetch_aligned {handle : MemoryBlockHandle} {transferId : Uuid}
    {offset length : Nat} {metadata : ν}
    (aligned : Aligned crates connection)
    (present : connection.clientOpen = true)
    (stage : connection.client =
      .receiving handle transferId offset length metadata)
    (stepped : connection.clientStep crates settings .fetch = some next) :
    Aligned crates next := by
  obtain ⟨daemon, address, client, server, clientOpen, serverOpen, toServer,
    toClient, asked, served⟩ := connection
  cases stage
  cases present
  simp only [Connection.clientStep] at stepped
  split at stepped
  · rename_i enough
    split at stepped
    · cases stepped
      obtain ⟨up, down, script, carries, heard⟩ := aligned
      dsimp only at script
      have heard := heard rfl
      cases script with
      | fetching _ _ _ _ piece =>
          obtain ⟨same, left⟩ := heard.split enough
          rw [List.take_length] at same
          rw [List.drop_length] at left
          rw [same]
          exact ⟨_, _, .finished, carries, fun _ => left⟩
    · cases stepped
      exact aligned.fail _
  · cases stepped

theorem clientStep_aligned (lawful : crates.Lawful) {event : ClientEvent}
    (aligned : Aligned crates connection)
    (present : connection.clientOpen = true)
    (stepped : connection.clientStep crates settings event = some next) :
    Aligned crates next := by
  cases stage : connection.client with
  | greeted =>
      cases event with
      | meet => exact meet_aligned lawful aligned present stage stepped
      | _ => simp [Connection.clientStep, stage] at stepped
  | answered =>
      cases event with
      | accept => exact accept_aligned aligned present stage stepped
      | _ => simp [Connection.clientStep, stage] at stepped
  | held =>
      cases event with
      | ask => exact ask_aligned aligned present stage stepped
      | _ => simp [Connection.clientStep, stage] at stepped
  | announced call =>
      cases event with
      | hear =>
          cases call with
          | write =>
              exact invited_aligned lawful aligned present stage stepped
          | read => exact told_aligned lawful aligned present stage stepped
      | _ => cases call <;> simp [Connection.clientStep, stage] at stepped
  | sent =>
      cases event with
      | hear => exact thanked_aligned lawful aligned present stage stepped
      | _ => simp [Connection.clientStep, stage] at stepped
  | receiving =>
      cases event with
      | fetch => exact fetch_aligned aligned present stage stepped
      | _ => simp [Connection.clientStep, stage] at stepped
  | finished => simp [Connection.clientStep, stage] at stepped
  | pooled => simp [Connection.clientStep, stage] at stepped

theorem listen_asks {α : Type} {form : Form α ν}
    {continue_ : Connection ν → α → Result (Connection ν)}
    (heard : connection.listen crates form continue_ = some next)
    (unpooled : connection.client ≠ .pooled)
    (keeps : ∀ rest message after,
      continue_ { connection with toClient := rest } message = .ok after →
        Asks connection after) : Asks connection next := by
  obtain ⟨result, rest, _, ⟨message, _, goes⟩ | rfl⟩ := listen_spec heard
  · exact keeps rest message next goes
  · exact ⟨rfl, rfl, rfl, rfl, rfl, unpooled⟩

theorem tell_asks {α : Type} {form : Form α ν} {message : α}
    {stage : ClientStage ν} (rest : List UInt8)
    (unpooled : connection.client ≠ .pooled) :
    Asks connection ({ connection with toClient := rest }.tell crates form
      message stage) := by
  rcases tell_spec form message stage { connection with toClient := rest }
    with told | ⟨bytes, _, told⟩
  · rw [told]
    exact ⟨rfl, rfl, rfl, rfl, rfl, unpooled⟩
  · rw [told]
    exact ⟨rfl, rfl, rfl, rfl, rfl, unpooled⟩

theorem clientStep_asks {event : ClientEvent}
    (stepped : connection.clientStep crates settings event = some next) :
    Asks connection next := by
  have unpooled : connection.client ≠ .pooled := by
    intro stage
    simp [Connection.clientStep, stage] at stepped
  unfold Connection.clientStep at stepped
  split at stepped
  · refine listen_asks stepped unpooled fun rest message after goes => ?_
    cases goes
    exact tell_asks rest unpooled
  · refine listen_asks stepped unpooled fun rest message after goes => ?_
    obtain ⟨_, _, goes⟩ := bind_ok.mp goes
    cases goes
    exact ⟨rfl, rfl, rfl, rfl, rfl, unpooled⟩
  · cases stepped
    exact tell_asks connection.toClient unpooled
  · refine listen_asks stepped unpooled fun rest message after goes => ?_
    obtain ⟨_, _, goes⟩ := bind_ok.mp goes
    cases goes
    exact ⟨rfl, rfl, rfl, rfl, rfl, unpooled⟩
  · refine listen_asks stepped unpooled fun rest message after goes => ?_
    obtain ⟨_, _, goes⟩ := bind_ok.mp goes
    cases goes
    exact ⟨rfl, rfl, rfl, rfl, rfl, unpooled⟩
  · refine listen_asks stepped unpooled fun rest message after goes => ?_
    obtain ⟨_, _, goes⟩ := bind_ok.mp goes
    cases goes
    exact ⟨rfl, rfl, rfl, rfl, rfl, unpooled⟩
  · split at stepped
    · dsimp only at stepped
      split at stepped
      · cases stepped
        exact ⟨rfl, rfl, rfl, rfl, rfl, unpooled⟩
      · cases stepped
        exact ⟨rfl, rfl, rfl, rfl, rfl, unpooled⟩
    · cases stepped
  · cases stepped

end

end TcpData

end TrainPool
