import TrainPool.Runtime.TcpAligned

namespace TrainPool

namespace TcpData

open Execution Wire

variable {ν : Type}

/-! The steps of the server. -/

def Connection.locked (connection : Connection ν) : Option Arc :=
  match connection.serverOpen, connection.server with
  | true, .receiving _ _ arc _ => some arc
  | _, _ => none

/-- The block of a direct write has the bytes that have come. -/
structure Receives (ram : LocalRam) (handle : MemoryBlockHandle)
    (chunk : Chunk) (arc : Arc) (got : List UInt8) (block : RamBlock) :
    Prop where
  stored : ram.heap[arc]? = some ⟨block, some (.writing chunk got.length)⟩
  named : block.handle.id = handle.id
  fits : chunk.offset + chunk.length ≤ block.bytes.length
  bytes : Slice.slice block.bytes chunk.offset (chunk.offset + got.length) =
    got
  most : got.length ≤ chunk.length

def Holds (ram : LocalRam) (connection : Connection ν) : Prop :=
  connection.serverOpen = true →
    match connection.server with
    | .waiting request arc => ∃ cell, ram.heap[arc]? = some cell ∧
        cell.block.handle.id = Connection.blockId request
    | .receiving handle chunk arc got =>
        ∃ block, Receives ram handle chunk arc got block
    | _ => True

structure Serves (crates : Crates ν) (ram after : LocalRam)
    (connection next : Connection ν) : Prop where
  aligned : Aligned crates next
  daemon : next.daemon = connection.daemon
  address : next.address = connection.address
  client : next.client = connection.client
  clientOpen : next.clientOpen = connection.clientOpen
  holds : Holds after next
  leaves : Leaves connection.locked ram after
  keyed : Keyed after
  taken : ∀ arc, next.locked = some arc → connection.locked = some arc ∨
    ∃ cell, ram.heap[arc]? = some cell ∧ ¬ Cell.Writes cell

variable {crates : Crates ν} {connection next : Connection ν}
  {ram after : LocalRam}

theorem Leaves.any (leaves : Leaves none ram after) (own : Option Arc) :
    Leaves own ram after := by
  intro arc cell stored
  obtain ⟨later, kept, same, others⟩ := leaves arc cell stored
  exact ⟨later, kept, same, fun _ => others nofun⟩

theorem Holds.kept {own : Option Arc} (holds : Holds ram connection)
    (leaves : Leaves own ram after)
    (apart : ∀ arc, connection.locked = some arc → own ≠ some arc) :
    Holds after connection := by
  intro present
  have held := holds present
  cases stage : connection.server with
  | waiting request arc =>
      rw [stage] at held
      obtain ⟨cell, stored, named⟩ := held
      obtain ⟨later, kept, same, _⟩ := leaves arc cell stored
      exact ⟨later, kept, same.trans named⟩
  | receiving handle chunk arc got =>
      rw [stage] at held
      obtain ⟨block, receives⟩ := held
      obtain ⟨later, kept, _, same⟩ := leaves arc _ receives.stored
      have mine : connection.locked = some arc := by
        simp [Connection.locked, present, stage]
      cases same (apart arc mine) ⟨_, _, rfl⟩
      exact ⟨block, kept, receives.named, receives.fits, receives.bytes,
        receives.most⟩
  | _ => trivial

theorem refuse_spec (crates : Crates ν) (fault : Fault)
    (connection : Connection ν) : ∃ said, Said crates said ∧
      connection.refuse crates fault = { connection with
        server := .failed
        serverOpen := false
        toClient := connection.toClient ++ said } := by
  unfold Connection.refuse
  cases fault with
  | panic => exact ⟨[], .inl rfl, rfl⟩
  | error message =>
      cases written : crates.writeFrame crates.response
          (crates.refusal message) with
      | error fault =>
          refine ⟨[], .inl rfl, ?_⟩
          dsimp only
          rw [written]
      | ok bytes =>
          refine ⟨bytes, .inr ⟨message, written⟩, ?_⟩
          dsimp only
          rw [written]

theorem reply_ok {α : Type} {form : Form α ν} {message : α}
    {more : List UInt8} {stage : ServerStage}
    (replied : connection.reply crates form message more stage = .ok next) :
    ∃ bytes, crates.writeFrame form message = .ok bytes ∧
      next = { connection with
        server := stage
        toClient := connection.toClient ++ bytes ++ more } := by
  obtain ⟨bytes, written, same⟩ := bind_ok.mp replied
  cases same
  exact ⟨bytes, written, rfl⟩

theorem orRefuse_spec {result : Result (Connection ν × LocalRam)}
    (goes : connection.orRefuse crates ram result = (next, after)) :
    result = .ok (next, after) ∨
      ∃ fault, next = connection.refuse crates fault ∧ after = ram := by
  unfold Connection.orRefuse at goes
  split at goes
  · exact .inl (congrArg Except.ok goes)
  · rename_i fault
    cases goes
    exact .inr ⟨fault, rfl, rfl⟩

theorem refuse_serves {fault : Fault} (rest : List UInt8)
    (aligned : Aligned crates
      ({ connection with toServer := rest }.refuse crates fault))
    (leaves : Leaves connection.locked ram after) (keyed : Keyed after) :
    Serves crates ram after connection
      ({ connection with toServer := rest }.refuse crates fault) := by
  obtain ⟨said, _, refused⟩ :=
    refuse_spec crates fault { connection with toServer := rest }
  rw [refused] at aligned ⊢
  exact {
    aligned := aligned
    daemon := rfl
    address := rfl
    client := rfl
    clientOpen := rfl
    holds := nofun
    leaves := leaves
    keyed := keyed
    taken := nofun }

theorem plain_serves (aligned : Aligned crates next) (keyed : Keyed ram)
    (daemon : next.daemon = connection.daemon)
    (address : next.address = connection.address)
    (client : next.client = connection.client)
    (clientOpen : next.clientOpen = connection.clientOpen)
    (holds : Holds ram next) (free : next.locked = none) :
    Serves crates ram ram connection next where
  aligned := aligned
  daemon := daemon
  address := address
  client := client
  clientOpen := clientOpen
  holds := holds
  leaves := .refl _ _
  keyed := keyed
  taken arc held := by
    rw [free] at held
    cases held

section

variable {settings : Settings}

theorem announced_refuse {fault : Fault} {call : Call}
    (stage : connection.client = .announced call)
    (behind : Behind connection.asked connection.served)
    (silent : connection.clientOpen = true → connection.toClient = []) :
    Aligned crates (connection.refuse crates fault) := by
  obtain ⟨said, words, refused⟩ := refuse_spec crates fault connection
  obtain ⟨daemon, address, client, server, clientOpen, serverOpen, toServer,
    toClient, asked, served⟩ := connection
  cases stage
  rw [refused]
  refine ⟨toServer, said, .refused call _ said _ words behind,
    Frames.carries_same _ _, fun present => ?_⟩
  rw [silent present]
  exact (Frames.carries_same true said).weaken

theorem sent_refuse {fault : Fault} {handle : MemoryBlockHandle}
    {transferId : Uuid} {offset : Nat} {payload : List UInt8}
    (stage : connection.client = .sent handle transferId offset payload)
    (behind : Behind connection.asked connection.served)
    (silent : connection.clientOpen = true → connection.toClient = []) :
    Aligned crates (connection.refuse crates fault) := by
  obtain ⟨said, words, refused⟩ := refuse_spec crates fault connection
  obtain ⟨daemon, address, client, server, clientOpen, serverOpen, toServer,
    toClient, asked, served⟩ := connection
  cases stage
  rw [refused]
  refine ⟨toServer, said, .undone handle transferId offset payload _ said _
    words behind, Frames.carries_same _ _, fun present => ?_⟩
  rw [silent present]
  exact (Frames.carries_same true said).weaken

theorem auth_serves (lawful : crates.Lawful)
    (aligned : Aligned crates connection) (keyed : Keyed ram)
    {server : Uuid} (stage : connection.server = .challenging server)
    (stepped : connection.serverStep crates settings ram .auth =
      some (next, after)) : Serves crates ram after connection next := by
  obtain ⟨daemon, address, client, server_, clientOpen, serverOpen, toServer,
    toClient, asked, served⟩ := connection
  cases stage
  simp only [Connection.serverStep] at stepped
  obtain ⟨⟨result, rest⟩, read, stepped⟩ := Option.bind_eq_some_iff.mp stepped
  obtain ⟨up, down, script, carries, heard⟩ := aligned
  dsimp only at script carries heard read
  cases script with
  | greeted => exact (silent carries read).elim
  | answered _ client auth _ written =>
      rw [← List.append_nil up] at carries
      obtain ⟨_, left⟩ :=
        (lawful.authentication auth).frame written carries read
      rcases orRefuse_spec (Option.some.inj stepped) with
        done | ⟨fault, rfl, rfl⟩
      · obtain ⟨_, _, done⟩ := bind_ok.mp done
        obtain ⟨_, _, done⟩ := bind_ok.mp done
        obtain ⟨_, _, done⟩ := bind_ok.mp done
        obtain ⟨replying, replied, done⟩ := bind_ok.mp done
        cases done
        obtain ⟨bytes, said, rfl⟩ := reply_ok replied
        refine plain_serves ⟨[], bytes, .accepted server client _ bytes said,
          left, fun present => ?_⟩ keyed rfl rfl rfl rfl (fun _ => trivial) ?_
        · dsimp only
          rw [List.append_nil, (heard present).nil]
          exact Frames.carries_same serverOpen bytes
        · cases serverOpen <;> rfl
      · refine refuse_serves _ ?_ (.refl _ _) keyed
        obtain ⟨said, words, refused⟩ := refuse_spec crates fault
          (⟨daemon, address, .answered server client, .challenging server,
            clientOpen, serverOpen, rest, toClient, asked, asked⟩)
        rw [refused]
        refine ⟨[], said, .rejected server client said words, left,
          fun present => ?_⟩
        rw [(heard present).nil]
        exact (Frames.carries_same true said).weaken

theorem parse_serves (lawful : crates.Lawful)
    (aligned : Aligned crates connection) (keyed : Keyed ram)
    (stage : connection.server = .ready)
    (stepped : connection.serverStep crates settings ram .parse =
      some (next, after)) : Serves crates ram after connection next := by
  obtain ⟨daemon, address, client, server, clientOpen, serverOpen, toServer,
    toClient, asked, served⟩ := connection
  cases stage
  simp only [Connection.serverStep] at stepped
  obtain ⟨⟨result, rest⟩, read, stepped⟩ := Option.bind_eq_some_iff.mp stepped
  obtain ⟨up, down, script, carries, heard⟩ := aligned
  dsimp only at script carries heard read
  cases script with
  | accepted | held | finished | pooled | thanked | told | fetching =>
      exact (silent carries read).elim
  | asked call _ written =>
      rw [← List.append_nil up] at carries
      obtain ⟨same, left⟩ :=
        (lawful.request (call.request crates)).frame written carries read
      rcases orRefuse_spec (Option.some.inj stepped) with
        done | ⟨fault, rfl, rfl⟩
      · obtain ⟨request, came, done⟩ := bind_ok.mp done
        cases same.symm.trans came
        cases done
        exact plain_serves ⟨[], [], .handling call, left, heard⟩ keyed rfl rfl
          rfl rfl (fun _ => trivial) (by cases serverOpen <;> rfl)
      · exact refuse_serves _ (announced_refuse rfl (.refl _)
          fun present => (heard present).nil) (.refl _ _) keyed

theorem checkRange_length {call : Call}
    (checked : Connection.checkRange settings (call.request crates) =
      .ok ()) : 0 < call.length := by
  cases call with
  | write => exact (ensure_bind_ok.mp checked).1.1
  | read => exact (ensure_bind_ok.mp checked).1.1

theorem check_serves (aligned : Aligned crates connection)
    (keyed : Keyed ram) {request : DataRequest}
    (stage : connection.server = .handling request)
    (stepped : connection.serverStep crates settings ram .check =
      some (next, after)) : Serves crates ram after connection next := by
  obtain ⟨daemon, address, client, server, clientOpen, serverOpen, toServer,
    toClient, asked, served⟩ := connection
  cases stage
  simp only [Connection.serverStep] at stepped
  obtain ⟨up, down, script, carries, heard⟩ := aligned
  dsimp only at script carries heard
  cases script with
  | handling call =>
      rcases orRefuse_spec (Option.some.inj stepped) with
        done | ⟨fault, rfl, rfl⟩
      · obtain ⟨_, checked, done⟩ := bind_ok.mp done
        obtain ⟨arc, found, done⟩ := bind_ok.mp done
        cases done
        have positive : 0 < call.length := checkRange_length checked
        exact plain_serves
          ⟨[], [], .waiting call arc positive, carries, heard⟩ keyed rfl rfl
          rfl rfl (fun _ => keyed _ arc (LocalRam.get_ok.mp found))
          (by cases serverOpen <;> rfl)
      · exact refuse_serves toServer (announced_refuse rfl (.refl _)
          fun present => (heard present).nil) (.refl _ _) keyed

theorem read_ok {now : Nat} {handle : MemoryBlockHandle}
    {offset length : Nat} {block : RamBlock} {bytes : List UInt8}
    (read : block.read now handle offset length = .ok bytes) :
    bytes.length = length := by
  simp only [RamBlock.read, RamBlock.authorize_bind_ok, ensure_bind_ok,
    pure_ok] at read
  obtain ⟨_, _, fits, rfl⟩ := read
  rw [Slice.length_slice _ _ _ fits, Nat.add_sub_cancel_left]

theorem invite_serves {now : Nat} {handle : MemoryBlockHandle}
    {transferId : Uuid} {offset : Nat} {payload : List UInt8} {arc : Arc}
    {block : RamBlock} (aligned : Aligned crates connection)
    (holds : Holds ram connection) (keyed : Keyed ram)
    (present : connection.serverOpen = true)
    (client : connection.client =
      .announced (.write handle transferId offset payload))
    (stage : connection.server = .waiting
      (Call.request crates (.write handle transferId offset payload)) arc)
    (free : ram.lock? arc = some block)
    (admitted : connection.serveChunk crates now
      (Call.request crates (.write handle transferId offset payload)) arc
        block ram = .ok (next, after)) :
    Serves crates ram after connection next := by
  obtain ⟨daemon, address, client_, server, clientOpen, serverOpen, toServer,
    toClient, asked, served⟩ := connection
  cases client
  cases stage
  cases present
  obtain ⟨up, down, script, carries, heard⟩ := aligned
  obtain ⟨cell, there, named⟩ := holds rfl
  obtain ⟨stored, idle⟩ := free_idle free
  cases there.symm.trans stored
  obtain ⟨_, allowed, admitted⟩ := bind_ok.mp admitted
  obtain ⟨_, _, fits⟩ := RamBlock.admitDirect_ok allowed
  obtain ⟨replying, replied, admitted⟩ := bind_ok.mp admitted
  cases admitted
  obtain ⟨bytes, written, rfl⟩ := reply_ok replied
  dsimp only at script carries heard
  cases script with
  | waiting _ _ positive =>
      exact {
        aligned := ⟨[], bytes, .invited handle transferId offset payload _ arc
          bytes positive written, carries, fun present => by
            rw [List.append_nil, (heard present).nil]
            exact Frames.carries_same true bytes⟩
        daemon := rfl
        address := rfl
        client := rfl
        clientOpen := rfl
        holds := fun _ => ⟨block, put_stored stored, named, fits, by
          simp [Slice.slice], Nat.zero_le _⟩
        leaves := (guard_leaves free keyed).1.any _
        keyed := (guard_leaves free keyed).2
        taken := fun other held => by
          cases held
          exact .inr ⟨_, stored, idle⟩ }

theorem show_serves {now : Nat} {handle : MemoryBlockHandle}
    {transferId : Uuid} {offset length : Nat} {arc : Arc}
    {block : RamBlock} (aligned : Aligned crates connection)
    (holds : Holds ram connection) (keyed : Keyed ram)
    (present : connection.serverOpen = true)
    (client : connection.client =
      .announced (.read handle transferId offset length))
    (stage : connection.server = .waiting
      (Call.request crates (.read handle transferId offset length)) arc)
    (free : ram.lock? arc = some block)
    (admitted : connection.serveChunk crates now
      (Call.request crates (.read handle transferId offset length)) arc
        block ram = .ok (next, after)) :
    Serves crates ram after connection next := by
  obtain ⟨daemon, address, client_, server, clientOpen, serverOpen, toServer,
    toClient, asked, served⟩ := connection
  cases client
  cases stage
  cases present
  obtain ⟨up, down, script, carries, heard⟩ := aligned
  obtain ⟨cell, there, named⟩ := holds rfl
  obtain ⟨stored, _⟩ := free_idle free
  cases there.symm.trans stored
  obtain ⟨piece, read, admitted⟩ := bind_ok.mp admitted
  obtain ⟨replying, replied, admitted⟩ := bind_ok.mp admitted
  cases admitted
  obtain ⟨bytes, written, rfl⟩ := reply_ok replied
  have named : block.handle.id = handle.id := named
  have long : piece.length = length := read_ok read
  dsimp only at script carries heard
  cases script with
  | waiting =>
      subst long
      refine plain_serves ⟨[], bytes ++ piece, ?_, carries, fun present => ?_⟩
        keyed rfl rfl rfl rfl (fun _ => trivial) rfl
      · dsimp only
        rw [named]
        exact .told handle transferId offset _ bytes piece written
      · dsimp only
        rw [(heard present).nil]
        exact Frames.carries_same true _

theorem lock_serves {now : Nat} (aligned : Aligned crates connection)
    (holds : Holds ram connection) (keyed : Keyed ram)
    (present : connection.serverOpen = true) {request : DataRequest}
    {arc : Arc} (stage : connection.server = .waiting request arc)
    (stepped : connection.serverStep crates settings ram (.lock now) =
      some (next, after)) : Serves crates ram after connection next := by
  simp only [Connection.serverStep, stage] at stepped
  obtain ⟨block, free, stepped⟩ := Option.bind_eq_some_iff.mp stepped
  obtain ⟨up, down, script, carries, heard⟩ := id aligned
  have waits : ∃ call, connection.client = .announced call ∧
      request = call.request crates ∧
      connection.served = connection.asked ∧
      (connection.clientOpen = true → connection.toClient = []) := by
    clear stepped
    obtain ⟨daemon, address, client, server, clientOpen, serverOpen, toServer,
      toClient, asked, served⟩ := connection
    cases stage
    dsimp only at script heard
    cases script with
    | waiting call _ _ => exact ⟨call, rfl, rfl, rfl, fun present =>
        (heard present).nil⟩
  obtain ⟨call, client, rfl, same, mute⟩ := waits
  rcases orRefuse_spec (Option.some.inj stepped) with
    done | ⟨fault, rfl, rfl⟩
  · cases call with
    | write =>
        exact invite_serves aligned holds keyed present client stage free done
    | read =>
        exact show_serves aligned holds keyed present client stage free done
  · exact refuse_serves connection.toServer (announced_refuse client
      (same ▸ .refl _) mute) (.refl _ _) keyed

theorem Receives.stream {handle : MemoryBlockHandle} {chunk : Chunk}
    {arc : Arc} {got : List UInt8} {block : RamBlock}
    (receives : Receives ram handle chunk arc got block) (piece : List UInt8)
    (within : got.length + piece.length ≤ chunk.length) :
    Receives (ram.put arc ⟨block.stream chunk got.length piece,
      some (.writing chunk (got ++ piece).length)⟩) handle chunk arc
      (got ++ piece) (block.stream chunk got.length piece) where
  stored := put_stored receives.stored
  named := receives.named
  fits := by
    have fits := receives.fits
    unfold RamBlock.stream
    rw [Slice.length_overwrite (by omega)]
    exact fits
  bytes := by
    have fits := receives.fits
    have front : Slice.slice
        (block.stream chunk got.length piece).bytes chunk.offset
        (chunk.offset + got.length) = got := by
      have same := receives.bytes
      unfold Slice.slice at same ⊢
      unfold RamBlock.stream
      rw [Slice.take_overwrite (by omega)]
      exact same
    have back : Slice.slice
        (block.stream chunk got.length piece).bytes
        (chunk.offset + got.length)
        (chunk.offset + got.length + piece.length) = piece :=
      Slice.slice_overwrite (by omega)
    rw [List.length_append, ← Nat.add_assoc,
      ← Slice.slice_join (Nat.le_add_right _ _) (Nat.le_add_right _ _),
      front, back]
  most := by
    rw [List.length_append]
    exact within

theorem arrive_serves {count : Nat} (aligned : Aligned crates connection)
    (holds : Holds ram connection) (keyed : Keyed ram)
    (present : connection.serverOpen = true) {handle : MemoryBlockHandle}
    {chunk : Chunk} {arc : Arc} {got : List UInt8}
    (stage : connection.server = .receiving handle chunk arc got)
    (stepped : connection.serverStep crates settings ram (.arrive count) =
      some (next, after)) : Serves crates ram after connection next := by
  obtain ⟨daemon, address, client, server, clientOpen, serverOpen, toServer,
    toClient, asked, served⟩ := connection
  cases stage
  cases present
  obtain ⟨up, down, script, carries, heard⟩ := aligned
  obtain ⟨block, receives⟩ := holds rfl
  simp only [Connection.serverStep] at stepped
  split at stepped
  · rename_i allowed
    obtain ⟨positive, come, within⟩ := allowed
    obtain ⟨cell, there, stepped⟩ := Option.bind_eq_some_iff.mp stepped
    cases there.symm.trans receives.stored
    cases stepped
    have length : (toServer.take count).length = count := by
      rw [List.length_take, Nat.min_eq_left come]
    have streamed := receives.stream (toServer.take count)
      (by rw [length]; exact within)
    dsimp only at script carries heard
    cases script with
    | invited =>
        rw [carries.nil] at come
        exact absurd positive (Nat.not_lt.mpr come)
    | sending _ transferId offset _ _ checksum =>
        obtain ⟨same, left⟩ := carries.split come
        have script : Script crates asked _ _ (up.drop count) [] asked :=
          .sending handle transferId offset (got ++ up.take count)
            (up.drop count) checksum arc
        rw [List.append_assoc, List.take_append_drop, ← same] at script
        exact {
          aligned := ⟨_, _, script, left, heard⟩
          daemon := rfl
          address := rfl
          client := rfl
          clientOpen := rfl
          holds := fun _ => ⟨_, streamed⟩
          leaves := put_leaves receives.stored rfl (.inl rfl)
          keyed := put_keyed receives.stored rfl keyed
          taken := fun other held => .inl held }
  · cases stepped

theorem store_serves (aligned : Aligned crates connection)
    (holds : Holds ram connection) (keyed : Keyed ram)
    (present : connection.serverOpen = true) {handle : MemoryBlockHandle}
    {chunk : Chunk} {arc : Arc} {got : List UInt8}
    (stage : connection.server = .receiving handle chunk arc got)
    (stepped : connection.serverStep crates settings ram .store =
      some (next, after)) : Serves crates ram after connection next := by
  obtain ⟨daemon, address, client, server, clientOpen, serverOpen, toServer,
    toClient, asked, served⟩ := connection
  cases stage
  cases present
  obtain ⟨up, down, script, carries, heard⟩ := aligned
  obtain ⟨block, receives⟩ := holds rfl
  simp only [Connection.serverStep] at stepped
  split at stepped
  · rename_i whole
    obtain ⟨cell, there, stepped⟩ := Option.bind_eq_some_iff.mp stepped
    cases there.symm.trans receives.stored
    have bytes := receives.bytes
    rw [whole] at bytes
    dsimp only at script carries heard
    cases script with
    | invited _ _ _ _ _ _ _ positive =>
        exact absurd positive (Nat.not_lt.mpr (Nat.le_of_eq whole.symm))
    | sending _ transferId offset _ _ checksum =>
        have nothing : up = [] := by
          have length : got.length = got.length + up.length := by
            rw [← List.length_append]
            exact whole
          exact List.length_eq_zero_iff.mp (by omega)
        subst nothing
        split at stepped
        · rename_i stored finished
          cases stepped
          have same : stored.handle = block.handle := by
            obtain ⟨_, finished⟩ := ensure_bind_ok.mp finished
            cases finished
            rfl
          refine {
            aligned := ⟨[], [], ?_, carries, heard⟩
            daemon := rfl
            address := rfl
            client := rfl
            clientOpen := rfl
            holds := fun _ => trivial
            leaves := put_leaves receives.stored
              (congrArg MemoryBlockHandle.id same) (.inl rfl)
            keyed := put_keyed receives.stored
              (congrArg MemoryBlockHandle.id same) keyed
            taken := nofun }
          dsimp only at bytes ⊢
          rw [bytes, receives.named, List.append_nil]
          exact .stored handle transferId offset got
        · cases stepped
          exact refuse_serves toServer (sent_refuse rfl (.refl _)
            fun present => (heard present).nil)
            (put_leaves receives.stored rfl (.inl rfl))
            (put_keyed receives.stored rfl keyed)
  · cases stepped

theorem answer_serves (aligned : Aligned crates connection)
    (keyed : Keyed ram) (stage : connection.server = .stored)
    (stepped : connection.serverStep crates settings ram .answer =
      some (next, after)) : Serves crates ram after connection next := by
  obtain ⟨daemon, address, client, server, clientOpen, serverOpen, toServer,
    toClient, asked, served⟩ := connection
  cases stage
  simp only [Connection.serverStep] at stepped
  obtain ⟨up, down, script, carries, heard⟩ := aligned
  dsimp only at script carries heard
  cases script with
  | stored handle transferId offset payload =>
      rcases orRefuse_spec (Option.some.inj stepped) with
        done | ⟨fault, rfl, rfl⟩
      · obtain ⟨replying, replied, done⟩ := bind_ok.mp done
        cases done
        obtain ⟨bytes, written, rfl⟩ := reply_ok replied
        refine plain_serves ⟨[], bytes, .thanked handle transferId offset
          payload bytes written, carries, fun present => ?_⟩ keyed rfl rfl rfl
          rfl (fun _ => trivial) (by cases serverOpen <;> rfl)
        dsimp only
        rw [List.append_nil, (heard present).nil]
        exact Frames.carries_same serverOpen bytes
      · exact refuse_serves toServer (sent_refuse rfl (.snoc _ _)
          fun present => (heard present).nil) (.refl _ _) keyed

theorem serverStep_serves (lawful : crates.Lawful) {event : ServerEvent}
    (aligned : Aligned crates connection) (holds : Holds ram connection)
    (keyed : Keyed ram) (present : connection.serverOpen = true)
    (stepped : connection.serverStep crates settings ram event =
      some (next, after)) : Serves crates ram after connection next := by
  cases event with
  | auth =>
      cases stage : connection.server with
      | challenging =>
          exact auth_serves lawful aligned keyed stage stepped
      | _ => simp [Connection.serverStep, stage] at stepped
  | parse =>
      cases stage : connection.server with
      | ready => exact parse_serves lawful aligned keyed stage stepped
      | _ => simp [Connection.serverStep, stage] at stepped
  | check =>
      cases stage : connection.server with
      | handling => exact check_serves aligned keyed stage stepped
      | _ => simp [Connection.serverStep, stage] at stepped
  | lock =>
      cases stage : connection.server with
      | waiting =>
          exact lock_serves aligned holds keyed present stage stepped
      | _ => simp [Connection.serverStep, stage] at stepped
  | arrive =>
      cases stage : connection.server with
      | receiving =>
          exact arrive_serves aligned holds keyed present stage stepped
      | _ => simp [Connection.serverStep, stage] at stepped
  | store =>
      cases stage : connection.server with
      | receiving =>
          exact store_serves aligned holds keyed present stage stepped
      | _ => simp [Connection.serverStep, stage] at stepped
  | answer =>
      cases stage : connection.server with
      | stored => exact answer_serves aligned keyed stage stepped
      | _ => simp [Connection.serverStep, stage] at stepped

end

end TcpData

end TrainPool
