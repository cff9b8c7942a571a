import Mathlib.Data.Countable.Basic
import Mathlib.Logic.Equiv.List
import Mathlib.Tactic.DeriveCountable
import TrainPool.Runtime.TcpReturns

namespace TrainPool

namespace TcpData

open Execution Wire

variable {ν : Type}

/-! Node 1 writes `abc` into a block of node 2.  The messages of this run are
written as JSON; all others as so many zeros, which no JSON has. -/

instance charCountable : Countable Char :=
  Function.Injective.countable fun _ _ same =>
    Char.ext (UInt32.toNat_inj.mp same)

instance stringCountable : Countable String :=
  Function.Injective.countable fun _ _ same => String.toList_inj.mp same

instance byteCountable : Countable UInt8 :=
  Function.Injective.countable fun _ _ same => UInt8.toNat_inj.mp same

deriving instance Countable for Location, BlockState, TensorMetadata,
  MemoryBlockHandle, Chunk, DataRequest, Wire.Challenge,
  Wire.Authentication, Wire.Authenticated, Wire.Response

def text (pieces : List String) : List UInt8 :=
  pieces.flatMap fun piece =>
    piece.toList.map fun letter => UInt8.ofNat letter.toNat

noncomputable def code {α : Type} [Countable α] : α → Nat :=
  (Countable.exists_injective_nat α).choose

noncomputable def known {α : Type} [DecidableEq α] [Countable α]
    (message : α) (json : List UInt8) : Form α (List UInt8) where
  toValue other :=
    if other = message then json else List.replicate (code other) 0
  fromValue value :=
    if value = json then
      .ok message
    else
      match Function.partialInv code value.length with
      | some other => .ok other
      | none => .error "expected value"

def wireHead : List UInt8 :=
  text ["\x7b\"protocol_version\":1,\"message\":"]

def abcDigest : String :=
  "6437b3ac38465133ffb63b75273a8db548c558465d79db03fd359c6cd5bd9d85"

def zeros : String := "\"00000000-0000-0000-0000-0000000000"

def abcRequest : List UInt8 :=
  text ["\x7b\"op\":\"write_chunk\",\"handle\":\x7b\"id\":", zeros,
    "07\",\"job_id\":", zeros, "03\",\"size\":3,\"owner_node\":", zeros,
    "02\",\"owner_incarnation\":", zeros, "14\",\"location_type\":",
    "\x7b\"kind\":\"ram\",\"node_id\":", zeros, "02\"\x7d,",
    "\"checksum\":null,\"state\":\"writing\",\"lease_token\":", zeros,
    "05\",\"lease_expires_ms\":300000,\"generation\":0,",
    "\"tensor\":null\x7d,\"transfer_id\":", zeros,
    "09\",\"offset\":0,\"length\":3,\"total_size\":3,",
    "\"checksum\":\"", abcDigest, "\",\"direct\":true\x7d"]

noncomputable def abcCrates : Crates (List UInt8) where
  toVec received value :=
    if received = 1 then wireHead ++ value ++ [125] else []
  fromSlice bytes :=
    if bytes.take wireHead.length = wireHead then
      .ok (1, (bytes.drop wireHead.length).dropLast)
    else
      .error "expected value"
  null := text ["null"]
  challenge := known ⟨7⟩ (text ["\x7b\"nonce\":", zeros, "07\"\x7d"])
  authentication := known ⟨"trainpool", 8, none⟩
    (text ["\x7b\"cluster_name\":\"trainpool\",\"nonce\":", zeros,
      "08\",\"mac\":null\x7d"])
  authenticated := known ⟨none⟩ (text ["\x7b\"mac\":null\x7d"])
  request := known (.writeChunk abcHandle ⟨9, 0, 3, 3, abcDigest⟩) abcRequest
  response := known ⟨true, text ["null"], none⟩
    (text ["\x7b\"ok\":true,\"data\":null,\"error\":null\x7d"])
  metadata _ := text ["null"]
  checksum _ := none
  hmac _ _ := []
  unhex _ := .error "odd number of digits"
  blake3 := abcHash

theorem known_reads {α : Type} [DecidableEq α] [Countable α] {message : α}
    {json : List UInt8} (letter : UInt8) (proper : letter ≠ 0)
    (starts : json.head? = some letter) (other : α) :
    abcCrates.Reads (known message json) other := by
  have differs : ∀ count, json ≠ List.replicate count 0 := by
    rintro count rfl
    have member := List.mem_of_head? starts
    exact proper (List.mem_replicate.mp member).2
  have back : (known message json).fromValue
      ((known message json).toValue other) = .ok other := by
    simp only [known]
    by_cases same : other = message
    · rw [if_pos same, if_pos rfl, same]
    · have injective : Function.Injective (code : α → Nat) :=
        (Countable.exists_injective_nat α).choose_spec
      rw [if_neg same, if_neg (differs _).symm, List.length_replicate,
        Function.partialInv_left injective]
  have sliced : ∀ value, abcCrates.fromSlice (abcCrates.toVec Crates.version
      value) = .ok (1, value) := by
    intro value
    simp [abcCrates, Crates.version]
  unfold Crates.Reads Crates.decode
  rw [sliced]
  refine bind_ok.mpr ⟨_, rfl, bind_ok.mpr ⟨(), ensure_ok.mpr rfl, ?_⟩⟩
  rw [back]
  rfl

theorem abcCrates_lawful : abcCrates.Lawful where
  challenge := known_reads 123 (by decide) rfl
  authentication := known_reads 123 (by decide) rfl
  authenticated := known_reads 123 (by decide) rfl
  request := known_reads 123 (by decide) rfl
  done := known_reads 123 (by decide) rfl _
  metadata _ := known_reads 123 (by decide) rfl _
  refusal _ := known_reads 123 (by decide) rfl _

def abcSettings (_ : SocketAddr) : Settings where
  clusterName := "trainpool"
  clusterSecret := none
  chunkBytes := 65536
  leaseSeconds := 300
  identity := ⟨2, 20⟩

/-- Node 2 has a block for `abc`, and node 1 connects to it. -/
def abcGreets : List TcpEvent :=
  [.ram 2 0 (.allocateLocal abcHandle true true), .connect 1 2 7,
    .client 0 (.meet 8), .server 0 .auth, .client 0 .accept]

theorem abcGreets_run : ∃ world,
    run (World.step abcCrates abcSettings) .empty abcGreets = some world ∧
    world.connections[0]? = some (between 1 2 .held .ready [] [] [] []) ∧
    world.pool 1 2 = [] ∧ (world.ram 2).get abcHandle.id = .ok 0 ∧
    (world.ram 2).lock? 0 = some (.allocated abcHandle) := by
  have facts : ((run (World.step abcCrates abcSettings) .empty
      abcGreets).any fun world => decide (world.connections[0]? =
        some (between 1 2 .held .ready [] [] [] []) ∧
      world.pool 1 2 = [] ∧ (world.ram 2).get abcHandle.id = .ok 0 ∧
      (world.ram 2).lock? 0 = some (.allocated abcHandle))) = true := by
    decide +kernel
  obtain ⟨world, ran, holds⟩ := Option.any_eq_true _ _ |>.mp facts
  exact ⟨world, ran, of_decide_eq_true holds⟩

theorem abcAsks : (abcCrates.toVec Crates.version
    (abcCrates.request.toValue (Call.request abcCrates
      (.write abcHandle 9 0 [97, 98, 99])))).length ≤ Crates.maxFrame := by
  decide +kernel

theorem abcAnswers : (abcCrates.toVec Crates.version
    (abcCrates.response.toValue (.answer abcCrates.null))).length ≤
      Crates.maxFrame := by
  decide +kernel

theorem abcAdmitted : (RamBlock.allocated abcHandle).admitDirect 0 abcHandle
    (announcedChunk abcCrates abcHandle 9 0 [97, 98, 99]) = .ok () := by
  rfl

theorem abcChecked : Connection.checkRange (abcSettings 2)
    (Call.request abcCrates (.write abcHandle 9 0 [97, 98, 99])) = .ok () := by
  have small : 0 < 3 ∧ 3 ≤ 65536 := by decide
  have inside : (0 + 3 < 2 ^ 64 ∧ 0 + 3 ≤ 3) ∧ 3 = 3 := by decide
  exact ensure_bind_ok.mpr ⟨small, ensure_ok.mpr inside⟩

def abcPieces : List (List UInt8) := [[97], [98, 99]]

theorem abcFilled : ∀ piece ∈ abcPieces, piece ≠ [] := by decide

theorem abcWhole : abcPieces.flatten = [97, 98, 99] := rfl

def abcWrites : List TcpEvent :=
  undisturbed 0 (.write abcHandle 9 0 [97, 98, 99]) 0 abcPieces ++
    [.release 0]

theorem abcWrites_run : ∃ final,
    run (World.step abcCrates abcSettings) .empty (abcGreets ++ abcWrites) =
      some final ∧
    final.pool 1 2 = [0] ∧
    final.connections[0]? = some (between 1 2 .pooled .ready [] []
      [.wrote 7 9 0 [97, 98, 99]] [.wrote 7 9 0 [97, 98, 99]]) := by
  obtain ⟨world, greeted, there, empty, found, free⟩ := abcGreets_run
  have room : (world.pool 1 2).length < 8 := by
    rw [empty]
    decide
  obtain ⟨final, goes, kept, _⟩ := write_goes abcCrates_lawful abcFilled
    abcWhole there rfl abcChecked found free abcAdmitted
    (Crates.writeFrame_fits abcAsks) (Crates.writeFrame_fits abcAnswers)
  obtain ⟨pooled, after⟩ := kept room
  rw [empty] at pooled
  exact ⟨final, run_append.mpr ⟨world, greeted, goes⟩, pooled, after⟩

/-! The calls of every run. -/

section

variable {crates : Crates ν} {settings : SocketAddr → Settings}
  {world : World ν} {index : Nat} {connection : Connection ν}

/-- In every run, what the owners have put into blocks and taken out of them
for a connection is what its calls that returned have sent and returned, in
that order, with at most one exchange more. -/
theorem calls_served (lawful : crates.Lawful) {events : List TcpEvent}
    {final : World ν}
    (ran : run (World.step crates settings) .empty events = some final) :
    ∀ connection ∈ final.connections,
      connection.asked <+: connection.served ∧
        connection.served.length ≤ connection.asked.length + 1 := by
  intro connection member
  obtain ⟨index, there⟩ := List.mem_iff_getElem?.mp member
  obtain ⟨up, down, script, _⟩ :=
    (run_sound lawful ran).1.aligned index connection there
  exact script.behind

theorem calls_served_abc : ∃ final,
    run (World.step abcCrates abcSettings) .empty (abcGreets ++ abcWrites) =
      some final ∧
    ∀ connection ∈ final.connections,
      connection.asked <+: connection.served ∧
        connection.served.length ≤ connection.asked.length + 1 := by
  obtain ⟨final, ran, _, _⟩ := abcWrites_run
  exact ⟨final, ran, calls_served abcCrates_lawful ran⟩

/-- In every run a pool has at most eight streams, each of them once; nothing
is under way on them, and all that was served on them has been returned.  The
server has gone on to wait for the next request; its end may be gone. -/
theorem pool_quiet (lawful : crates.Lawful) {events : List TcpEvent}
    {final : World ν}
    (ran : run (World.step crates settings) .empty events = some final)
    (daemon address : SocketAddr) :
    (final.pool daemon address).length ≤ 8 ∧
    (final.pool daemon address).Nodup ∧
    ∀ index ∈ final.pool daemon address, ∃ connection,
      final.connections[index]? = some connection ∧
      connection.daemon = daemon ∧ connection.address = address ∧
      connection.server = .ready ∧ connection.toServer = [] ∧
      connection.toClient = [] ∧ connection.served = connection.asked := by
  obtain ⟨guarded, pools⟩ := run_sound lawful ran
  refine ⟨pools.small daemon address, pools.once daemon address, ?_⟩
  intro index member
  obtain ⟨connection, there, stage, present, mine, met⟩ :=
    pools.pooled daemon address index member
  refine ⟨connection, there, mine, met, ?_⟩
  obtain ⟨up, down, script, carries, heard⟩ :=
    guarded.aligned index connection there
  have silence := heard present
  obtain ⟨daemon, address, client, server, clientOpen, serverOpen, toServer,
    toClient, asked, served⟩ := connection
  cases stage
  dsimp only at script carries silence
  cases script
  exact ⟨rfl, carries.nil, silence.nil, rfl⟩

theorem pool_quiet_abc : ∃ final,
    run (World.step abcCrates abcSettings) .empty (abcGreets ++ abcWrites) =
      some final ∧
    final.pool 1 2 = [0] ∧
    ∃ connection, final.connections[0]? = some connection ∧
      connection.server = .ready ∧ connection.served = connection.asked := by
  obtain ⟨final, ran, pooled, _⟩ := abcWrites_run
  obtain ⟨_, _, quiet⟩ := pool_quiet abcCrates_lawful ran 1 2
  have member : 0 ∈ final.pool 1 2 := by simp [pooled]
  obtain ⟨connection, there, _, _, ready, _, _, same⟩ := quiet 0 member
  exact ⟨final, ran, pooled, connection, there, ready, same⟩

/-- In every reachable world, a call of `tcp_write_chunk` on a stream that it
has acquired returns when its server waits for it, nothing disturbs it and its
chunk is admitted, in whatever pieces the payload arrives.  It extends the
block and leaves all others alone; its stream goes back into the pool, or is
dropped when the pool has eight. -/
theorem write_returns (lawful : crates.Lawful) {events : List TcpEvent}
    (ran : run (World.step crates settings) .empty events = some world)
    (there : world.connections[index]? = some connection)
    (held : connection.client = .held) (ready : connection.server = .ready)
    (clientOpen : connection.clientOpen = true)
    (serverOpen : connection.serverOpen = true)
    {handle : MemoryBlockHandle} {transferId : Uuid} {offset now : Nat}
    {payload question thanks : List UInt8} {arc : Arc} {block : RamBlock}
    {pieces : List (List UInt8)} (filled : ∀ piece ∈ pieces, piece ≠ [])
    (whole : pieces.flatten = payload)
    (checked : Connection.checkRange (settings connection.address)
      (Call.request crates (.write handle transferId offset payload)) =
        .ok ())
    (found : (world.ram connection.address).get handle.id = .ok arc)
    (free : (world.ram connection.address).lock? arc = some block)
    (admitted : block.admitDirect now handle
      (announcedChunk crates handle transferId offset payload) = .ok ())
    (asks : crates.writeFrame crates.request
      (Call.request crates (.write handle transferId offset payload)) =
        .ok question)
    (answers : crates.writeFrame crates.response (.answer crates.null) =
      .ok thanks) :
    let pool := world.pool connection.daemon connection.address
    let returned := connection.returned block.handle.id handle transferId
      offset payload
    ∃ final, run (World.step crates settings) world
        (undisturbed index (.write handle transferId offset payload) now
          pieces ++ [.release index]) = some final ∧
      (pool.length < 8 →
        final.pool connection.daemon connection.address = pool ++ [index] ∧
        final.connections[index]? =
          some { returned with client := .pooled }) ∧
      (¬pool.length < 8 →
        final.pool connection.daemon connection.address = pool ∧
        final.connections[index]? = some returned.fail) ∧
      (final.ram connection.address).heap[arc]? =
        some ⟨block.extend offset payload transferId, none⟩ ∧
      ∀ other, other ≠ arc →
        (final.ram connection.address).heap[other]? =
          (world.ram connection.address).heap[other]? := by
  have aligned := (run_sound lawful ran).1.aligned index connection there
  have shape := held_between aligned held ready clientOpen serverOpen
  exact write_goes lawful filled whole there shape checked found free admitted
    asks answers

theorem write_returns_abc : ∃ world final,
    run (World.step abcCrates abcSettings) .empty abcGreets = some world ∧
    run (World.step abcCrates abcSettings) world abcWrites = some final ∧
    final.pool 1 2 = [0] ∧
    (final.ram 2).heap[0]? = some
      ⟨(RamBlock.allocated abcHandle).extend 0 [97, 98, 99] 9, none⟩ := by
  obtain ⟨world, greeted, there, empty, found, free⟩ := abcGreets_run
  have room : (world.pool 1 2).length < 8 := by
    rw [empty]
    decide
  obtain ⟨final, goes, kept, _, extended, _⟩ := write_returns abcCrates_lawful
    greeted there rfl rfl rfl rfl abcFilled abcWhole abcChecked found free
    abcAdmitted (Crates.writeFrame_fits abcAsks)
    (Crates.writeFrame_fits abcAnswers)
  have pooled : final.pool 1 2 = world.pool 1 2 ++ [0] := (kept room).1
  rw [empty] at pooled
  exact ⟨world, final, greeted, goes, pooled, extended⟩

end

end TcpData

end TrainPool
