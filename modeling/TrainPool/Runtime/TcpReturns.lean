import TrainPool.Runtime.TcpExchanges

namespace TrainPool

namespace TcpData

open Execution Wire

variable {ν : Type}

/-! A call that nothing disturbs returns. -/

/-- The world with one connection, and the blocks of its server, in this
state. -/
def World.place (world : World ν) (index : Nat) (connection : Connection ν)
    (ram : LocalRam) : World ν :=
  (world.setRam connection.address ram).setConnection index connection

section

variable {crates : Crates ν} {settings : SocketAddr → Settings}
  {world : World ν} {index : Nat} {connection next : Connection ν}
  {ram after : LocalRam}

theorem place_there (inside : index < world.connections.length) :
    (world.place index connection ram).connections[index]? =
      some connection := by
  simp [World.place, World.setConnection, World.setRam, inside]

theorem place_place (address : next.address = connection.address) :
    ((world.place index connection ram).setRam connection.address
      after).setConnection index next = world.place index next after := by
  simp [World.place, World.setConnection, World.setRam, address]

theorem place_client (inside : index < world.connections.length)
    (present : connection.clientOpen = true) {event : ClientEvent}
    (stepped : connection.clientStep crates (settings connection.daemon)
      event = some next) :
    (world.place index connection ram).step crates settings
      (.client index event) = some (world.place index next ram) := by
  have address := (clientStep_asks stepped).address
  simp only [World.step]
  rw [place_there inside]
  simp only [Option.bind_eq_bind, Option.bind_some, present, if_true, stepped]
  simp [World.place, World.setConnection, World.setRam, address]

theorem place_server (inside : index < world.connections.length)
    (present : connection.serverOpen = true) {event : ServerEvent}
    (stepped : connection.serverStep crates (settings connection.address) ram
      event = some (next, after))
    (address : next.address = connection.address) :
    (world.place index connection ram).step crates settings
      (.server index event) = some (world.place index next after) := by
  have stored : (world.place index connection ram).ram connection.address =
      ram := by
    simp [World.place, World.setConnection, World.setRam]
  simp only [World.step]
  rw [place_there inside]
  simp only [Option.bind_eq_bind, Option.bind_some, present, if_true, stored,
    stepped]
  rw [place_place address]

end

def between (daemon address : SocketAddr) (client : ClientStage ν)
    (server : ServerStage) (toServer toClient : List UInt8)
    (asked served : List Exchange) : Connection ν :=
  ⟨daemon, address, client, server, true, true, toServer, toClient, asked,
    served⟩

section

variable {crates : Crates ν} {settings : Settings}
  {daemon address : SocketAddr} {asked served : List Exchange}
  {handle : MemoryBlockHandle} {transferId : Uuid} {offset : Nat}
  {payload question thanks : List UInt8} {arc : Arc} {ram : LocalRam}
  {block : RamBlock}

theorem ask_goes {call : Call}
    (written : crates.writeFrame crates.request (call.request crates) =
      .ok question) :
    (between daemon address .held .ready [] [] asked served).clientStep crates
        settings (.ask call) =
      some (between daemon address (.announced call) .ready question []
        asked served) := by
  simp only [Connection.clientStep, between, Connection.tell, written]
  rfl

theorem parse_goes (lawful : crates.Lawful) {call : Call}
    (written : crates.writeFrame crates.request (call.request crates) =
      .ok question) :
    (between daemon address (.announced call) .ready question [] asked
        served).serverStep crates settings ram .parse =
      some (between daemon address (.announced call)
        (.handling (call.request crates)) [] [] asked served, ram) := by
  have read : crates.readFrame crates.request (question ++ []) =
      some (.ok (call.request crates), []) :=
    (lawful.request (call.request crates)).front written
  rw [List.append_nil] at read
  simp only [Connection.serverStep, between, read]
  rfl

theorem check_goes {call : Call}
    (checked : Connection.checkRange settings (call.request crates) = .ok ())
    (found : ram.get (Connection.blockId (call.request crates)) = .ok arc) :
    (between daemon address (.announced call)
        (.handling (call.request crates)) [] [] asked served).serverStep crates
        settings ram .check =
      some (between daemon address (.announced call)
        (.waiting (call.request crates) arc) [] [] asked served, ram) := by
  simp only [Connection.serverStep, between, checked, found]
  rfl

def announcedChunk (crates : Crates ν) (handle : MemoryBlockHandle)
    (transferId : Uuid) (offset : Nat) (payload : List UInt8) : Chunk :=
  ⟨transferId, offset, payload.length, handle.size, hexHash crates payload⟩

theorem lock_goes {now : Nat} (free : ram.lock? arc = some block)
    (admitted : block.admitDirect now handle
      (announcedChunk crates handle transferId offset payload) = .ok ())
    (written : crates.writeFrame crates.response (.answer crates.null) =
      .ok thanks) :
    (between daemon address
        (.announced (.write handle transferId offset payload))
        (.waiting (Call.request crates
          (.write handle transferId offset payload)) arc) [] [] asked
        served).serverStep crates settings ram (.lock now) =
      some (between daemon address
        (.announced (.write handle transferId offset payload))
        (.receiving handle
          (announcedChunk crates handle transferId offset payload) arc [])
        [] thanks asked served,
        ram.put arc ⟨block, some (.writing
          (announcedChunk crates handle transferId offset payload) 0)⟩) := by
  have allowed : block.admitDirect now handle ⟨transferId, offset,
      payload.length, handle.size, hexHash crates payload⟩ = .ok () := admitted
  simp only [Connection.serverStep, between, free, Option.bind_eq_bind,
    Option.bind_some, Call.request, Connection.serveChunk, allowed,
    Connection.reply, written]
  simp [Connection.orRefuse, bind, Except.bind, pure, Except.pure,
    announcedChunk]

theorem invited_goes (lawful : crates.Lawful) {server : ServerStage}
    (written : crates.writeFrame crates.response (.answer crates.null) =
      .ok thanks) :
    (between daemon address
        (.announced (.write handle transferId offset payload)) server []
        thanks asked served).clientStep crates settings .hear =
      some (between daemon address (.sent handle transferId offset payload)
        server payload [] asked served) := by
  have read : crates.readFrame crates.response (thanks ++ []) =
      some (.ok (.answer crates.null), []) := lawful.done.front written
  rw [List.append_nil] at read
  simp only [Connection.clientStep, between, Connection.listen, read]
  rfl

theorem arrive_goes {client : ClientStage ν} {chunk : Chunk} {cell : Cell}
    {got piece rest : List UInt8} (positive : 0 < piece.length)
    (fits : got.length + piece.length ≤ chunk.length)
    (stored : ram.heap[arc]? = some cell) :
    (between daemon address client (.receiving handle chunk arc got)
        (piece ++ rest) [] asked served).serverStep crates settings ram
        (.arrive piece.length) =
      some (between daemon address client
        (.receiving handle chunk arc (got ++ piece)) rest [] asked served,
        ram.put arc ⟨cell.block.stream chunk got.length piece,
          some (.writing chunk (got ++ piece).length)⟩) := by
  have allowed : 0 < piece.length ∧
      piece.length ≤ (piece ++ rest).length ∧
      got.length + piece.length ≤ chunk.length :=
    ⟨positive, by simp, fits⟩
  simp only [Connection.serverStep, between]
  refine (if_pos allowed).trans ?_
  simp [stored]

theorem stream_stream {chunk : Chunk} {got piece : List UInt8}
    (bounded : chunk.offset + got.length ≤ block.bytes.length) :
    (block.stream chunk 0 got).stream chunk got.length piece =
      block.stream chunk 0 (got ++ piece) :=
  congrArg (fun bytes => { block with bytes := bytes })
    (Slice.overwrite_overwrite bounded)

theorem store_goes {client : ClientStage ν} {chunk : Chunk} {cell : Cell}
    {stored : RamBlock} (length : payload.length = chunk.length)
    (there : ram.heap[arc]? = some cell)
    (finished : cell.block.finishDirect crates.blake3 chunk = .ok stored) :
    (between daemon address client (.receiving handle chunk arc payload) [] []
        asked served).serverStep crates settings ram .store =
      some (between daemon address client .stored [] [] asked
        (served ++ [.wrote cell.block.handle.id chunk.transferId chunk.offset
          (Slice.slice cell.block.bytes chunk.offset
            (chunk.offset + chunk.length))]),
        ram.put arc ⟨stored, none⟩) := by
  simp [Connection.serverStep, between, length, there, finished]

theorem answer_goes {client : ClientStage ν}
    (written : crates.writeFrame crates.response (.answer crates.null) =
      .ok thanks) :
    (between daemon address client .stored [] [] asked served).serverStep
        crates settings ram .answer =
      some (between daemon address client .ready [] thanks asked served,
        ram) := by
  simp [Connection.serverStep, between, Connection.reply, written,
    Connection.orRefuse, bind, Except.bind, pure, Except.pure]

theorem thanked_goes (lawful : crates.Lawful) {server : ServerStage}
    (written : crates.writeFrame crates.response (.answer crates.null) =
      .ok thanks) :
    (between daemon address (.sent handle transferId offset payload) server []
        thanks asked served).clientStep crates settings .hear =
      some (between daemon address .finished server [] []
        (asked ++ [.wrote handle.id transferId offset payload]) served) := by
  have read : crates.readFrame crates.response (thanks ++ []) =
      some (.ok (.answer crates.null), []) := lawful.done.front written
  rw [List.append_nil] at read
  simp only [Connection.clientStep, between, Connection.listen, read]
  rfl

theorem finish_streamed (fits : offset + payload.length ≤
      block.bytes.length) :
    (block.stream (announcedChunk crates handle transferId offset payload) 0
        payload).finishDirect crates.blake3
        (announcedChunk crates handle transferId offset payload) =
      .ok (block.extend offset payload transferId) ∧
    Slice.slice (block.stream (announcedChunk crates handle transferId offset
      payload) 0 payload).bytes offset (offset + payload.length) =
        payload := by
  have piece : Slice.slice (block.stream (announcedChunk crates handle
      transferId offset payload) 0 payload).bytes offset
        (offset + payload.length) = payload :=
    Slice.slice_overwrite ((Nat.le_add_right _ _).trans fits)
  refine ⟨?_, piece⟩
  refine ensure_bind_ok.mpr ⟨?_, ?_⟩
  · exact congrArg (hexHash crates) piece
  · refine congrArg Except.ok ?_
    have hash : block.hash ++ Slice.slice (block.stream (announcedChunk crates
        handle transferId offset payload) 0 payload).bytes offset
          (offset + payload.length) = block.hash ++ payload := by
      rw [piece]
    exact congrArg (fun hash => { block.extend offset payload transferId with
      hash := hash }) hash

end

section

variable {crates : Crates ν} {settings : SocketAddr → Settings}
  {world : World ν} {index : Nat} {connection : Connection ν}

theorem place_self (there : world.connections[index]? = some connection) :
    world.place index connection (world.ram connection.address) = world := by
  obtain ⟨inside, same⟩ := List.getElem?_eq_some_iff.mp there
  unfold World.place World.setConnection World.setRam
  subst same
  simp

theorem place_release {ram : LocalRam}
    (inside : index < world.connections.length)
    (present : connection.clientOpen = true)
    (stage : connection.client = .finished)
    (room : (world.pool connection.daemon connection.address).length < 8) :
    (world.place index connection ram).step crates settings (.release index) =
      some ((world.place index { connection with client := .pooled }
        ram).setPool connection.daemon connection.address
          (world.pool connection.daemon connection.address ++ [index])) := by
  simp only [World.step]
  rw [place_there inside]
  simp only [Option.bind_eq_bind, Option.bind_some, present, stage]
  refine (if_pos room).trans ?_
  simp [World.place, World.setPool, World.setConnection, World.setRam]

theorem place_dropped {ram : LocalRam}
    (inside : index < world.connections.length)
    (present : connection.clientOpen = true)
    (stage : connection.client = .finished)
    (full : ¬(world.pool connection.daemon connection.address).length < 8) :
    (world.place index connection ram).step crates settings (.release index) =
      some (world.place index connection.fail ram) := by
  simp only [World.step]
  rw [place_there inside]
  simp only [Option.bind_eq_bind, Option.bind_some, present, stage]
  refine (if_neg full).trans ?_
  simp [World.place, World.setConnection, World.setRam, Connection.fail]

/-- A payload comes in any pieces; the block has at any time what has come
of it. -/
theorem arrivals_go {daemon address : SocketAddr}
    {client : ClientStage ν} {asked served : List Exchange}
    {handle : MemoryBlockHandle} {chunk : Chunk} {arc : Arc}
    {block : RamBlock} (inside : index < world.connections.length)
    (bounded : chunk.offset + chunk.length ≤ block.bytes.length)
    {pieces : List (List UInt8)} (filled : ∀ piece ∈ pieces, piece ≠ [])
    {got : List UInt8} {ram : LocalRam}
    (fits : got.length + pieces.flatten.length ≤ chunk.length)
    (stored : ram.heap[arc]? = some ⟨block.stream chunk 0 got,
      some (.writing chunk got.length)⟩) :
    ∃ after : LocalRam,
      run (World.step crates settings)
        (world.place index (between daemon address client
          (.receiving handle chunk arc got) pieces.flatten [] asked served)
          ram)
        (pieces.map fun piece => .server index (.arrive piece.length)) =
      some (world.place index (between daemon address client
        (.receiving handle chunk arc (got ++ pieces.flatten)) [] [] asked
        served) after) ∧
      after.heap[arc]? =
        some ⟨block.stream chunk 0 (got ++ pieces.flatten),
          some (.writing chunk (got ++ pieces.flatten).length)⟩ ∧
      ∀ other, other ≠ arc → after.heap[other]? = ram.heap[other]? := by
  induction pieces generalizing got ram with
  | nil =>
      refine ⟨ram, ?_, ?_, fun _ _ => rfl⟩
      · simp
      · simpa using stored
  | cons piece rest ih =>
      have positive : 0 < piece.length :=
        List.length_pos_of_ne_nil (filled piece List.mem_cons_self)
      rw [List.flatten_cons, List.length_append] at fits
      have arrived : (got ++ piece).length + rest.flatten.length ≤
          chunk.length := by
        rw [List.length_append]
        omega
      -- The next piece lands behind those that have come.
      have landed : (block.stream chunk 0 got).stream chunk got.length piece =
          block.stream chunk 0 (got ++ piece) :=
        stream_stream (by omega)
      have held := @put_stored ram arc _
        ⟨(block.stream chunk 0 got).stream chunk got.length piece,
          some (.writing chunk (got ++ piece).length)⟩ stored
      rw [landed] at held
      obtain ⟨after, goes, full, others⟩ := ih
        (fun other member => filled other (List.mem_cons_of_mem _ member))
        arrived held
      refine ⟨after, ?_, ?_, ?_⟩
      · refine run_cons.mpr ⟨_, place_server inside rfl
          (arrive_goes positive (by omega) stored) rfl, ?_⟩
        rw [landed, List.flatten_cons, ← List.append_assoc]
        exact goes
      · rw [List.flatten_cons, ← List.append_assoc]
        exact full
      · intro other apart
        rw [others other apart, heap_put, if_neg apart.symm]

/-- The steps of a call of `tcp_write_chunk` that nothing disturbs and whose
payload arrives in these pieces. -/
def undisturbed (index : Nat) (call : Call) (now : Nat)
    (pieces : List (List UInt8)) : List TcpEvent :=
  [.client index (.ask call), .server index .parse, .server index .check,
    .server index (.lock now), .client index .hear] ++
  pieces.map (fun piece => .server index (.arrive piece.length)) ++
  [.server index .store, .server index .answer, .client index .hear]

/-- A connection on which one more write has been served, and has returned. -/
def Connection.returned (connection : Connection ν) (id : Uuid)
    (handle : MemoryBlockHandle) (transferId : Uuid) (offset : Nat)
    (payload : List UInt8) : Connection ν :=
  { connection with
    client := .finished
    asked := connection.asked ++ [.wrote handle.id transferId offset payload]
    served := connection.served ++ [.wrote id transferId offset payload] }

theorem undisturbed_goes (lawful : crates.Lawful)
    {daemon address : SocketAddr} {asked served : List Exchange}
    {handle : MemoryBlockHandle} {transferId : Uuid} {offset now : Nat}
    {payload question thanks : List UInt8} {arc : Arc} {block : RamBlock}
    {pieces : List (List UInt8)} (filled : ∀ piece ∈ pieces, piece ≠ [])
    (whole : pieces.flatten = payload)
    (there : world.connections[index]? =
      some (between daemon address .held .ready [] [] asked served))
    (checked : Connection.checkRange (settings address)
      (Call.request crates (.write handle transferId offset payload)) =
        .ok ())
    (found : (world.ram address).get handle.id = .ok arc)
    (free : (world.ram address).lock? arc = some block)
    (admitted : block.admitDirect now handle
      (announcedChunk crates handle transferId offset payload) = .ok ())
    (asks : crates.writeFrame crates.request
      (Call.request crates (.write handle transferId offset payload)) =
        .ok question)
    (answers : crates.writeFrame crates.response (.answer crates.null) =
      .ok thanks) :
    ∃ ram : LocalRam,
      run (World.step crates settings) world
        (undisturbed index (.write handle transferId offset payload) now
          pieces) =
      some (world.place index ((between daemon address .held .ready [] []
        asked served).returned block.handle.id handle transferId offset
          payload) ram) ∧
      ram.heap[arc]? =
        some ⟨block.extend offset payload transferId, none⟩ ∧
      ∀ other, other ≠ arc →
        ram.heap[other]? = (world.ram address).heap[other]? := by
  obtain ⟨inside, _⟩ := List.getElem?_eq_some_iff.mp there
  have fits : offset + payload.length ≤ block.bytes.length :=
    (RamBlock.admitDirect_ok admitted).2.2
  obtain ⟨stored, _⟩ := free_idle free
  let chunk := announcedChunk crates handle transferId offset payload
  obtain ⟨finishes, piece⟩ := @finish_streamed _ crates handle transferId _ _ _
    fits
  let locked := (world.ram address).put arc
    ⟨block, some (.writing chunk 0)⟩
  have held : locked.heap[arc]? = some ⟨block.stream chunk 0 [],
      some (.writing chunk 0)⟩ := by
    have same : block.stream chunk 0 [] = block := by
      simp [RamBlock.stream]
    rw [same]
    exact put_stored stored
  have length : chunk.length = payload.length := rfl
  obtain ⟨filledRam, arrives, full, others⟩ := @arrivals_go _ crates settings
    world index daemon address (.sent handle transferId offset payload) asked
    served handle chunk arc block inside fits pieces filled [] locked
    (by rw [whole, length]; simp) held
  rw [List.nil_append, whole] at arrives full
  refine ⟨_, ?_, put_stored full, ?_⟩
  · conv_lhs => rw [← place_self there]
    refine run_append.mpr ⟨_, run_append.mpr ⟨_, ?_, arrives⟩, ?_⟩
    · refine run_cons.mpr ⟨_, place_client inside rfl (ask_goes asks), ?_⟩
      refine run_cons.mpr ⟨_, place_server inside rfl
        (parse_goes lawful asks) rfl, ?_⟩
      refine run_cons.mpr ⟨_, place_server inside rfl
        (check_goes checked found) rfl, ?_⟩
      refine run_cons.mpr ⟨_, place_server inside rfl
        (lock_goes free admitted answers) rfl, ?_⟩
      refine run_cons.mpr ⟨_, place_client inside rfl
        (invited_goes lawful answers), ?_⟩
      rfl
    · refine run_cons.mpr ⟨_, place_server inside rfl
        (store_goes rfl full finishes) rfl, ?_⟩
      refine run_cons.mpr ⟨_, place_server inside rfl
        (answer_goes answers) rfl, ?_⟩
      refine run_cons.mpr ⟨_, place_client inside rfl
        (thanked_goes lawful answers), ?_⟩
      exact congrArg (fun bytes => some (world.place index
        (between daemon address .finished .ready [] []
          (asked ++ [.wrote handle.id transferId offset payload])
          (served ++ [.wrote block.handle.id transferId offset bytes])) _))
        piece
  · intro other apart
    rw [heap_put, if_neg apart.symm, others other apart, heap_put,
      if_neg apart.symm]

theorem write_goes (lawful : crates.Lawful)
    {daemon address : SocketAddr} {asked served : List Exchange}
    {handle : MemoryBlockHandle} {transferId : Uuid} {offset now : Nat}
    {payload question thanks : List UInt8} {arc : Arc} {block : RamBlock}
    {pieces : List (List UInt8)} (filled : ∀ piece ∈ pieces, piece ≠ [])
    (whole : pieces.flatten = payload)
    (there : world.connections[index]? = some connection)
    (shape : connection = between daemon address .held .ready [] [] asked
      served)
    (checked : Connection.checkRange (settings address)
      (Call.request crates (.write handle transferId offset payload)) =
        .ok ())
    (found : (world.ram address).get handle.id = .ok arc)
    (free : (world.ram address).lock? arc = some block)
    (admitted : block.admitDirect now handle
      (announcedChunk crates handle transferId offset payload) = .ok ())
    (asks : crates.writeFrame crates.request
      (Call.request crates (.write handle transferId offset payload)) =
        .ok question)
    (answers : crates.writeFrame crates.response (.answer crates.null) =
      .ok thanks) :
    ∃ final, run (World.step crates settings) world
        (undisturbed index (.write handle transferId offset payload) now
          pieces ++ [.release index]) = some final ∧
      ((world.pool daemon address).length < 8 →
        final.pool daemon address = world.pool daemon address ++ [index] ∧
        final.connections[index]? = some { connection.returned
          block.handle.id handle transferId offset payload with
            client := .pooled }) ∧
      (¬(world.pool daemon address).length < 8 →
        final.pool daemon address = world.pool daemon address ∧
        final.connections[index]? = some (connection.returned
          block.handle.id handle transferId offset payload).fail) ∧
      (final.ram address).heap[arc]? =
        some ⟨block.extend offset payload transferId, none⟩ ∧
      ∀ other, other ≠ arc → (final.ram address).heap[other]? =
        (world.ram address).heap[other]? := by
  subst shape
  obtain ⟨inside, _⟩ := List.getElem?_eq_some_iff.mp there
  obtain ⟨ram, goes, extended, others⟩ := undisturbed_goes lawful filled whole
    there checked found free admitted asks answers
  by_cases room : (world.pool daemon address).length < 8
  · refine ⟨_, run_snoc.mpr ⟨_, goes, place_release inside rfl rfl room⟩,
      fun _ => ⟨?_, ?_⟩, fun full => absurd room full, ?_, ?_⟩
    · simp [World.setPool, World.place, World.setConnection, World.setRam,
        between, Connection.returned]
    · exact place_there inside
    · simpa [World.setPool, World.place, World.setConnection, World.setRam,
        between, Connection.returned] using extended
    · intro other apart
      simpa [World.setPool, World.place, World.setConnection, World.setRam,
        between, Connection.returned] using others other apart
  · refine ⟨_, run_snoc.mpr ⟨_, goes, place_dropped inside rfl rfl room⟩,
      fun less => absurd less room, fun _ => ⟨?_, ?_⟩, ?_, ?_⟩
    · simp [World.place, World.setConnection, World.setRam]
    · exact place_there inside
    · simpa [World.place, World.setConnection, World.setRam, between,
        Connection.returned, Connection.fail] using extended
    · intro other apart
      simpa [World.place, World.setConnection, World.setRam, between,
        Connection.returned, Connection.fail] using others other apart

theorem held_between (aligned : Aligned crates connection)
    (held : connection.client = .held) (ready : connection.server = .ready)
    (clientOpen : connection.clientOpen = true)
    (serverOpen : connection.serverOpen = true) :
    connection = between connection.daemon connection.address .held .ready
      [] [] connection.asked connection.asked := by
  obtain ⟨up, down, script, carries, heard⟩ := aligned
  have silence := heard clientOpen
  obtain ⟨daemon, address, client, server, clientOpen, serverOpen, toServer,
    toClient, asked, served⟩ := connection
  dsimp only at held ready clientOpen serverOpen script carries silence
  subst held ready clientOpen serverOpen
  cases script
  rw [carries.nil, silence.nil]
  rfl

end

end TcpData

end TrainPool
