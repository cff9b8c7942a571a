import TrainPool.Cluster.Migration

namespace TrainPool

/-- A migration has a copy at its destination that it has not yet made known. -/
def MigrateStage.uploading : MigrateStage → Bool
  | .write _ _ _ _ | .writeAt _ _ _ _ _ | .commit _ _ | .commitAt _ _ _
  | .commitRegister _ _ _ | .discard _ _ | .discardCheck _ _ _
  | .discardRemove _ _ _ | .swap _ _ => true
  | _ => false

/-- The daemon on which a request has a copy of the block that it has not yet
made known. -/
def Call.upload (id : Uuid) : Call → Option Uuid
  | .migrate migration =>
      if migration.handle.id = id ∧ migration.stage.uploading then
        some migration.destination
      else
        none
  | _ => none

/-- The handles that a migration works with, besides the one requested. -/
def MigrateStage.handles : MigrateStage → List MemoryBlockHandle
  | .allocate _ handle | .write _ handle _ _ | .writeAt _ handle _ _ _
  | .commit _ handle | .commitAt _ handle _ | .discard _ handle
  | .discardCheck _ handle _ | .discardRemove _ handle _ | .swap _ handle
  | .publish _ handle | .publishAt _ handle _ => [handle]
  | .commitRegister _ first second => [first, second]
  | _ => []

def Call.handles : Call → List MemoryBlockHandle
  | .renew handle | .renewAt handle _ | .commit handle _
  | .commitAt handle _ _ | .free handle | .freeCheck handle _
  | .freeRemove handle _ | .register handle => [handle]
  | .migrate migration => migration.handle :: migration.stage.handles
  | .returned _ => []

def Call.references : Call → List (Uuid × Arc)
  | .renewAt handle arc | .commitAt handle _ arc | .freeCheck handle arc
  | .freeRemove handle arc => [(handle.ownerNode, arc)]
  | .migrate migration =>
      match migration.stage with
      | .lock arc | .target arc | .allocate arc _ | .write arc _ _ _
      | .commit arc _ | .commitRegister arc _ _ | .discard arc _
      | .swap arc _ | .publish arc _ | .releaseCheck arc
      | .releaseRemove arc => [(migration.source, arc)]
      | .writeAt arc _ _ _ copy | .commitAt arc _ copy
      | .discardCheck arc _ copy | .discardRemove arc _ copy
      | .publishAt arc _ copy =>
          [(migration.source, arc), (migration.destination, copy)]
      | .lookup | .release => []
  | _ => []

/-- Where the table says that the block is, and the copy it speaks of. -/
structure View where
  owner : Uuid
  generation : Nat
  official : Arc

namespace Cluster

section Invariant

variable (blake3 : List UInt8 → Digest) (id : Uuid) (content : List UInt8)

def Holds (cluster : Cluster) (node : Uuid) (arc : Arc)
    (generation lease : Nat) (ready : Prop) : Prop :=
  ∃ cell : Cell, (cluster.rams node).heap[arc]? = some cell ∧
    cell.block.handle.id = id ∧ cell.block.handle.generation = generation ∧
    lease ≤ cell.block.handle.leaseExpiresMs ∧
    (ready → cell.block.handle.state = .ready)

def Present (cluster : Cluster) (node : Uuid) (arc : Arc) : Prop :=
  (cluster.rams node).blocks.lookup id = some arc ∨
    ∃ cell : Cell, (cluster.rams node).heap[arc]? = some cell ∧
      cell.block.handle.leaseExpiresMs ≤ cluster.now

def Sole (cluster : Cluster) (node : Uuid) (arc : Arc) : Prop :=
  ∀ other, (cluster.rams node).blocks.lookup id = some other → other = arc

structure Copies (node : Uuid) (block : RamBlock) : Prop where
  size : block.handle.size = content.length
  taken : block.bytes.take block.written = content.take block.written
  owner : block.handle.ownerNode = node

/-- A copy that inventories and commits may speak of is not newer than the
table, and it is the official one if it is as new. -/
def Known (view : View) (node : Uuid) (arc : Arc) (block : RamBlock) :
    Prop :=
  block.published = true ∨ block.handle.generation = 0 →
    0 < block.handle.leaseExpiresMs ∧
      block.handle.generation ≤ view.generation ∧
      (block.handle.generation = view.generation →
        node = view.owner ∧ arc = view.official)

structure Targets (destination : Uuid) (generation : Nat)
    (target : MemoryBlockHandle) : Prop where
  id : target.id = id
  generation : target.generation = generation + 1
  owner : target.ownerNode = destination
  size : target.size = content.length

/-- The copy of a migration that uploads is alone on its daemon, which is not
the one that the table names. -/
def Uploads (cluster : Cluster) (view : View) (migration : Migration)
    (copy : Arc) : Prop :=
  Holds id cluster migration.destination copy
      (migration.handle.generation + 1) 0 False ∧
    Sole id cluster migration.destination copy ∧
    view.owner ≠ migration.destination

def Lasts (cluster : Cluster) (view : View) (migration : Migration)
    (copy : Arc) : Prop :=
  Present id cluster migration.destination copy ∨
    migration.handle.generation < view.generation

def Pinned (cluster : Cluster) (migration : Migration) (arc : Arc) : Prop :=
  Holds id cluster migration.source arc migration.handle.generation 0 True

def StageHolds (cluster : Cluster) (view : View) (migration : Migration) :
    MigrateStage → Prop
  | .lookup => True
  | .lock arc => ∃ generation,
      Holds id cluster migration.source arc generation 0 False
  | .target arc => Pinned id cluster migration arc
  | .allocate arc target =>
      Pinned id cluster migration arc ∧
        Targets id content migration.destination migration.handle.generation
          target
  | .write arc target _ _ | .commit arc target =>
      Pinned id cluster migration arc ∧
        Targets id content migration.destination migration.handle.generation
          target ∧
        ∃ copy, Uploads id cluster view migration copy
  | .writeAt arc target _ _ copy =>
      Pinned id cluster migration arc ∧
        Targets id content migration.destination migration.handle.generation
          target ∧
        (∃ copy, Uploads id cluster view migration copy) ∧
        ∃ generation,
          Holds id cluster migration.destination copy generation 0 False
  | .commitAt arc target copy =>
      Pinned id cluster migration arc ∧
        Targets id content migration.destination migration.handle.generation
          target ∧
        Uploads id cluster view migration copy ∧
        Lasts id cluster view migration copy
  | .commitRegister _ _ _ => False
  | .discard _ target | .discardCheck _ target _
  | .discardRemove _ target _ =>
      target.id = id ∧ ∃ copy, Uploads id cluster view migration copy
  | .swap _ committed =>
      committed.id = id ∧ committed.ownerNode = migration.destination ∧
        0 < committed.leaseExpiresMs ∧
        ∃ copy, Uploads id cluster view migration copy ∧
          Lasts id cluster view migration copy ∧
          Holds id cluster migration.destination copy committed.generation
            committed.leaseExpiresMs True
  | .publish _ committed =>
      committed.id = id ∧
        migration.handle.generation < view.generation ∧
        committed.generation ≤ view.generation ∧
        (committed.generation = view.generation →
          view.owner = migration.destination)
  | .publishAt _ committed copy =>
      migration.handle.generation < view.generation ∧
        ∃ generation,
          Holds id cluster migration.destination copy generation 0 False ∧
          (generation = committed.generation →
            generation ≤ view.generation ∧
              (generation = view.generation →
                migration.destination = view.owner ∧
                  copy = view.official))
  | .release => migration.handle.generation < view.generation
  | .releaseCheck found | .releaseRemove found =>
      migration.handle.generation < view.generation ∧
        Holds id cluster migration.source found migration.handle.generation
          0 False

def OwnCall (cluster : Cluster) (view : View) : Call → Prop
  | .renew handle => handle.id = id ∧
      handle.generation ≤ view.generation ∧
      (handle.generation = view.generation →
        handle.ownerNode = view.owner)
  | .renewAt handle arc => handle.id = id ∧ ∃ generation,
      Holds id cluster handle.ownerNode arc generation 0 False ∧
        generation ≤ view.generation ∧
        (generation = view.generation →
          handle.ownerNode = view.owner ∧ arc = view.official)
  | .commit handle _ => handle.id = id
  | .commitAt handle _ arc => ∃ generation,
      Holds id cluster handle.ownerNode arc generation 0 False
  | .register handle => handle.id = id ∧ 0 < handle.leaseExpiresMs ∧
      handle.generation ≤ view.generation ∧
      (handle.generation = view.generation →
        handle.ownerNode = view.owner ∧
          Holds id cluster view.owner view.official view.generation
            handle.leaseExpiresMs (handle.state = .ready))
  | .free _ | .freeCheck _ _ | .freeRemove _ _ => False
  | .migrate migration => migration.handle.id = id ∧
      StageHolds id content cluster view migration migration.stage
  | .returned _ => True

def Strange (cluster : Cluster) (node : Uuid) (arc : Arc) : Prop :=
  ∃ cell : Cell, (cluster.rams node).heap[arc]? = some cell ∧
    cell.block.handle.id ≠ id

def Foreign (cluster : Cluster) (call : Call) : Prop :=
  (∀ handle ∈ call.handles, handle.id ≠ id) ∧
    ∀ node arc, (node, arc) ∈ call.references → Strange id cluster node arc

def CallHolds (cluster : Cluster) (view : View) (call : Call) : Prop :=
  OwnCall id content cluster view call ∨ Foreign id cluster call

structure Anchored (cluster : Cluster) (view : View) : Prop where
  sound : ∀ node, (cluster.rams node).Sound blake3
  copies : ∀ node (arc : Arc) (cell : Cell),
    (cluster.rams node).heap[arc]? = some cell →
    cell.block.handle.id = id →
    Copies content node cell.block ∧ Known view node arc cell.block
  keyed : cluster.table.Keyed
  entry : ∃ entry, cluster.table.lookup id = some entry ∧
    0 < entry.leaseExpiresMs ∧ entry.ownerNode = view.owner ∧
    entry.generation = view.generation ∧
    Holds id cluster view.owner view.official view.generation
      entry.leaseExpiresMs (entry.state = .ready)
  present : Present id cluster view.owner view.official
  sole : Sole id cluster view.owner view.official
  calls : ∀ key call, cluster.calls.lookup key = some call →
    CallHolds id content cluster view call
  apart : ∀ first second one other node,
    cluster.calls.lookup first = some one →
    cluster.calls.lookup second = some other →
    one.upload id = some node → other.upload id = some node →
    first = second

end Invariant

section Follows

variable {blake3 : List UInt8 → Digest} {id : Uuid} {content : List UInt8}
  {cluster next : Cluster} {view : View} {spared : Uuid → Prop}

theorem Holds.weaken {node : Uuid} {arc : Arc} {generation lease : Nat}
    {ready : Prop} (holds : Holds id cluster node arc generation lease ready) :
    Holds id cluster node arc generation 0 False := by
  obtain ⟨cell, stored, same, level, _, _⟩ := holds
  exact ⟨cell, stored, same, level, Nat.zero_le _, False.elim⟩

/-- A later state keeps what was known of the copies.  On the daemons that are
spared, what can be looked up may change. -/
structure Follows (id : Uuid) (spared : Uuid → Prop) (view : View)
    (cluster next : Cluster) : Prop where
  holds : ∀ node arc generation lease ready,
    Holds id cluster node arc generation lease ready →
    Holds id next node arc generation lease ready
  sole : ∀ node arc, ¬spared node → Sole id cluster node arc →
    Sole id next node arc
  present : ∀ node arc generation, ¬spared node →
    Holds id cluster node arc generation 0 False →
    Present id cluster node arc →
    Present id next node arc ∨ generation < view.generation
  strange : ∀ node arc, Strange id cluster node arc →
    Strange id next node arc

theorem Follows.uploads (follows : Follows id spared view cluster next)
    {migration : Migration} {copy : Arc}
    (uploads : Uploads id cluster view migration copy)
    (kept : ¬spared migration.destination) :
    Uploads id next view migration copy :=
  ⟨follows.holds _ _ _ _ _ uploads.1, follows.sole _ _ kept uploads.2.1,
    uploads.2.2⟩

theorem Follows.lasts (follows : Follows id spared view cluster next)
    {migration : Migration} {copy : Arc}
    (uploads : Uploads id cluster view migration copy)
    (lasts : Lasts id cluster view migration copy)
    (kept : ¬spared migration.destination) :
    Lasts id next view migration copy := by
  rcases lasts with present | moved
  · rcases follows.present _ _ _ kept uploads.1 present with
      present | moved
    · exact .inl present
    · exact .inr (by omega)
  · exact .inr moved

theorem Follows.stage (follows : Follows id spared view cluster next)
    {migration : Migration}
    (kept : migration.stage.uploading = true →
      ¬spared migration.destination)
    (holds : StageHolds id content cluster view migration migration.stage) :
    StageHolds id content next view migration migration.stage := by
  obtain ⟨source, destination, handle, stage⟩ := migration
  cases stage with
  | lookup => trivial
  | lock arc =>
      obtain ⟨generation, held⟩ := holds
      exact ⟨generation, follows.holds _ _ _ _ _ held⟩
  | target arc => exact follows.holds _ _ _ _ _ holds
  | allocate arc target => exact ⟨follows.holds _ _ _ _ _ holds.1, holds.2⟩
  | write arc target transferId offset =>
      obtain ⟨pinned, targets, copy, uploads⟩ := holds
      exact ⟨follows.holds _ _ _ _ _ pinned, targets, copy,
        follows.uploads uploads (kept rfl)⟩
  | commit arc target =>
      obtain ⟨pinned, targets, copy, uploads⟩ := holds
      exact ⟨follows.holds _ _ _ _ _ pinned, targets, copy,
        follows.uploads uploads (kept rfl)⟩
  | writeAt arc target transferId offset copy =>
      obtain ⟨pinned, targets, ⟨own, uploads⟩, generation, held⟩ := holds
      exact ⟨follows.holds _ _ _ _ _ pinned, targets,
        ⟨own, follows.uploads uploads (kept rfl)⟩, generation,
        follows.holds _ _ _ _ _ held⟩
  | commitAt arc target copy =>
      obtain ⟨pinned, targets, uploads, lasts⟩ := holds
      exact ⟨follows.holds _ _ _ _ _ pinned, targets,
        follows.uploads uploads (kept rfl),
        follows.lasts uploads lasts (kept rfl)⟩
  | commitRegister arc target committed => exact holds
  | discard arc target =>
      obtain ⟨same, copy, uploads⟩ := holds
      exact ⟨same, copy, follows.uploads uploads (kept rfl)⟩
  | discardCheck arc target found =>
      obtain ⟨same, copy, uploads⟩ := holds
      exact ⟨same, copy, follows.uploads uploads (kept rfl)⟩
  | discardRemove arc target found =>
      obtain ⟨same, copy, uploads⟩ := holds
      exact ⟨same, copy, follows.uploads uploads (kept rfl)⟩
  | swap arc committed =>
      obtain ⟨same, owned, leased, copy, uploads, lasts, held⟩ := holds
      exact ⟨same, owned, leased, copy, follows.uploads uploads (kept rfl),
        follows.lasts uploads lasts (kept rfl),
        follows.holds _ _ _ _ _ held⟩
  | publish arc committed => exact holds
  | publishAt arc committed copy =>
      obtain ⟨moved, generation, held, official⟩ := holds
      exact ⟨moved, generation, follows.holds _ _ _ _ _ held, official⟩
  | release => exact holds
  | releaseCheck found =>
      exact ⟨holds.1, follows.holds _ _ _ _ _ holds.2⟩
  | releaseRemove found =>
      exact ⟨holds.1, follows.holds _ _ _ _ _ holds.2⟩

theorem Follows.own (follows : Follows id spared view cluster next)
    {call : Call} (kept : ∀ node, call.upload id = some node → ¬spared node)
    (holds : OwnCall id content cluster view call) :
    OwnCall id content next view call := by
  cases call with
  | renew handle => exact holds
  | renewAt handle arc =>
      obtain ⟨same, generation, held, rest⟩ := holds
      exact ⟨same, generation, follows.holds _ _ _ _ _ held, rest⟩
  | commit handle checksum => exact holds
  | commitAt handle checksum arc =>
      obtain ⟨generation, held⟩ := holds
      exact ⟨generation, follows.holds _ _ _ _ _ held⟩
  | register handle =>
      obtain ⟨same, leased, level, official⟩ := holds
      refine ⟨same, leased, level, ?_⟩
      intro current
      exact ⟨(official current).1,
        follows.holds _ _ _ _ _ (official current).2⟩
  | free handle => exact holds
  | freeCheck handle arc => exact holds
  | freeRemove handle arc => exact holds
  | migrate migration =>
      refine ⟨holds.1, follows.stage ?_ holds.2⟩
      intro uploading
      exact kept _ (by simp [Call.upload, holds.1, uploading])
  | returned ok => trivial

theorem Follows.call (follows : Follows id spared view cluster next)
    {call : Call} (kept : ∀ node, call.upload id = some node → ¬spared node)
    (holds : CallHolds id content cluster view call) :
    CallHolds id content next view call := by
  rcases holds with own | ⟨handles, references⟩
  · exact .inl (follows.own kept own)
  · refine .inr ⟨handles, ?_⟩
    intro node arc listed
    exact follows.strange node arc (references node arc listed)

theorem Follows.anchored (follows : Follows id spared view cluster next)
    (anchored : Anchored blake3 id content cluster view)
    (table : next.table = cluster.table) (calls : next.calls = cluster.calls)
    (sound : ∀ node, (next.rams node).Sound blake3)
    (copies : ∀ node (arc : Arc) (cell : Cell),
      (next.rams node).heap[arc]? = some cell →
      cell.block.handle.id = id →
      Copies content node cell.block ∧ Known view node arc cell.block)
    (owner : ¬spared view.owner)
    (kept : ∀ key call node, cluster.calls.lookup key = some call →
      call.upload id = some node → ¬spared node) :
    Anchored blake3 id content next view := by
  obtain ⟨entry, found, leased, owned, level, held⟩ := anchored.entry
  refine ⟨sound, copies, table ▸ anchored.keyed, ?_, ?_, ?_, ?_, ?_⟩
  · exact ⟨entry, table ▸ found, leased, owned, level,
      follows.holds _ _ _ _ _ held⟩
  · rcases follows.present _ _ _ owner held.weaken anchored.present with
      present | older
    · exact present
    · exact absurd older (Nat.lt_irrefl _)
  · exact follows.sole _ _ owner anchored.sole
  · intro key call found
    rw [calls] at found
    exact follows.call (fun node uploads => kept key call node found uploads)
      (anchored.calls key call found)
  · rw [calls]
    exact anchored.apart

end Follows

end Cluster

end TrainPool
