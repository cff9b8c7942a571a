import TrainPool.Cluster.Publication
import TrainPool.Cluster.Safety

namespace TrainPool

open Execution

/-! A free and a migration of one block at the same time. -/

/-- One free and one migration, and the keys of their calls. -/
structure Overlap where
  freer : Nat
  mover : Nat
  apart : freer ≠ mover
  source : Uuid
  handle : MemoryBlockHandle
  destination : Uuid

/-- A migration that has not looked its block up, or that is published. -/
def MigrateStage.outside : MigrateStage → Bool
  | .lookup | .release | .releaseCheck _ | .releaseRemove _ => true
  | _ => false

/-- A migration that counts the generation up, for its copy or for the check
of the leader. -/
def MigrateStage.counts : MigrateStage → Bool
  | .target _ | .swap _ _ => true
  | _ => false

namespace Overlap

variable (overlap : Overlap)

def id : Uuid := overlap.handle.id

def Lasting (cluster : Cluster) : Call → Prop
  | .migrate ⟨_, destination, _, .publishAt _ _ copy⟩ =>
      ∀ cell ∈ (cluster.rams destination).heap[copy]?,
        cluster.now < cell.block.handle.leaseExpiresMs
  | _ => True

/-- Nothing but the two requests takes steps, and no message is lost. -/
def Unhindered (cluster : Cluster) : ClusterEvent → Prop
  | .tick _ => True
  | .free key id _ => key = overlap.freer ∧ id = overlap.id
  | .migrate key source handle destination =>
      key = overlap.mover ∧ source = overlap.source ∧
        handle = overlap.handle ∧ destination = overlap.destination
  | .advance key fate =>
      fate.rpc = .answered ∧ fate.headroom = true ∧ fate.reserved = true ∧
        ∀ call ∈ cluster.calls.lookup key, Lasting cluster call
  | _ => False

def Outside : Call → Prop
  | .migrate migration => migration.stage.outside
  | _ => True

/-- The block may be removed from its owner: the table still has the generation
that was resolved, and no migration is between its lookup and its end. -/
def Clear (cluster : Cluster) (handle : MemoryBlockHandle) : Prop :=
  (∀ entry ∈ cluster.table.lookup handle.id,
    entry.generation = handle.generation) ∧
  ∀ call ∈ cluster.calls.lookup overlap.mover, Outside call

def CallOrdered (cluster : Cluster) : Call → Prop
  | .free handle =>
      (cluster.rams handle.ownerNode).blocks.lookup handle.id = none →
        overlap.Clear cluster handle
  | .freeRemove handle _ => overlap.Clear cluster handle
  | .migrate migration => migration.stage.counts →
      migration.handle.generation + 1 < 2 ^ 64
  | _ => True

/-- The free removes the block only where that is clear, and the generation
that is migrated is not the last. -/
def Ordered (cluster : Cluster) : ClusterEvent → Prop
  | .advance key _ => ∀ call ∈ cluster.calls.lookup key,
      overlap.CallOrdered cluster call
  | _ => True

variable {overlap} {cluster : Cluster}

instance (call : Call) : Decidable (Lasting cluster call) :=
  match call with
  | .migrate ⟨_, _, _, stage⟩ =>
      match stage with
      | .publishAt _ _ _ => inferInstanceAs (Decidable (∀ _ ∈ _, _))
      | .lookup | .lock _ | .target _ | .allocate _ _ | .write _ _ _ _
      | .writeAt _ _ _ _ _ | .commit _ _ | .commitAt _ _ _
      | .commitRegister _ _ _ | .discard _ _ | .discardCheck _ _ _
      | .discardRemove _ _ _ | .swap _ _ | .publish _ _ | .release
      | .releaseCheck _ | .releaseRemove _ => isTrue trivial
  | .renew _ | .renewAt _ _ | .commit _ _ | .commitAt _ _ _ | .free _
  | .freeCheck _ _ | .freeRemove _ _ | .register _ | .returned _ =>
      isTrue trivial

instance (event : ClusterEvent) :
    Decidable (overlap.Unhindered cluster event) :=
  match event with
  | .tick _ => isTrue trivial
  | .free _ _ _ => inferInstanceAs (Decidable (_ ∧ _))
  | .migrate _ _ _ _ => inferInstanceAs (Decidable (_ ∧ _ ∧ _ ∧ _))
  | .advance _ _ => inferInstanceAs (Decidable (_ ∧ _ ∧ _ ∧ ∀ _ ∈ _, _))
  | .expire _ | .inventory _ _ _ | .renew _ _ _ | .commit _ _ _ _
  | .cancel _ => isFalse not_false

instance (call : Call) : Decidable (Outside call) :=
  match call with
  | .migrate _ => inferInstanceAs (Decidable (_ = true))
  | .renew _ | .renewAt _ _ | .commit _ _ | .commitAt _ _ _ | .free _
  | .freeCheck _ _ | .freeRemove _ _ | .register _ | .returned _ =>
      isTrue trivial

instance (handle : MemoryBlockHandle) :
    Decidable (overlap.Clear cluster handle) :=
  inferInstanceAs (Decidable ((∀ _ ∈ _, _) ∧ ∀ _ ∈ _, _))

instance (call : Call) : Decidable (overlap.CallOrdered cluster call) :=
  match call with
  | .free _ => inferInstanceAs (Decidable (_ → _))
  | .freeRemove _ _ => inferInstanceAs (Decidable (overlap.Clear _ _))
  | .migrate _ => inferInstanceAs (Decidable (_ = true → _))
  | .renew _ | .renewAt _ _ | .commit _ _ | .commitAt _ _ _
  | .freeCheck _ _ | .register _ | .returned _ => isTrue trivial

instance (event : ClusterEvent) :
    Decidable (overlap.Ordered cluster event) :=
  match event with
  | .advance _ _ => inferInstanceAs (Decidable (∀ _ ∈ _, _))
  | .tick _ | .expire _ | .inventory _ _ _ | .renew _ _ _
  | .commit _ _ _ _ | .free _ _ _ | .migrate _ _ _ _ | .cancel _ =>
      isTrue trivial

end Overlap

structure Original where
  owner : Uuid
  arc : Arc
  generation : Nat
  token : Uuid

namespace Cluster

section Places

variable (id : Uuid)

def Finds (node : Uuid) (arc : Arc) (fits : MemoryBlockHandle → Prop)
    (rams : Uuid → LocalRam) : Prop :=
  (rams node).blocks.lookup id = some arc ∧
    ∃ cell : Cell, (rams node).heap[arc]? = some cell ∧
      fits cell.block.handle

def Only (nodes : List Uuid) (rams : Uuid → LocalRam) : Prop :=
  ∀ node ∉ nodes, (rams node).blocks.lookup id = none

def Lists (fits : MemoryBlockHandle → Prop) (table : ResidencyTable) :
    Prop :=
  ∃ entry, table.lookup id = some entry ∧ fits entry

variable {id} {cluster : Cluster} {node other : Uuid} {arc : Arc}
  {fits : MemoryBlockHandle → Prop} {nodes : List Uuid}

theorem Finds.get {found : Arc} (finds : Finds id node arc fits cluster.rams)
    (given : (cluster.rams node).get id = .ok found) : found = arc := by
  rw [LocalRam.get_ok, finds.1] at given
  exact (Option.some.inj given).symm

theorem Finds.stored {cell : Cell}
    (finds : Finds id node arc fits cluster.rams)
    (stored : (cluster.rams node).heap[arc]? = some cell) :
    fits cell.block.handle := by
  obtain ⟨_, _, found, fits⟩ := finds
  cases stored.symm.trans found
  exact fits

theorem Finds.imp {weaker : MemoryBlockHandle → Prop}
    (finds : Finds id node arc fits cluster.rams)
    (follows : ∀ handle, fits handle → weaker handle) :
    Finds id node arc weaker cluster.rams := by
  obtain ⟨mapped, cell, stored, fits⟩ := finds
  exact ⟨mapped, cell, stored, follows _ fits⟩

theorem Finds.elsewhere {ram : LocalRam}
    (finds : Finds id node arc fits cluster.rams) (away : node ≠ other) :
    Finds id node arc fits (cluster.setRam other ram).rams := by
  unfold Finds
  rw [rams_setRam, if_neg away]
  exact finds

theorem Finds.put {weaker : MemoryBlockHandle → Prop} {after : Cell}
    (finds : Finds id node arc fits cluster.rams)
    (kept : weaker after.block.handle) :
    Finds id node arc weaker
      (cluster.setRam node ((cluster.rams node).put arc after)).rams := by
  obtain ⟨mapped, cell, stored, _⟩ := finds
  have bound := (List.getElem?_eq_some_iff.mp stored).1
  refine ⟨?_, after, ?_, kept⟩
  · simpa [rams_setRam, LocalRam.put] using mapped
  · simp [rams_setRam, LocalRam.put, bound]

theorem Only.put {place : Arc} {after : Cell}
    (only : Only id nodes cluster.rams) :
    Only id nodes
      (cluster.setRam other ((cluster.rams other).put place after)).rams := by
  intro node absent
  rw [rams_setRam]
  split
  · rename_i here
    rw [here] at absent
    exact only other absent
  · exact only node absent

theorem Finds.unlock (finds : Finds id node arc fits cluster.rams) :
    Finds id node arc fits
      (cluster.setRam node ((cluster.rams node).unlock arc)).rams := by
  unfold LocalRam.unlock
  split
  · rename_i cell stored
    have kept : fits cell.block.handle := finds.stored stored
    exact finds.put kept
  · rw [setRam_self]
    exact finds

theorem Only.unlock {place : Arc} (only : Only id nodes cluster.rams) :
    Only id nodes
      (cluster.setRam other ((cluster.rams other).unlock place)).rams := by
  unfold LocalRam.unlock
  split
  · exact only.put
  · rw [setRam_self]
    exact only

theorem Only.remove (finds : Finds id other arc fits cluster.rams)
    (only : Only id (other :: nodes) cluster.rams) :
    Only id nodes
      (cluster.setRam other ((cluster.rams other).remove id arc)).rams := by
  intro node absent
  rw [rams_setRam]
  split
  · rw [LocalRam.remove, if_pos finds.1]
    exact AList.lookup_erase _ _
  · rename_i away
    apply only
    simpa [away] using absent

end Places

/-! The invariant of the two requests.  The block is at home, or it is being
copied, or the table names the copy, or only the copy is left. -/

section Invariant

variable (overlap : Overlap) (original : Original)
  (rams : Uuid → LocalRam) (table : ResidencyTable)

structure Own (handle : MemoryBlockHandle) : Prop where
  id : handle.id = overlap.id
  generation : handle.generation = original.generation
  token : handle.leaseToken = original.token
  checksum : handle.checksum.isSome

structure Copied (handle : MemoryBlockHandle) : Prop where
  id : handle.id = overlap.id
  generation : handle.generation = original.generation + 1
  token : handle.leaseToken = original.token
  owner : handle.ownerNode = overlap.destination

structure Named (generation : Nat) (owner : Uuid)
    (entry : MemoryBlockHandle) : Prop where
  id : entry.id = overlap.id
  generation : entry.generation = generation
  owner : entry.ownerNode = owner
  token : entry.leaseToken = original.token
  leased : entry.leaseExpiresMs ≠ 0

def Home : Prop :=
  Finds overlap.id original.owner original.arc (Own overlap original) rams

structure AtHome : Prop where
  home : Home overlap original rams
  only : Only overlap.id [original.owner] rams
  lists : Lists overlap.id
    (Named overlap original original.generation original.owner) table

structure Spread (generation : Nat) (owner : Uuid) (copy : Arc)
    (fits : MemoryBlockHandle → Prop) : Prop where
  home : Home overlap original rams
  copy : Finds overlap.id overlap.destination copy fits rams
  only : Only overlap.id [overlap.destination, original.owner] rams
  lists : Lists overlap.id (Named overlap original generation owner) table

abbrev Copying : Arc → (MemoryBlockHandle → Prop) → Prop :=
  Spread overlap original rams table original.generation original.owner

abbrev Swapped : Arc → (MemoryBlockHandle → Prop) → Prop :=
  Spread overlap original rams table (original.generation + 1)
    overlap.destination

structure Moved : Prop where
  away : overlap.destination ≠ original.owner
  copy : ∃ copy,
    Finds overlap.id overlap.destination copy (fun _ => True) rams
  only : Only overlap.id [overlap.destination] rams
  lists : Lists overlap.id
    (Named overlap original (original.generation + 1) overlap.destination)
    table

structure Underway (arc : Arc) : Prop where
  arc : arc = original.arc
  source : overlap.source = original.owner
  away : overlap.destination ≠ original.owner

structure Admitted (arc : Arc) : Prop extends
    Underway overlap original arc where
  generation : overlap.handle.generation = original.generation
  token : overlap.handle.leaseToken = original.token

/-- The copy is committed, as `committed` says. -/
def Final (committed handle : MemoryBlockHandle) : Prop :=
  handle = committed ∧ handle.state = .ready

def StageOpen : MigrateStage → Prop
  | .lookup => AtHome overlap original rams table
  | .lock arc =>
      Underway overlap original arc ∧ AtHome overlap original rams table
  | .target arc =>
      Admitted overlap original arc ∧ AtHome overlap original rams table
  | .allocate arc target =>
      Admitted overlap original arc ∧ Copied overlap original target ∧
        AtHome overlap original rams table
  | .write arc target _ _ | .commit arc target | .discard arc target =>
      Admitted overlap original arc ∧ Copied overlap original target ∧
        ∃ copy,
          Copying overlap original rams table copy (Copied overlap original)
  | .writeAt arc target _ _ copy | .commitAt arc target copy
  | .discardCheck arc target copy | .discardRemove arc target copy =>
      Admitted overlap original arc ∧ Copied overlap original target ∧
        Copying overlap original rams table copy (Copied overlap original)
  | .commitRegister _ _ _ => False
  | .swap arc committed =>
      Admitted overlap original arc ∧ Copied overlap original committed ∧
        committed.leaseExpiresMs ≠ 0 ∧ ∃ copy,
          Copying overlap original rams table copy (Final committed)
  | .publish arc committed =>
      Admitted overlap original arc ∧ Copied overlap original committed ∧
        ∃ copy, Swapped overlap original rams table copy (Final committed)
  | .publishAt arc committed copy =>
      Admitted overlap original arc ∧ Copied overlap original committed ∧
        Swapped overlap original rams table copy (Final committed)
  | .release =>
      Admitted overlap original original.arc ∧
        ∃ copy, Swapped overlap original rams table copy (fun _ => True)
  | .releaseCheck found | .releaseRemove found =>
      Admitted overlap original found ∧
        ∃ copy, Swapped overlap original rams table copy (fun _ => True)

structure Moving (migration : Migration) : Prop where
  source : migration.source = overlap.source
  handle : migration.handle = overlap.handle
  destination : migration.destination = overlap.destination

def MoverOpen : Option Call → Prop
  | none => AtHome overlap original rams table
  | some (.migrate migration) => Moving overlap migration ∧
      StageOpen overlap original rams table migration.stage
  | some (.returned _) =>
      AtHome overlap original rams table ∨ Moved overlap original rams table
  | _ => False

inductive Resolved (handle : MemoryBlockHandle) : Prop
  | before (id : handle.id = overlap.id)
      (generation : handle.generation = original.generation)
      (owner : handle.ownerNode = original.owner)
  | after (id : handle.id = overlap.id)
      (generation : handle.generation = original.generation + 1)
      (owner : handle.ownerNode = overlap.destination)
      (lists : Lists overlap.id (Named overlap original
        (original.generation + 1) overlap.destination) table)

structure Looked (handle : MemoryBlockHandle) (arc : Arc) : Prop where
  before : handle.generation = original.generation → arc = original.arc
  after : handle.generation = original.generation + 1 →
    (rams overlap.destination).blocks.lookup overlap.id = some arc

def FreerOpen : Option Call → Prop
  | none | some (.returned false) => True
  | some (.free handle) => Resolved overlap original table handle
  | some (.freeCheck handle arc) | some (.freeRemove handle arc) =>
      Resolved overlap original table handle ∧
        Looked overlap original rams handle arc
  | _ => False

def MoverClosed : Option Call → Prop
  | none | some (.returned _) => Only overlap.id [] rams
  | some (.migrate migration) => Moving overlap migration ∧
      match migration.stage with
      | .lookup => Only overlap.id [] rams
      | .release => Admitted overlap original original.arc ∧
          Home overlap original rams ∧
          Only overlap.id [original.owner] rams
      | .releaseCheck found | .releaseRemove found =>
          Admitted overlap original found ∧ Home overlap original rams ∧
            Only overlap.id [original.owner] rams
      | _ => False
  | _ => False

def FreerClosed : Option Call → Prop
  | some (.register handle) => handle.id = overlap.id ∧
      handle.leaseExpiresMs = 0 ∧
      Lists overlap.id (fun entry => entry.generation = handle.generation ∧
        entry.leaseExpiresMs ≠ 0) table
  | some (.returned true) =>
      Lists overlap.id (fun entry => entry.leaseExpiresMs = 0) table
  | _ => False

structure Overlapping (cluster : Cluster) : Prop where
  sole : ∀ key, key ≠ overlap.freer → key ≠ overlap.mover →
    cluster.calls.lookup key = none
  stands : (MoverOpen overlap original cluster.rams cluster.table
        (cluster.calls.lookup overlap.mover) ∧
      FreerOpen overlap original cluster.rams cluster.table
        (cluster.calls.lookup overlap.freer)) ∨
    (MoverClosed overlap original cluster.rams
        (cluster.calls.lookup overlap.mover) ∧
      FreerClosed overlap cluster.table
        (cluster.calls.lookup overlap.freer))

end Invariant

section Places

variable {overlap : Overlap} {original : Original} {cluster : Cluster}
  {generation : Nat} {owner : Uuid} {copy : Arc}
  {fits weaker : MemoryBlockHandle → Prop}

theorem Only.mono {id : Uuid} {nodes others : List Uuid}
    (only : Only id nodes cluster.rams) (within : nodes ⊆ others) :
    Only id others cluster.rams :=
  fun node absent => only node fun member => absent (within member)

theorem AtHome.put {after : Cell}
    (atHome : AtHome overlap original cluster.rams cluster.table)
    (own : Own overlap original after.block.handle) :
    AtHome overlap original (cluster.setRam original.owner
      ((cluster.rams original.owner).put original.arc after)).rams
      cluster.table :=
  ⟨atHome.home.put own, atHome.only.put, atHome.lists⟩

theorem AtHome.unlock
    (atHome : AtHome overlap original cluster.rams cluster.table) :
    AtHome overlap original (cluster.setRam original.owner
      ((cluster.rams original.owner).unlock original.arc)).rams
      cluster.table :=
  ⟨Finds.unlock atHome.home, atHome.only.unlock, atHome.lists⟩

namespace Spread

theorem put {after : Cell}
    (spread : Spread overlap original cluster.rams cluster.table generation
      owner copy fits)
    (away : overlap.destination ≠ original.owner)
    (kept : weaker after.block.handle) :
    Spread overlap original (cluster.setRam overlap.destination
        ((cluster.rams overlap.destination).put copy after)).rams
      cluster.table generation owner copy weaker :=
  ⟨spread.home.elsewhere away.symm, spread.copy.put kept, spread.only.put,
    spread.lists⟩

theorem unlock
    (spread : Spread overlap original cluster.rams cluster.table generation
      owner copy fits)
    (away : overlap.destination ≠ original.owner) :
    Spread overlap original (cluster.setRam original.owner
        ((cluster.rams original.owner).unlock original.arc)).rams
      cluster.table generation owner copy fits :=
  ⟨Finds.unlock spread.home, spread.copy.elsewhere away,
    spread.only.unlock, spread.lists⟩

end Spread

end Places

/-! A step of the migration. -/

section Moves

variable {blake3 : List UInt8 → Digest} {nodes : Uuid → Option Node}
  {overlap : Overlap} {original : Original} {cluster next middle : Cluster}
  {migration : Migration} {fate : Fate}

def Later (overlap : Overlap) (original : Original)
    (cluster next : Cluster) : Prop :=
  Lists overlap.id (Named overlap original (original.generation + 1)
      overlap.destination) cluster.table →
    next.table = cluster.table ∧
      (next.rams overlap.destination).blocks.lookup overlap.id =
        (cluster.rams overlap.destination).blocks.lookup overlap.id

structure Moves (overlap : Overlap) (original : Original)
    (cluster next : Cluster) : Prop where
  stands : ∃ call, next.calls = cluster.calls.insert overlap.mover call ∧
    MoverOpen overlap original next.rams next.table (some call)
  later : Later overlap original cluster next

theorem Later.of_home {owner : Uuid}
    (lists : Lists overlap.id
      (Named overlap original original.generation owner) cluster.table) :
    Later overlap original cluster next := by
  intro ahead
  obtain ⟨entry, found, named⟩ := lists
  obtain ⟨other, foundToo, newer⟩ := ahead
  cases found.symm.trans foundToo
  have level := named.generation.symm.trans newer.generation
  omega

theorem Moves.proceed {stage : MigrateStage}
    (moving : Moving overlap migration)
    (calls : middle.calls = cluster.calls)
    (later : Later overlap original cluster middle)
    (holds : StageOpen overlap original middle.rams middle.table stage) :
    Moves overlap original cluster
      (middle.proceed overlap.mover migration stage) := by
  refine ⟨⟨.migrate { migration with stage := stage }, ?_,
    ⟨moving.source, moving.handle, moving.destination⟩, holds⟩, later⟩
  rw [← calls]
  rfl

theorem Moves.finish {ok : Bool} (calls : middle.calls = cluster.calls)
    (later : Later overlap original cluster middle)
    (ended : AtHome overlap original middle.rams middle.table ∨
      Moved overlap original middle.rams middle.table) :
    Moves overlap original cluster
      (middle.setCall overlap.mover (.returned ok)) := by
  refine ⟨⟨.returned ok, ?_, ended⟩, later⟩
  rw [← calls]
  rfl

theorem Moves.giveUp {arc : Arc} (moving : Moving overlap migration)
    (underway : Underway overlap original arc)
    (lists : Lists overlap.id (Named overlap original original.generation
      original.owner) cluster.table)
    (calls : middle.calls = cluster.calls)
    (atHome : AtHome overlap original middle.rams middle.table) :
    Moves overlap original cluster
      (middle.giveUp overlap.mover migration arc) := by
  unfold Cluster.giveUp
  rw [moving.source, underway.source, underway.arc]
  exact Moves.finish calls (.of_home lists) (.inl atHome.unlock)

theorem lookup_moves (moving : Moving overlap migration)
    (reached : migration.stage = .lookup)
    (atHome : StageOpen overlap original cluster.rams cluster.table .lookup)
    (stepped : cluster.advanceMigration blake3 nodes overlap.mover fate
      migration = some next) :
    Moves overlap original cluster next := by
  have later : Later overlap original cluster cluster :=
    .of_home atHome.lists
  simp only [advanceMigration, reached] at stepped
  rw [moving.handle, moving.source, moving.destination] at stepped
  split at stepped
  · cases stepped
    exact .finish rfl later (.inl atHome)
  · rename_i away
    split at stepped
    · rename_i arc found
      cases stepped
      have source : overlap.source = original.owner := by
        by_contra elsewhere
        have absent := atHome.only overlap.source (by simpa using elsewhere)
        cases (LocalRam.get_ok.mp found).symm.trans absent
      rw [source] at found away
      exact .proceed moving rfl later
        ⟨⟨atHome.home.get found, source, away⟩, atHome⟩
    · cases stepped
      exact .finish rfl later (.inl atHome)

theorem lock_moves {arc : Arc} (moving : Moving overlap migration)
    (reached : migration.stage = .lock arc)
    (holds : StageOpen overlap original cluster.rams cluster.table
      (.lock arc))
    (stepped : cluster.advanceMigration blake3 nodes overlap.mover fate
      migration = some next) :
    Moves overlap original cluster next := by
  obtain ⟨underway, atHome⟩ := holds
  simp only [advanceMigration, reached] at stepped
  rw [moving.handle, moving.source, underway.source, underway.arc] at stepped
  obtain ⟨block, free, stepped⟩ := Option.bind_eq_some_iff.mp stepped
  have own := atHome.home.stored (LocalRam.lock?_eq_some.mp free)
  split at stepped
  · rename_i admitted
    cases stepped
    simp only [RamBlock.admitMigration, RamBlock.authorize_bind_ok,
      ensure_ok] at admitted
    obtain ⟨⟨token, _⟩, generation, _⟩ := admitted
    exact .proceed moving rfl (.of_home atHome.lists)
      ⟨⟨⟨rfl, underway.source, underway.away⟩,
        generation.symm.trans own.generation, token.trans own.token⟩,
        atHome.put own⟩
  · cases stepped
    exact .finish rfl (.of_home atHome.lists) (.inl atHome)

theorem target_moves {arc : Arc} (moving : Moving overlap migration)
    (reached : migration.stage = .target arc)
    (holds : StageOpen overlap original cluster.rams cluster.table
      (.target arc))
    (bounded : migration.handle.generation + 1 < 2 ^ 64)
    (stepped : cluster.advanceMigration blake3 nodes overlap.mover fate
      migration = some next) :
    Moves overlap original cluster next := by
  obtain ⟨admitted, atHome⟩ := holds
  simp only [advanceMigration, reached] at stepped
  rw [moving.source, moving.destination] at stepped
  obtain ⟨cell, stored, stepped⟩ := Option.bind_eq_some_iff.mp stepped
  obtain ⟨self, _, stepped⟩ := Option.bind_eq_some_iff.mp stepped
  rw [admitted.source, admitted.arc] at stored
  have own := atHome.home.stored stored
  split at stepped
  · cases stepped
    exact .giveUp moving admitted.toUnderway atHome.lists rfl atHome
  · cases stepped
    refine .proceed moving rfl (.of_home atHome.lists)
      ⟨admitted, ⟨own.id, ?_, own.token, rfl⟩, atHome⟩
    rw [moving.handle, admitted.generation, ← own.generation] at bounded
    rw [← own.generation]
    exact Nat.mod_eq_of_lt bounded

theorem AtHome.allocated {next : LocalRam} {self : Identity}
    {target : MemoryBlockHandle} {headroom reserved : Bool}
    (atHome : AtHome overlap original cluster.rams cluster.table)
    (away : overlap.destination ≠ original.owner)
    (copied : Copied overlap original target)
    (allocated : allocateLocal self target headroom reserved
      (cluster.rams overlap.destination) = .ok next) :
    ∃ copy, Copying overlap original
      (cluster.setRam overlap.destination next).rams cluster.table copy
      (Copied overlap original) := by
  obtain ⟨_, _, _, rfl⟩ := LocalRam.allocateLocal_ok allocated
  refine ⟨(cluster.rams overlap.destination).heap.length,
    atHome.home.elsewhere away.symm, ⟨?_, ⟨RamBlock.allocated target, none⟩,
      ?_, copied⟩, ?_, atHome.lists⟩
  · simp [rams_setRam, copied.id]
  · simp [rams_setRam]
  · intro node absent
    simp only [List.mem_cons, List.not_mem_nil, or_false, not_or] at absent
    rw [rams_setRam, if_neg absent.1]
    exact atHome.only node (by simpa using absent.2)

theorem allocate_moves {arc : Arc} {target : MemoryBlockHandle}
    (moving : Moving overlap migration)
    (reached : migration.stage = .allocate arc target)
    (holds : StageOpen overlap original cluster.rams cluster.table
      (.allocate arc target))
    (answered : fate.rpc = .answered)
    (stepped : cluster.advanceMigration blake3 nodes overlap.mover fate
      migration = some next) :
    Moves overlap original cluster next := by
  obtain ⟨admitted, copied, atHome⟩ := holds
  simp only [advanceMigration, reached, answered, reduceCtorEq,
    if_false, if_true] at stepped
  rw [moving.destination] at stepped
  obtain ⟨peer, _, stepped⟩ := Option.bind_eq_some_iff.mp stepped
  split at stepped
  · cases stepped
    exact .giveUp moving admitted.toUnderway atHome.lists rfl atHome
  · rename_i ram allocated
    cases stepped
    exact .proceed moving rfl (.of_home atHome.lists)
      ⟨admitted, copied, atHome.allocated admitted.away copied allocated⟩

theorem receive_handle {own peer : Node} {now offset : Nat}
    {target : MemoryBlockHandle} {transferId : Uuid} {payload : List UInt8}
    {block after : RamBlock}
    (received : receive blake3 own peer now target transferId offset payload
      block = .ok after) : after.handle = block.handle := by
  unfold receive at received
  split at received
  · obtain ⟨_, _, _, rfl⟩ := RamBlock.finishUdp_ok.mp received
    rfl
  · simp only [RamBlock.receiveDirect, ensure_bind_ok] at received
    obtain ⟨_, _, received⟩ := received
    obtain ⟨_, _, finished⟩ := bind_ok.mp received
    simp only [RamBlock.finishDirect, ensure_bind_ok, pure_ok] at finished
    obtain ⟨_, rfl⟩ := finished
    rfl

theorem write_moves {arc : Arc} {target : MemoryBlockHandle}
    {transferId : Uuid} {offset : Nat} (moving : Moving overlap migration)
    (reached : migration.stage = .write arc target transferId offset)
    (holds : StageOpen overlap original cluster.rams cluster.table
      (.write arc target transferId offset))
    (answered : fate.rpc = .answered)
    (stepped : cluster.advanceMigration blake3 nodes overlap.mover fate
      migration = some next) :
    Moves overlap original cluster next := by
  obtain ⟨admitted, copied, copy, copying⟩ := holds
  have later : Later overlap original cluster cluster :=
    .of_home copying.lists
  simp only [advanceMigration, reached, answered, reduceCtorEq,
    if_false] at stepped
  rw [moving.destination, copied.id] at stepped
  obtain ⟨cell, _, stepped⟩ := Option.bind_eq_some_iff.mp stepped
  split at stepped
  · cases stepped
    exact .proceed moving rfl later ⟨admitted, copied, copy, copying⟩
  · split at stepped
    · cases stepped
      exact .proceed moving rfl later ⟨admitted, copied, copy, copying⟩
    · rename_i found given
      cases stepped
      obtain rfl := copying.copy.get given
      exact .proceed moving rfl later ⟨admitted, copied, copying⟩

theorem writeAt_moves {arc copy : Arc} {target : MemoryBlockHandle}
    {transferId : Uuid} {offset : Nat} (moving : Moving overlap migration)
    (reached : migration.stage = .writeAt arc target transferId offset copy)
    (holds : StageOpen overlap original cluster.rams cluster.table
      (.writeAt arc target transferId offset copy))
    (answered : fate.rpc = .answered)
    (stepped : cluster.advanceMigration blake3 nodes overlap.mover fate
      migration = some next) :
    Moves overlap original cluster next := by
  obtain ⟨admitted, copied, copying⟩ := holds
  simp only [advanceMigration, reached, answered, reduceCtorEq,
    if_false, if_true] at stepped
  rw [moving.destination] at stepped
  obtain ⟨cell, _, stepped⟩ := Option.bind_eq_some_iff.mp stepped
  obtain ⟨own, _, stepped⟩ := Option.bind_eq_some_iff.mp stepped
  obtain ⟨peer, _, stepped⟩ := Option.bind_eq_some_iff.mp stepped
  obtain ⟨block, free, stepped⟩ := Option.bind_eq_some_iff.mp stepped
  split at stepped
  · cases stepped
    exact .proceed moving rfl (.of_home copying.lists)
      ⟨admitted, copied, copy, copying⟩
  · rename_i after received
    cases stepped
    have fits := copying.copy.stored (LocalRam.lock?_eq_some.mp free)
    simp only [← receive_handle received] at fits
    exact .proceed moving rfl (.of_home copying.lists)
      ⟨admitted, copied, copy, copying.put admitted.away fits⟩

theorem commit_moves {arc : Arc} {target : MemoryBlockHandle}
    (moving : Moving overlap migration)
    (reached : migration.stage = .commit arc target)
    (holds : StageOpen overlap original cluster.rams cluster.table
      (.commit arc target))
    (answered : fate.rpc = .answered)
    (stepped : cluster.advanceMigration blake3 nodes overlap.mover fate
      migration = some next) :
    Moves overlap original cluster next := by
  obtain ⟨admitted, copied, copy, copying⟩ := holds
  have later : Later overlap original cluster cluster :=
    .of_home copying.lists
  simp only [advanceMigration, reached, answered, reduceCtorEq,
    if_false] at stepped
  rw [moving.destination, copied.id] at stepped
  split at stepped
  · cases stepped
    exact .proceed moving rfl later ⟨admitted, copied, copy, copying⟩
  · rename_i found given
    cases stepped
    obtain rfl := copying.copy.get given
    exact .proceed moving rfl later ⟨admitted, copied, copying⟩

theorem commitAt_moves {arc copy : Arc} {target : MemoryBlockHandle}
    (moving : Moving overlap migration)
    (reached : migration.stage = .commitAt arc target copy)
    (holds : StageOpen overlap original cluster.rams cluster.table
      (.commitAt arc target copy))
    (answered : fate.rpc = .answered)
    (stepped : cluster.advanceMigration blake3 nodes overlap.mover fate
      migration = some next) :
    Moves overlap original cluster next := by
  obtain ⟨admitted, copied, copying⟩ := holds
  simp only [advanceMigration, reached, answered, reduceCtorEq,
    if_false, if_true] at stepped
  rw [moving.destination, moving.source, admitted.source,
    admitted.arc] at stepped
  obtain ⟨cell, stored, stepped⟩ := Option.bind_eq_some_iff.mp stepped
  have own := copying.home.stored stored
  split at stepped
  · rename_i missing
    have checksum := own.checksum
    rw [missing] at checksum
    cases checksum
  · obtain ⟨block, free, stepped⟩ := Option.bind_eq_some_iff.mp stepped
    split at stepped
    · cases stepped
      exact .proceed moving rfl (.of_home copying.lists)
        ⟨⟨⟨rfl, admitted.source, admitted.away⟩, admitted.generation,
          admitted.token⟩, copied, copy, copying⟩
    · rename_i after committed
      have fits := copying.copy.stored (LocalRam.lock?_eq_some.mp free)
      simp only [RamBlock.commit, RamBlock.authorize_bind_ok,
        ensure_bind_ok, pure_ok] at committed
      obtain ⟨⟨_, alive⟩, _, _, rfl⟩ := committed
      split at stepped
      · rename_i zero
        have level := fits.generation.symm.trans zero
        omega
      · cases stepped
        have leased : block.handle.leaseExpiresMs ≠ 0 := by omega
        exact .proceed moving rfl (.of_home copying.lists)
          ⟨⟨⟨rfl, admitted.source, admitted.away⟩, admitted.generation,
            admitted.token⟩, ⟨fits.id, fits.generation, fits.token,
            fits.owner⟩, leased, copy,
            copying.put admitted.away ⟨rfl, rfl⟩⟩

theorem discard_moves {arc : Arc} {target : MemoryBlockHandle}
    (moving : Moving overlap migration)
    (reached : migration.stage = .discard arc target)
    (holds : StageOpen overlap original cluster.rams cluster.table
      (.discard arc target))
    (answered : fate.rpc = .answered)
    (stepped : cluster.advanceMigration blake3 nodes overlap.mover fate
      migration = some next) :
    Moves overlap original cluster next := by
  obtain ⟨admitted, copied, copy, copying⟩ := holds
  simp only [advanceMigration, reached, answered, reduceCtorEq,
    if_false] at stepped
  rw [moving.destination, copied.id] at stepped
  rw [LocalRam.get_ok.mpr copying.copy.1] at stepped
  cases stepped
  exact .proceed moving rfl (.of_home copying.lists)
    ⟨admitted, copied, copying⟩

theorem discardCheck_moves {arc copy : Arc} {target : MemoryBlockHandle}
    (moving : Moving overlap migration)
    (reached : migration.stage = .discardCheck arc target copy)
    (holds : StageOpen overlap original cluster.rams cluster.table
      (.discardCheck arc target copy))
    (answered : fate.rpc = .answered)
    (stepped : cluster.advanceMigration blake3 nodes overlap.mover fate
      migration = some next) :
    Moves overlap original cluster next := by
  obtain ⟨admitted, copied, copying⟩ := holds
  simp only [advanceMigration, reached, answered, reduceCtorEq,
    if_false] at stepped
  rw [moving.destination] at stepped
  obtain ⟨block, free, stepped⟩ := Option.bind_eq_some_iff.mp stepped
  have fits := copying.copy.stored (LocalRam.lock?_eq_some.mp free)
  rw [if_pos (fits.token.trans copied.token.symm)] at stepped
  cases stepped
  exact .proceed moving rfl (.of_home copying.lists)
    ⟨admitted, copied, copying⟩

theorem Spread.discarded {copy : Arc} {fits : MemoryBlockHandle → Prop}
    (copying : Copying overlap original cluster.rams cluster.table copy fits)
    (away : overlap.destination ≠ original.owner) :
    AtHome overlap original (cluster.setRam overlap.destination
        ((cluster.rams overlap.destination).remove overlap.id copy)).rams
      cluster.table :=
  ⟨copying.home.elsewhere away.symm, copying.only.remove copying.copy,
    copying.lists⟩

theorem discardRemove_moves {arc copy : Arc} {target : MemoryBlockHandle}
    (moving : Moving overlap migration)
    (reached : migration.stage = .discardRemove arc target copy)
    (holds : StageOpen overlap original cluster.rams cluster.table
      (.discardRemove arc target copy))
    (answered : fate.rpc = .answered)
    (stepped : cluster.advanceMigration blake3 nodes overlap.mover fate
      migration = some next) :
    Moves overlap original cluster next := by
  obtain ⟨admitted, copied, copying⟩ := holds
  simp only [advanceMigration, reached, answered, reduceCtorEq,
    if_false] at stepped
  cases stepped
  rw [moving.destination, copied.id]
  exact .giveUp moving admitted.toUnderway copying.lists rfl
    (copying.discarded admitted.away)

theorem swap_moves {arc : Arc} {committed : MemoryBlockHandle}
    (moving : Moving overlap migration)
    (reached : migration.stage = .swap arc committed)
    (holds : StageOpen overlap original cluster.rams cluster.table
      (.swap arc committed))
    (bounded : migration.handle.generation + 1 < 2 ^ 64)
    (answered : fate.rpc = .answered)
    (stepped : cluster.advanceMigration blake3 nodes overlap.mover fate
      migration = some next) :
    Moves overlap original cluster next := by
  obtain ⟨admitted, copied, leased, copy, copying⟩ := holds
  obtain ⟨old, found, named⟩ := copying.lists
  obtain ⟨cell, _, same, ready⟩ := copying.copy.2
  rw [same] at ready
  rw [moving.handle, admitted.generation] at bounded
  have commits : ResidencyTable.Commits committed original.generation old :=
    ⟨named.generation, named.token.trans copied.token.symm,
      copied.generation.trans (Nat.mod_eq_of_lt bounded).symm, ready⟩
  rw [← copied.id] at found
  have passed := ResidencyTable.registerRequest_ok.mpr
    ⟨⟨old, found, commits⟩, rfl⟩
  have stored := ResidencyTable.lookup_commit found commits bounded
  rw [if_neg named.leased, copied.id] at stored
  simp only [advanceMigration, reached, answered, reduceCtorEq,
    if_false, if_true] at stepped
  rw [moving.handle, admitted.generation, passed] at stepped
  cases stepped
  refine .proceed moving rfl (.of_home copying.lists) ⟨admitted, copied, copy,
    copying.home, copying.copy, copying.only, committed, stored, ?_⟩
  exact ⟨copied.id, copied.generation, copied.owner, copied.token, leased⟩

theorem publish_moves {arc : Arc} {committed : MemoryBlockHandle}
    (moving : Moving overlap migration)
    (reached : migration.stage = .publish arc committed)
    (holds : StageOpen overlap original cluster.rams cluster.table
      (.publish arc committed))
    (answered : fate.rpc = .answered)
    (stepped : cluster.advanceMigration blake3 nodes overlap.mover fate
      migration = some next) :
    Moves overlap original cluster next := by
  obtain ⟨admitted, copied, copy, swapped⟩ := holds
  simp only [advanceMigration, reached, answered, reduceCtorEq,
    if_false] at stepped
  rw [moving.destination, copied.id,
    LocalRam.get_ok.mpr swapped.copy.1] at stepped
  cases stepped
  exact .proceed moving rfl (fun _ => ⟨rfl, rfl⟩) ⟨admitted, copied, swapped⟩

theorem publishAt_moves {arc copy : Arc} {committed : MemoryBlockHandle}
    (moving : Moving overlap migration)
    (reached : migration.stage = .publishAt arc committed copy)
    (holds : StageOpen overlap original cluster.rams cluster.table
      (.publishAt arc committed copy))
    (answered : fate.rpc = .answered)
    (lasting : ∀ cell ∈ (cluster.rams overlap.destination).heap[copy]?,
      cluster.now < cell.block.handle.leaseExpiresMs)
    (stepped : cluster.advanceMigration blake3 nodes overlap.mover fate
      migration = some next) :
    Moves overlap original cluster next := by
  obtain ⟨admitted, copied, swapped⟩ := holds
  simp only [advanceMigration, reached, answered, reduceCtorEq,
    if_false, if_true] at stepped
  rw [moving.destination, moving.source, admitted.source,
    admitted.arc] at stepped
  obtain ⟨block, free, stepped⟩ := Option.bind_eq_some_iff.mp stepped
  have stored := LocalRam.lock?_eq_some.mp free
  obtain ⟨same, ready⟩ := swapped.copy.stored stored
  have published : block.publish cluster.now committed =
      .ok { block with published := true } := by
    simp only [RamBlock.publish, RamBlock.authorize_bind_ok, ensure_bind_ok,
      pure_ok]
    exact ⟨⟨by rw [same], lasting _ stored⟩, ⟨by rw [same], ready⟩, trivial⟩
  rw [published] at stepped
  cases stepped
  refine .proceed moving rfl ?_ ⟨⟨⟨rfl, admitted.source, admitted.away⟩,
    admitted.generation, admitted.token⟩, copy, ?_⟩
  · intro _
    refine ⟨rfl, ?_⟩
    simp [rams_setRam, admitted.away, LocalRam.put]
  · exact (swapped.put admitted.away trivial).unlock admitted.away

theorem release_moves (moving : Moving overlap migration)
    (reached : migration.stage = .release)
    (holds : StageOpen overlap original cluster.rams cluster.table .release)
    (stepped : cluster.advanceMigration blake3 nodes overlap.mover fate
      migration = some next) :
    Moves overlap original cluster next := by
  obtain ⟨admitted, copy, swapped⟩ := holds
  simp only [advanceMigration, reached] at stepped
  rw [moving.source, moving.handle, admitted.source] at stepped
  rw [show overlap.handle.id = overlap.id from rfl,
    LocalRam.get_ok.mpr swapped.home.1] at stepped
  cases stepped
  exact .proceed moving rfl (fun _ => ⟨rfl, rfl⟩) ⟨admitted, copy, swapped⟩

theorem releaseCheck_moves {found : Arc} (moving : Moving overlap migration)
    (reached : migration.stage = .releaseCheck found)
    (holds : StageOpen overlap original cluster.rams cluster.table
      (.releaseCheck found))
    (stepped : cluster.advanceMigration blake3 nodes overlap.mover fate
      migration = some next) :
    Moves overlap original cluster next := by
  obtain ⟨admitted, copy, swapped⟩ := holds
  simp only [advanceMigration, reached] at stepped
  rw [moving.source, moving.handle, admitted.source] at stepped
  obtain ⟨block, free, stepped⟩ := Option.bind_eq_some_iff.mp stepped
  rw [admitted.arc] at free
  have own := swapped.home.stored (LocalRam.lock?_eq_some.mp free)
  rw [if_pos (own.token.trans admitted.token.symm)] at stepped
  cases stepped
  exact .proceed moving rfl (fun _ => ⟨rfl, rfl⟩) ⟨admitted, copy, swapped⟩

theorem releaseRemove_moves {found : Arc} (moving : Moving overlap migration)
    (reached : migration.stage = .releaseRemove found)
    (holds : StageOpen overlap original cluster.rams cluster.table
      (.releaseRemove found))
    (stepped : cluster.advanceMigration blake3 nodes overlap.mover fate
      migration = some next) :
    Moves overlap original cluster next := by
  obtain ⟨admitted, copy, swapped⟩ := holds
  simp only [advanceMigration, reached] at stepped
  cases stepped
  rw [moving.source, moving.handle, admitted.source, admitted.arc]
  refine .finish rfl ?_
    (.inr ⟨admitted.away, ⟨copy, ?_⟩, ?_, swapped.lists⟩)
  · intro _
    refine ⟨rfl, ?_⟩
    rw [rams_setRam, if_neg admitted.away]
  · exact (swapped.copy.imp fun _ _ => trivial).elsewhere admitted.away
  · apply Only.remove swapped.home
    exact swapped.only.mono (by simp)

theorem advanceMigration_moves (moving : Moving overlap migration)
    (holds : StageOpen overlap original cluster.rams cluster.table
      migration.stage)
    (answered : fate.rpc = .answered)
    (lasting : ∀ arc committed copy,
      migration.stage = .publishAt arc committed copy →
      ∀ cell ∈ (cluster.rams overlap.destination).heap[copy]?,
        cluster.now < cell.block.handle.leaseExpiresMs)
    (counts : migration.stage.counts →
      migration.handle.generation + 1 < 2 ^ 64)
    (stepped : cluster.advanceMigration blake3 nodes overlap.mover fate
      migration = some next) :
    Moves overlap original cluster next := by
  cases reached : migration.stage with
  | lookup => exact lookup_moves moving reached (reached ▸ holds) stepped
  | lock arc => exact lock_moves moving reached (reached ▸ holds) stepped
  | target arc =>
      have bounded := counts (by rw [reached]; rfl)
      exact target_moves moving reached (reached ▸ holds) bounded stepped
  | allocate arc target =>
      exact allocate_moves moving reached (reached ▸ holds) answered stepped
  | write arc target transferId offset =>
      exact write_moves moving reached (reached ▸ holds) answered stepped
  | writeAt arc target transferId offset copy =>
      exact writeAt_moves moving reached (reached ▸ holds) answered stepped
  | commit arc target =>
      exact commit_moves moving reached (reached ▸ holds) answered stepped
  | commitAt arc target copy =>
      exact commitAt_moves moving reached (reached ▸ holds) answered stepped
  | commitRegister arc target committed =>
      rw [reached] at holds
      exact holds.elim
  | discard arc target =>
      exact discard_moves moving reached (reached ▸ holds) answered stepped
  | discardCheck arc target copy =>
      exact discardCheck_moves moving reached (reached ▸ holds) answered
        stepped
  | discardRemove arc target copy =>
      exact discardRemove_moves moving reached (reached ▸ holds) answered
        stepped
  | swap arc committed =>
      have bounded := counts (by rw [reached]; rfl)
      exact swap_moves moving reached (reached ▸ holds) bounded answered
        stepped
  | publish arc committed =>
      exact publish_moves moving reached (reached ▸ holds) answered stepped
  | publishAt arc committed copy =>
      exact publishAt_moves moving reached (reached ▸ holds) answered
        (lasting arc committed copy reached) stepped
  | release => exact release_moves moving reached (reached ▸ holds) stepped
  | releaseCheck found =>
      exact releaseCheck_moves moving reached (reached ▸ holds) stepped
  | releaseRemove found =>
      exact releaseRemove_moves moving reached (reached ▸ holds) stepped

theorem Later.freer {call : Option Call}
    (later : Later overlap original cluster next)
    (holds : FreerOpen overlap original cluster.rams cluster.table call) :
    FreerOpen overlap original next.rams next.table call := by
  have resolved : ∀ {handle},
      Resolved overlap original cluster.table handle →
      Resolved overlap original next.table handle := by
    intro handle resolved
    cases resolved with
    | before id generation owner => exact .before id generation owner
    | after id generation owner lists =>
        exact .after id generation owner ((later lists).1 ▸ lists)
  have looked : ∀ {handle arc},
      Resolved overlap original cluster.table handle →
      Looked overlap original cluster.rams handle arc →
      Looked overlap original next.rams handle arc := by
    intro handle arc resolved looked
    refine ⟨looked.before, ?_⟩
    intro generation
    cases resolved with
    | before _ older _ => omega
    | after _ _ _ lists => exact (later lists).2.trans (looked.after generation)
  cases call with
  | none => exact trivial
  | some call =>
      cases call with
      | free handle => exact resolved holds
      | freeCheck handle arc => exact ⟨resolved holds.1, looked holds.1 holds.2⟩
      | freeRemove handle arc =>
          exact ⟨resolved holds.1, looked holds.1 holds.2⟩
      | returned ok =>
          cases ok with
          | false => exact trivial
          | true => exact holds.elim
      | renew handle => exact holds.elim
      | renewAt handle arc => exact holds.elim
      | commit handle checksum => exact holds.elim
      | commitAt handle checksum arc => exact holds.elim
      | register handle => exact holds.elim
      | migrate migration => exact holds.elim

end Moves

end Cluster

end TrainPool
