import TrainPool.Cluster.Foreign

namespace TrainPool

open Execution

namespace Cluster

variable {blake3 : List UInt8 → Digest} {nodes : Uuid → Option Node}
  {id : Uuid} {content : List UInt8} {cluster next : Cluster} {view : View}

/-- The copy of the block that a daemon finds when it looks it up. -/
def finds (id node : Uuid) (cluster : Cluster) : Option RamBlock := do
  let arc ← (cluster.rams node).blocks.lookup id
  let cell ← (cluster.rams node).heap[arc]?
  some cell.block

/-- What the steps of the requests about a block have to meet.  A renewal and
the release of a source find a copy of the generation they speak of, a renewal
does not shorten the lease, a copy is not placed on a daemon that the table
names, or that another migration uploads to, after it dropped its own, and the
last generation is not migrated. -/
def CallAccords (nodes : Uuid → Option Node) (id : Uuid)
    (cluster : Cluster) : Call → Prop
  | .renew handle => handle.id = id →
      ∀ block ∈ cluster.finds id handle.ownerNode,
        block.handle.generation = handle.generation
  | .renewAt handle arc => handle.id = id →
      ∀ own ∈ nodes handle.ownerNode,
        ∀ cell ∈ (cluster.rams handle.ownerNode).heap[arc]?,
          cell.block.handle.leaseExpiresMs ≤
            cluster.now + own.leaseSeconds * 1000
  | .migrate migration => migration.handle.id = id →
      match migration.stage with
      | .target _ | .swap _ _ => migration.handle.generation + 1 < 2 ^ 64
      | .allocate _ _ =>
          (cluster.rams migration.destination).blocks.lookup id = none →
            (∀ entry ∈ cluster.table.lookup id,
              entry.ownerNode ≠ migration.destination) ∧
            ∀ entry ∈ cluster.calls.entries,
              entry.2.upload id ≠ some migration.destination
      | .release => ∀ block ∈ cluster.finds id migration.source,
          block.handle.generation = migration.handle.generation
      | _ => True
  | _ => True

/-- The block itself is not freed. -/
def Accords (nodes : Uuid → Option Node) (id : Uuid) (cluster : Cluster) :
    ClusterEvent → Prop
  | .free _ other _ => other ≠ id
  | .advance key _ => ∀ call ∈ cluster.calls.lookup key,
      cluster.CallAccords nodes id call
  | _ => True

instance (call : Call) : Decidable (cluster.CallAccords nodes id call) :=
  match call with
  | .renew _ => inferInstanceAs (Decidable (_ → _))
  | .renewAt _ _ => inferInstanceAs (Decidable (_ → _))
  | .migrate ⟨_, _, _, stage⟩ =>
      match stage with
      | .allocate _ _ => inferInstanceAs (Decidable (_ → _ → _ ∧ _))
      | .target _ | .swap _ _ | .release =>
          inferInstanceAs (Decidable (_ → _))
      | .lookup | .lock _ | .write _ _ _ _ | .writeAt _ _ _ _ _
      | .commit _ _ | .commitAt _ _ _ | .commitRegister _ _ _
      | .discard _ _ | .discardCheck _ _ _ | .discardRemove _ _ _
      | .publish _ _ | .publishAt _ _ _ | .releaseCheck _
      | .releaseRemove _ => isTrue fun _ => trivial
  | .commit _ _ | .commitAt _ _ _ | .free _ | .freeCheck _ _
  | .freeRemove _ _ | .register _ | .returned _ => isTrue trivial

instance (event : ClusterEvent) :
    Decidable (cluster.Accords nodes id event) :=
  match event with
  | .free _ _ _ => inferInstanceAs (Decidable (_ ≠ _))
  | .advance _ _ => inferInstanceAs (Decidable (∀ _ ∈ (_ : Option _), _))
  | .tick _ | .expire _ | .inventory _ _ _ | .renew _ _ _
  | .commit _ _ _ _ | .migrate _ _ _ _ | .cancel _ => isTrue trivial

theorem Anchored.found {node : Uuid} {arc : Arc}
    (anchored : Anchored blake3 id content cluster view)
    (mapped : (cluster.rams node).blocks.lookup id = some arc) :
    ∃ cell : Cell, (cluster.rams node).heap[arc]? = some cell ∧
      cluster.finds id node = some cell.block ∧
      Holds id cluster node arc cell.block.handle.generation 0 False := by
  obtain ⟨cell, stored, same⟩ := (anchored.sound node).keyed id arc mapped
  exact ⟨cell, stored, by simp [finds, mapped, stored], cell, stored, same,
    rfl, Nat.zero_le _, False.elim⟩

theorem Holds.stored {node : Uuid} {arc : Arc} {generation lease : Nat}
    {ready : Prop} {cell : Cell}
    (holds : Holds id cluster node arc generation lease ready)
    (stored : (cluster.rams node).heap[arc]? = some cell) :
    cell.block.handle.id = id ∧ cell.block.handle.generation = generation ∧
      (ready → cell.block.handle.state = .ready) := by
  obtain ⟨other, found, same, level, _, readied⟩ := holds
  cases stored.symm.trans found
  exact ⟨same, level, readied⟩

theorem holds_put {node : Uuid} {arc : Arc} {before : Cell} (after : Cell)
    {ready : Prop} (stored : (cluster.rams node).heap[arc]? = some before)
    (same : after.block.handle.id = id)
    (readied : ready → after.block.handle.state = .ready) :
    Holds id (cluster.setRam node ((cluster.rams node).put arc after)) node
      arc after.block.handle.generation after.block.handle.leaseExpiresMs
      ready := by
  have bound := (List.getElem?_eq_some_iff.mp stored).1
  refine ⟨after, ?_, same, rfl, Nat.le_refl _, readied⟩
  simp [rams_setRam, LocalRam.put, bound]

section Own

variable {key : Nat} {fate : Fate} {migration : Migration}

theorem Anchored.stage {stage : MigrateStage}
    (anchored : Anchored blake3 id content cluster view)
    (found : cluster.calls.lookup key = some (.migrate migration))
    (named : migration.handle.id = id)
    (holds : StageHolds id content cluster view migration stage)
    (uploading : stage.uploading = true →
      migration.stage.uploading = true) :
    Anchored blake3 id content (cluster.proceed key migration stage)
      view := by
  refine anchored.proceed found (.inl ⟨named, ?_⟩) ?_
  · cases stage <;> exact holds
  · intro node upload
    simp only [Call.upload] at upload ⊢
    split at upload
    · rename_i passed
      cases upload
      exact if_pos ⟨named, uploading passed.2⟩
    · cases upload

theorem lookup_own (anchored : Anchored blake3 id content cluster view)
    (found : cluster.calls.lookup key = some (.migrate migration))
    (named : migration.handle.id = id)
    (reached : migration.stage = .lookup)
    (stepped : cluster.advanceMigration blake3 nodes key fate migration =
      some next) :
    Anchored blake3 id content next view := by
  simp only [advanceMigration, reached] at stepped
  split at stepped
  · cases stepped
    exact anchored.finish
  · split at stepped
    · rename_i arc mapped
      cases stepped
      rw [named] at mapped
      obtain ⟨_, _, _, held⟩ := anchored.found (LocalRam.get_ok.mp mapped)
      exact anchored.stage found named ⟨_, held⟩ Bool.noConfusion
    · cases stepped
      exact anchored.finish

theorem lock_own {arc : Arc}
    (anchored : Anchored blake3 id content cluster view)
    (found : cluster.calls.lookup key = some (.migrate migration))
    (named : migration.handle.id = id)
    (reached : migration.stage = .lock arc)
    (holds : StageHolds id content cluster view migration (.lock arc))
    (stepped : cluster.advanceMigration blake3 nodes key fate migration =
      some next) :
    Anchored blake3 id content next view := by
  simp only [advanceMigration, reached] at stepped
  obtain ⟨block, free, stepped⟩ := Option.bind_eq_some_iff.mp stepped
  have stored := LocalRam.lock?_eq_some.mp free
  split at stepped
  · rename_i admitted
    cases stepped
    simp only [RamBlock.admitMigration, RamBlock.authorize_bind_ok,
      ensure_ok] at admitted
    obtain ⟨_, level, ready⟩ := admitted
    obtain ⟨generation, held⟩ := holds
    have same := (held.stored stored).1
    refine Anchored.stage (anchored.guard stored trivial) found named ?_
      Bool.noConfusion
    obtain ⟨cell, stored, own, current, _, readied⟩ :=
      holds_put ⟨block, some .reading⟩ stored same
        (fun _ : True => ready)
    exact ⟨cell, stored, own, current.trans level, Nat.zero_le _, readied⟩
  · cases stepped
    exact anchored.finish

theorem target_own {arc : Arc}
    (anchored : Anchored blake3 id content cluster view)
    (found : cluster.calls.lookup key = some (.migrate migration))
    (named : migration.handle.id = id)
    (reached : migration.stage = .target arc)
    (holds : StageHolds id content cluster view migration (.target arc))
    (accords : cluster.CallAccords nodes id (.migrate migration))
    (stepped : cluster.advanceMigration blake3 nodes key fate migration =
      some next) :
    Anchored blake3 id content next view := by
  simp only [advanceMigration, reached] at stepped
  obtain ⟨cell, stored, stepped⟩ := Option.bind_eq_some_iff.mp stepped
  obtain ⟨own, _, stepped⟩ := Option.bind_eq_some_iff.mp stepped
  obtain ⟨same, level, _⟩ := Holds.stored holds stored
  split at stepped
  · cases stepped
    exact anchored.giveUp
  · cases stepped
    refine anchored.stage found named ⟨holds, ?_⟩ Bool.noConfusion
    obtain ⟨copies, _⟩ := anchored.copies _ arc cell stored same
    simp only [CallAccords, reached] at accords
    refine ⟨same, ?_, rfl, copies.size⟩
    unfold targetHandle
    rw [level]
    exact Nat.mod_eq_of_lt (accords named)

theorem allocate_own {arc : Arc} {target : MemoryBlockHandle}
    (anchored : Anchored blake3 id content cluster view)
    (named : migration.handle.id = id)
    (reached : migration.stage = .allocate arc target)
    (holds : StageHolds id content cluster view migration
      (.allocate arc target))
    (accords : cluster.CallAccords nodes id (.migrate migration))
    (stepped : cluster.advanceMigration blake3 nodes key fate migration =
      some next) :
    Anchored blake3 id content next view := by
  obtain ⟨pinned, targets⟩ := holds
  simp only [advanceMigration, reached] at stepped
  obtain ⟨peer, _, stepped⟩ := Option.bind_eq_some_iff.mp stepped
  split at stepped
  · cases stepped
    exact anchored.giveUp
  · split at stepped
    · cases stepped
      exact anchored.giveUp
    · rename_i ram allocated
      -- The daemon has no copy of the block, so the condition applies.
      obtain ⟨_, _, absent, _⟩ := LocalRam.allocateLocal_ok allocated
      rw [targets.id] at absent
      simp only [CallAccords, reached] at accords
      obtain ⟨unnamed, unused⟩ := accords named
        (AList.lookup_eq_none.mpr absent)
      obtain ⟨entry, listed, _, owned, _, _⟩ := anchored.entry
      have owner : view.owner ≠ migration.destination :=
        owned ▸ unnamed entry listed
      have others : ∀ other call, cluster.calls.lookup other = some call →
          call.upload id ≠ some migration.destination := by
        intro other call stands
        exact unused ⟨other, call⟩ (Table.mem_entries.mpr stands)
      obtain ⟨after, kept, uploads⟩ :=
        anchored.allocate targets allocated owner others
      split at stepped
      · cases stepped
        refine after.setCall (.inl ⟨named, kept _ _ _ _ _ pinned, targets,
          uploads⟩) ?_
        intro node other call upload stands uploadToo
        have here : node = migration.destination := by
          simp only [Call.upload] at upload
          split at upload
          · exact (Option.some.inj upload).symm
          · cases upload
        exact absurd (here ▸ uploadToo) (others other call stands)
      · cases stepped
        exact after.giveUp

theorem write_own {arc : Arc} {target : MemoryBlockHandle}
    {transferId : Uuid} {offset : Nat}
    (anchored : Anchored blake3 id content cluster view)
    (found : cluster.calls.lookup key = some (.migrate migration))
    (named : migration.handle.id = id)
    (reached : migration.stage = .write arc target transferId offset)
    (holds : StageHolds id content cluster view migration
      (.write arc target transferId offset))
    (stepped : cluster.advanceMigration blake3 nodes key fate migration =
      some next) :
    Anchored blake3 id content next view := by
  have uploading : migration.stage.uploading = true := by rw [reached]; rfl
  have discarded : Anchored blake3 id content
      (cluster.proceed key migration (.discard arc target)) view :=
    anchored.stage found named ⟨holds.2.1.id, holds.2.2⟩ fun _ => uploading
  simp only [advanceMigration, reached] at stepped
  obtain ⟨cell, stored, stepped⟩ := Option.bind_eq_some_iff.mp stepped
  split at stepped
  · cases stepped
    exact anchored.stage found named holds fun _ => uploading
  · split at stepped
    · cases stepped
      exact discarded
    · split at stepped
      · cases stepped
        exact discarded
      · rename_i copy mapped
        cases stepped
        rw [holds.2.1.id] at mapped
        obtain ⟨_, _, _, held⟩ := anchored.found (LocalRam.get_ok.mp mapped)
        exact anchored.stage found named
          ⟨holds.1, holds.2.1, holds.2.2, _, held⟩ fun _ => uploading

theorem Anchored.arrive {node : Uuid} {copy : Arc} {block after : RamBlock}
    (anchored : Anchored blake3 id content cluster view)
    (stored : (cluster.rams node).heap[copy]? = some ⟨block, none⟩)
    (change : RamBlock.Change blake3 block after)
    (handle : after.handle = block.handle)
    (published : after.published = block.published)
    (copies : Copies content node block → Copies content node after) :
    Anchored blake3 id content (cluster.setRam node
        ((cluster.rams node).put copy ⟨after, none⟩)) view ∧
      Follows id (fun _ => False) view cluster (cluster.setRam node
        ((cluster.rams node).put copy ⟨after, none⟩)) := by
  refine anchored.replace stored change (fun _ => .inl (by rw [handle])) ?_
  intro copied known
  refine ⟨copies copied, ?_⟩
  simp only [Known, handle, published]
  exact known

theorem writeAt_own {arc copy : Arc} {target : MemoryBlockHandle}
    {transferId : Uuid} {offset : Nat}
    (anchored : Anchored blake3 id content cluster view)
    (found : cluster.calls.lookup key = some (.migrate migration))
    (named : migration.handle.id = id)
    (reached : migration.stage = .writeAt arc target transferId offset copy)
    (holds : StageHolds id content cluster view migration
      (.writeAt arc target transferId offset copy))
    (stepped : cluster.advanceMigration blake3 nodes key fate migration =
      some next) :
    Anchored blake3 id content next view := by
  obtain ⟨pinned, targets, ⟨own, uploads⟩, generation, held⟩ := holds
  have uploading : migration.stage.uploading = true := by rw [reached]; rfl
  have discarded (after : Cluster)
      (calls : after.calls = cluster.calls)
      (anchored : Anchored blake3 id content after view)
      (uploads : ∃ copy, Uploads id after view migration copy) :
      Anchored blake3 id content
        (after.proceed key migration (.discard arc target)) view :=
    anchored.stage (calls ▸ found) named ⟨targets.id, uploads⟩
      fun _ => uploading
  simp only [advanceMigration, reached] at stepped
  obtain ⟨cell, stored, stepped⟩ := Option.bind_eq_some_iff.mp stepped
  obtain ⟨node, _, stepped⟩ := Option.bind_eq_some_iff.mp stepped
  obtain ⟨peer, _, stepped⟩ := Option.bind_eq_some_iff.mp stepped
  split at stepped
  · split at stepped
    · cases stepped
      exact discarded cluster rfl anchored ⟨own, uploads⟩
    · rename_i block free
      cases stepped
      have remote := LocalRam.lock?_eq_some.mp free
      unfold LocalRam.conclude
      split
      · rename_i after received
        rcases receiveLost_ok received with rfl | ⟨writing, fits, rfl⟩
        · obtain ⟨later, follows⟩ := anchored.arrive remote (.same _) rfl rfl
            (fun copies => copies)
          exact discarded _ rfl later
            ⟨own, follows.uploads uploads (by simp)⟩
        · obtain ⟨later, follows⟩ := anchored.arrive remote
            (.scribble block _ _ writing (Nat.le_refl _) fits) rfl rfl
            (fun copies => copies.scribble (Nat.le_refl _) (by omega))
          exact discarded _ rfl later
            ⟨own, follows.uploads uploads (by simp)⟩
      · rw [setRam_self]
        exact discarded cluster rfl anchored ⟨own, uploads⟩
  · obtain ⟨block, free, stepped⟩ := Option.bind_eq_some_iff.mp stepped
    have remote := LocalRam.lock?_eq_some.mp free
    have intact := ((anchored.sound _).intact copy _ remote).1
    split at stepped
    · cases stepped
      exact discarded cluster rfl anchored ⟨own, uploads⟩
    · rename_i after received
      obtain ⟨writing, rfl, fits, rfl⟩ := receive_ok intact received
      -- The pinned source is committed, so the chunk is one of the block.
      have sent : cell.block.bytes = content := by
        obtain ⟨same, _, ready⟩ := Holds.stored pinned stored
        exact (anchored.copies _ arc cell stored same).1.ready
          ((anchored.sound _).intact arc cell stored).1 (ready trivial)
      obtain ⟨later, follows⟩ := anchored.arrive remote
        (.extend block _ transferId writing fits) rfl rfl
        (fun copies => copies.extend intact (by rw [nextChunk, sent]))
      split at stepped
      · cases stepped
        exact later.stage found named
          ⟨follows.holds _ _ _ _ _ pinned, targets, own,
            follows.uploads uploads (by simp)⟩ fun _ => uploading
      · cases stepped
        exact discarded _ rfl later
          ⟨own, follows.uploads uploads (by simp)⟩

theorem commit_own {arc : Arc} {target : MemoryBlockHandle}
    (anchored : Anchored blake3 id content cluster view)
    (found : cluster.calls.lookup key = some (.migrate migration))
    (named : migration.handle.id = id)
    (reached : migration.stage = .commit arc target)
    (holds : StageHolds id content cluster view migration
      (.commit arc target))
    (stepped : cluster.advanceMigration blake3 nodes key fate migration =
      some next) :
    Anchored blake3 id content next view := by
  obtain ⟨pinned, targets, own, uploads⟩ := holds
  have uploading : migration.stage.uploading = true := by rw [reached]; rfl
  have discarded : Anchored blake3 id content
      (cluster.proceed key migration (.discard arc target)) view :=
    anchored.stage found named ⟨targets.id, own, uploads⟩ fun _ => uploading
  simp only [advanceMigration, reached] at stepped
  split at stepped
  · cases stepped
    exact discarded
  · split at stepped
    · cases stepped
      exact discarded
    · rename_i copy mapped
      cases stepped
      rw [targets.id, LocalRam.get_ok] at mapped
      obtain rfl := uploads.2.1 copy mapped
      exact anchored.stage found named
        ⟨pinned, targets, uploads, .inl (.inl mapped)⟩ fun _ => uploading

theorem commitAt_own {arc copy : Arc} {target : MemoryBlockHandle}
    (anchored : Anchored blake3 id content cluster view)
    (found : cluster.calls.lookup key = some (.migrate migration))
    (named : migration.handle.id = id)
    (reached : migration.stage = .commitAt arc target copy)
    (holds : StageHolds id content cluster view migration
      (.commitAt arc target copy))
    (stepped : cluster.advanceMigration blake3 nodes key fate migration =
      some next) :
    Anchored blake3 id content next view := by
  obtain ⟨pinned, targets, uploads, lasts⟩ := holds
  have uploading : migration.stage.uploading = true := by rw [reached]; rfl
  have discarded : Anchored blake3 id content
      (cluster.proceed key migration (.discard arc target)) view :=
    anchored.stage found named ⟨targets.id, copy, uploads⟩ fun _ => uploading
  simp only [advanceMigration, reached] at stepped
  obtain ⟨cell, stored, stepped⟩ := Option.bind_eq_some_iff.mp stepped
  split at stepped
  · cases stepped
    exact anchored.giveUp
  · split at stepped
    · cases stepped
      exact discarded
    · obtain ⟨block, free, stepped⟩ := Option.bind_eq_some_iff.mp stepped
      have remote := LocalRam.lock?_eq_some.mp free
      obtain ⟨same, level, _⟩ := Holds.stored uploads.1 remote
      split at stepped
      · cases stepped
        exact discarded
      · rename_i after committed
        have change := RamBlock.commit_change committed
        simp only [RamBlock.commit, RamBlock.authorize_bind_ok,
          ensure_bind_ok, pure_ok] at committed
        obtain ⟨⟨_, alive⟩, _, _, rfl⟩ := committed
        have owner := (anchored.copies _ copy _ remote same).1.owner
        obtain ⟨later, follows⟩ := anchored.replace remote change
          (fun _ => .inl rfl) (fun copies known =>
            ⟨⟨copies.size, copies.taken, copies.owner⟩, known⟩)
        split at stepped
        · rename_i zero
          simp only at zero level
          omega
        · split at stepped
          · cases stepped
            exact later.stage found named ⟨same, owner,
              Nat.lt_of_le_of_lt (Nat.zero_le _) alive, copy,
              follows.uploads uploads (by simp),
              follows.lasts uploads lasts (by simp),
              holds_put _ remote same fun _ => rfl⟩ fun _ => uploading
          · cases stepped
            exact later.stage found named ⟨targets.id, copy,
              follows.uploads uploads (by simp)⟩ fun _ => uploading

theorem discard_own {arc : Arc} {target : MemoryBlockHandle}
    (anchored : Anchored blake3 id content cluster view)
    (found : cluster.calls.lookup key = some (.migrate migration))
    (named : migration.handle.id = id)
    (reached : migration.stage = .discard arc target)
    (holds : StageHolds id content cluster view migration
      (.discard arc target))
    (stepped : cluster.advanceMigration blake3 nodes key fate migration =
      some next) :
    Anchored blake3 id content next view := by
  simp only [advanceMigration, reached] at stepped
  split at stepped
  · cases stepped
    exact anchored.giveUp
  · split at stepped
    · cases stepped
      exact anchored.giveUp
    · cases stepped
      exact anchored.stage found named holds fun _ => by rw [reached]; rfl

theorem discardCheck_own {arc copy : Arc} {target : MemoryBlockHandle}
    (anchored : Anchored blake3 id content cluster view)
    (found : cluster.calls.lookup key = some (.migrate migration))
    (named : migration.handle.id = id)
    (reached : migration.stage = .discardCheck arc target copy)
    (holds : StageHolds id content cluster view migration
      (.discardCheck arc target copy))
    (stepped : cluster.advanceMigration blake3 nodes key fate migration =
      some next) :
    Anchored blake3 id content next view := by
  simp only [advanceMigration, reached] at stepped
  split at stepped
  · cases stepped
    exact anchored.giveUp
  · obtain ⟨block, _, stepped⟩ := Option.bind_eq_some_iff.mp stepped
    split at stepped
    · cases stepped
      exact anchored.stage found named holds fun _ => by rw [reached]; rfl
    · cases stepped
      exact anchored.giveUp

/-- After the end of a migration that uploads, nobody uploads to its
destination. -/
theorem Anchored.vacated
    (anchored : Anchored blake3 id content cluster view)
    (found : cluster.calls.lookup key = some (.migrate migration))
    (named : migration.handle.id = id)
    (uploading : migration.stage.uploading = true) :
    ∀ other call,
      (cluster.setCall key (.returned false)).calls.lookup other = some call →
      call.upload id ≠ some migration.destination := by
  intro other call stands upload
  simp only [Cluster.setCall, Table.lookup_insert_eq] at stands
  split at stands
  · cases stands
    cases upload
  · rename_i differs
    have own : (Call.migrate migration).upload id =
        some migration.destination := if_pos ⟨named, uploading⟩
    exact differs (anchored.apart other key call _ _ stands found upload own)

theorem discardRemove_own {arc copy : Arc} {target : MemoryBlockHandle}
    (anchored : Anchored blake3 id content cluster view)
    (found : cluster.calls.lookup key = some (.migrate migration))
    (named : migration.handle.id = id)
    (reached : migration.stage = .discardRemove arc target copy)
    (holds : StageHolds id content cluster view migration
      (.discardRemove arc target copy))
    (stepped : cluster.advanceMigration blake3 nodes key fate migration =
      some next) :
    Anchored blake3 id content next view := by
  obtain ⟨same, own, uploads⟩ := holds
  simp only [advanceMigration, reached] at stepped
  split at stepped
  · cases stepped
    exact anchored.giveUp
  · cases stepped
    rw [same]
    have vacated := anchored.vacated found named (by rw [reached]; rfl)
    have removed : Anchored blake3 id content
        ((cluster.setCall key (.returned false)).setRam
          migration.destination
          ((cluster.rams migration.destination).remove id copy)) view := by
      refine anchored.finish.remove
        (fun node => node = migration.destination)
        (fun _ _ => .inl rfl) uploads.2.2 ?_
      intro other call node stands upload here
      exact vacated other call stands (here ▸ upload)
    exact removed.unlock

theorem swap_own {arc : Arc} {committed : MemoryBlockHandle}
    (anchored : Anchored blake3 id content cluster view)
    (found : cluster.calls.lookup key = some (.migrate migration))
    (named : migration.handle.id = id)
    (reached : migration.stage = .swap arc committed)
    (holds : StageHolds id content cluster view migration
      (.swap arc committed))
    (accords : cluster.CallAccords nodes id (.migrate migration))
    (stepped : cluster.advanceMigration blake3 nodes key fate migration =
      some next) :
    ∃ later, Anchored blake3 id content next later := by
  simp only [advanceMigration, reached] at stepped
  split at stepped
  · cases stepped
    exact ⟨view, anchored.giveUp⟩
  · split at stepped
    · cases stepped
      exact ⟨view, anchored.giveUp⟩
    · rename_i table registered
      simp only [CallAccords, reached] at accords
      -- The migration no longer counts as one that uploads.
      obtain ⟨later, swapped, moved, level, owner⟩ :=
        Anchored.swap anchored.finish arc holds (accords named)
          (anchored.vacated found named (by rw [reached]; rfl)) registered
      refine ⟨later, ?_⟩
      split at stepped
      · cases stepped
        rw [proceed, ← setCall_setCall key (.returned false)]
        refine swapped.setCall
          (.inl ⟨named, holds.1, moved, level, fun _ => owner⟩) ?_
        intro node other call upload
        simp [Call.upload, MigrateStage.uploading] at upload
      · cases stepped
        exact swapped.unlock

theorem publish_own {arc : Arc} {committed : MemoryBlockHandle}
    (anchored : Anchored blake3 id content cluster view)
    (found : cluster.calls.lookup key = some (.migrate migration))
    (named : migration.handle.id = id)
    (reached : migration.stage = .publish arc committed)
    (holds : StageHolds id content cluster view migration
      (.publish arc committed))
    (stepped : cluster.advanceMigration blake3 nodes key fate migration =
      some next) :
    Anchored blake3 id content next view := by
  obtain ⟨same, moved, level, owner⟩ := holds
  simp only [advanceMigration, reached] at stepped
  split at stepped
  · cases stepped
    exact anchored.giveUp
  · split at stepped
    · cases stepped
      exact anchored.giveUp
    · rename_i copy mapped
      cases stepped
      rw [same, LocalRam.get_ok] at mapped
      obtain ⟨cell, _, _, held⟩ := anchored.found mapped
      refine anchored.stage found named ⟨moved, _, held, ?_⟩
        Bool.noConfusion
      intro current
      refine ⟨current ▸ level, ?_⟩
      intro official
      have here := owner (current.symm.trans official)
      exact ⟨here.symm, anchored.sole copy (here ▸ mapped)⟩

theorem publishAt_own {arc copy : Arc} {committed : MemoryBlockHandle}
    (anchored : Anchored blake3 id content cluster view)
    (found : cluster.calls.lookup key = some (.migrate migration))
    (named : migration.handle.id = id)
    (reached : migration.stage = .publishAt arc committed copy)
    (holds : StageHolds id content cluster view migration
      (.publishAt arc committed copy))
    (stepped : cluster.advanceMigration blake3 nodes key fate migration =
      some next) :
    Anchored blake3 id content next view := by
  obtain ⟨moved, generation, held, official⟩ := holds
  simp only [advanceMigration, reached] at stepped
  split at stepped
  · cases stepped
    exact anchored.giveUp
  · obtain ⟨block, free, stepped⟩ := Option.bind_eq_some_iff.mp stepped
    have remote := LocalRam.lock?_eq_some.mp free
    obtain ⟨same, current, _⟩ := Holds.stored held remote
    split at stepped
    · cases stepped
      exact anchored.giveUp
    · rename_i after published
      have change := @RamBlock.publish_change blake3 _ _ _ _ published
      simp only [RamBlock.publish, RamBlock.authorize_bind_ok,
        ensure_bind_ok, pure_ok] at published
      obtain ⟨⟨_, alive⟩, ⟨level, _⟩, rfl⟩ := published
      obtain ⟨later, _⟩ := anchored.replace remote change
        (fun _ => .inl rfl) (fun copies _ =>
          ⟨⟨copies.size, copies.taken, copies.owner⟩,
            fun _ => ⟨Nat.lt_of_le_of_lt (Nat.zero_le _) alive,
              current ▸ official (current.symm.trans level)⟩⟩)
      split at stepped
      · cases stepped
        exact later.unlock.stage found named moved Bool.noConfusion
      · cases stepped
        exact later.giveUp

theorem release_own
    (anchored : Anchored blake3 id content cluster view)
    (found : cluster.calls.lookup key = some (.migrate migration))
    (named : migration.handle.id = id)
    (reached : migration.stage = .release)
    (holds : StageHolds id content cluster view migration .release)
    (accords : cluster.CallAccords nodes id (.migrate migration))
    (stepped : cluster.advanceMigration blake3 nodes key fate migration =
      some next) :
    Anchored blake3 id content next view := by
  simp only [advanceMigration, reached] at stepped
  split at stepped
  · rename_i arc mapped
    cases stepped
    rw [named, LocalRam.get_ok] at mapped
    obtain ⟨cell, _, finds, held⟩ := anchored.found mapped
    simp only [CallAccords, reached] at accords
    have level := accords named cell.block (Option.mem_def.mpr finds)
    exact anchored.stage found named ⟨holds, level ▸ held⟩ Bool.noConfusion
  · cases stepped
    exact anchored.finish

theorem releaseCheck_own {place : Arc}
    (anchored : Anchored blake3 id content cluster view)
    (found : cluster.calls.lookup key = some (.migrate migration))
    (named : migration.handle.id = id)
    (reached : migration.stage = .releaseCheck place)
    (holds : StageHolds id content cluster view migration
      (.releaseCheck place))
    (stepped : cluster.advanceMigration blake3 nodes key fate migration =
      some next) :
    Anchored blake3 id content next view := by
  simp only [advanceMigration, reached] at stepped
  obtain ⟨block, _, stepped⟩ := Option.bind_eq_some_iff.mp stepped
  split at stepped
  · cases stepped
    exact anchored.stage found named holds Bool.noConfusion
  · cases stepped
    exact anchored.finish

theorem releaseRemove_own {place : Arc}
    (anchored : Anchored blake3 id content cluster view)
    (named : migration.handle.id = id)
    (reached : migration.stage = .releaseRemove place)
    (holds : StageHolds id content cluster view migration
      (.releaseRemove place))
    (stepped : cluster.advanceMigration blake3 nodes key fate migration =
      some next) :
    Anchored blake3 id content next view := by
  simp only [advanceMigration, reached] at stepped
  cases stepped
  rw [named]
  refine (anchored.remove (fun _ => False) ?_ (by simp) (by simp)).finish
  intro cell stored
  exact .inr (.inr ((Holds.stored holds.2 stored).2.1 ▸ holds.1))

theorem advanceMigration_own
    (anchored : Anchored blake3 id content cluster view)
    (found : cluster.calls.lookup key = some (.migrate migration))
    (own : OwnCall id content cluster view (.migrate migration))
    (accords : cluster.CallAccords nodes id (.migrate migration))
    (stepped : cluster.advanceMigration blake3 nodes key fate migration =
      some next) :
    ∃ later, Anchored blake3 id content next later := by
  obtain ⟨named, holds⟩ := own
  cases reached : migration.stage with
  | lookup => exact ⟨view, lookup_own anchored found named reached stepped⟩
  | lock arc =>
      exact ⟨view, lock_own anchored found named reached (reached ▸ holds)
        stepped⟩
  | target arc =>
      exact ⟨view, target_own anchored found named reached (reached ▸ holds)
        accords stepped⟩
  | allocate arc target =>
      exact ⟨view, allocate_own anchored named reached (reached ▸ holds)
        accords stepped⟩
  | write arc target transferId offset =>
      exact ⟨view, write_own anchored found named reached (reached ▸ holds)
        stepped⟩
  | writeAt arc target transferId offset copy =>
      exact ⟨view, writeAt_own anchored found named reached
        (reached ▸ holds) stepped⟩
  | commit arc target =>
      exact ⟨view, commit_own anchored found named reached (reached ▸ holds)
        stepped⟩
  | commitAt arc target copy =>
      exact ⟨view, commitAt_own anchored found named reached
        (reached ▸ holds) stepped⟩
  | commitRegister arc target committed =>
      rw [reached] at holds
      exact holds.elim
  | discard arc target =>
      exact ⟨view, discard_own anchored found named reached
        (reached ▸ holds) stepped⟩
  | discardCheck arc target copy =>
      exact ⟨view, discardCheck_own anchored found named reached
        (reached ▸ holds) stepped⟩
  | discardRemove arc target copy =>
      exact ⟨view, discardRemove_own anchored found named reached
        (reached ▸ holds) stepped⟩
  | swap arc committed =>
      exact swap_own anchored found named reached (reached ▸ holds) accords
        stepped
  | publish arc committed =>
      exact ⟨view, publish_own anchored found named reached
        (reached ▸ holds) stepped⟩
  | publishAt arc committed copy =>
      exact ⟨view, publishAt_own anchored found named reached
        (reached ▸ holds) stepped⟩
  | release =>
      exact ⟨view, release_own anchored found named reached
        (reached ▸ holds) accords stepped⟩
  | releaseCheck place =>
      exact ⟨view, releaseCheck_own anchored found named reached
        (reached ▸ holds) stepped⟩
  | releaseRemove place =>
      exact ⟨view, releaseRemove_own anchored named reached
        (reached ▸ holds) stepped⟩

theorem renew_own {handle : MemoryBlockHandle}
    (anchored : Anchored blake3 id content cluster view)
    (own : OwnCall id content cluster view (.renew handle))
    (accords : cluster.CallAccords nodes id (.renew handle))
    (stepped : cluster.advanceCall blake3 nodes key fate (.renew handle) =
      some next) :
    Anchored blake3 id content next view := by
  obtain ⟨same, level, owner⟩ := own
  simp only [advanceCall] at stepped
  split at stepped
  · cases stepped
    exact anchored.finish
  · split at stepped
    · rename_i arc mapped
      cases stepped
      rw [same, LocalRam.get_ok] at mapped
      obtain ⟨cell, _, finds, held⟩ := anchored.found mapped
      have current := accords same cell.block (Option.mem_def.mpr finds)
      refine anchored.setCall (.inl ⟨same, _, held, current ▸ level, ?_⟩)
        (fun _ _ _ upload => by cases upload)
      intro official
      have here := owner (current.symm.trans official)
      exact ⟨here, anchored.sole arc (here ▸ mapped)⟩
    · cases stepped
      exact anchored.finish

theorem renewAt_own {handle : MemoryBlockHandle} {arc : Arc}
    (anchored : Anchored blake3 id content cluster view)
    (own : OwnCall id content cluster view (.renewAt handle arc))
    (accords : cluster.CallAccords nodes id (.renewAt handle arc))
    (stepped : cluster.advanceCall blake3 nodes key fate
      (.renewAt handle arc) = some next) :
    Anchored blake3 id content next view := by
  obtain ⟨named, generation, held, level, official⟩ := own
  simp only [advanceCall] at stepped
  split at stepped
  · cases stepped
    exact anchored.finish
  · obtain ⟨node, known, stepped⟩ := Option.bind_eq_some_iff.mp stepped
    obtain ⟨block, free, stepped⟩ := Option.bind_eq_some_iff.mp stepped
    have stored := LocalRam.lock?_eq_some.mp free
    obtain ⟨same, current, _⟩ := Holds.stored held stored
    split at stepped
    · rename_i after renewed
      have change := @RamBlock.renew_change blake3 _ _ _ _ _ renewed
      have longer := accords named node (Option.mem_def.mpr known) _
        (Option.mem_def.mpr stored)
      simp only [RamBlock.renew, RamBlock.authorize_bind_ok, pure_ok]
        at renewed
      obtain ⟨⟨_, alive⟩, rfl⟩ := renewed
      cases stepped
      have owner := (anchored.copies _ arc _ stored same).1.owner
      have positive : 0 < cluster.now + node.leaseSeconds * 1000 :=
        Nat.lt_of_lt_of_le (Nat.zero_lt_of_lt alive) longer
      obtain ⟨later, follows⟩ := anchored.replace stored change
        (fun _ => .inr ⟨longer, alive⟩) (fun copies known =>
          ⟨⟨copies.size, copies.taken, copies.owner⟩,
            fun spoken => ⟨positive, (known spoken).2⟩⟩)
      refine later.setCall (.inl ⟨same, positive, current ▸ level, ?_⟩)
        (fun _ _ _ upload => by cases upload)
      intro newest
      obtain ⟨here, place⟩ := official (current.symm.trans newest)
      refine ⟨owner.trans here, ?_⟩
      rw [← here, ← place, ← newest]
      exact holds_put _ stored same fun ready => ready
    · cases stepped
      exact anchored.finish

theorem commitCall_own {handle : MemoryBlockHandle} {checksum : String}
    (anchored : Anchored blake3 id content cluster view)
    (own : OwnCall id content cluster view (.commit handle checksum))
    (stepped : cluster.advanceCall blake3 nodes key fate
      (.commit handle checksum) = some next) :
    Anchored blake3 id content next view := by
  simp only [advanceCall] at stepped
  split at stepped
  · cases stepped
    exact anchored.finish
  · split at stepped
    · rename_i arc mapped
      cases stepped
      rw [show handle.id = id from own, LocalRam.get_ok] at mapped
      obtain ⟨cell, _, _, held⟩ := anchored.found mapped
      exact anchored.setCall (.inl ⟨_, held⟩)
        (fun _ _ _ upload => by cases upload)
    · cases stepped
      exact anchored.finish

theorem commitCallAt_own {handle : MemoryBlockHandle} {checksum : String}
    {arc : Arc} (anchored : Anchored blake3 id content cluster view)
    (own : OwnCall id content cluster view (.commitAt handle checksum arc))
    (stepped : cluster.advanceCall blake3 nodes key fate
      (.commitAt handle checksum arc) = some next) :
    Anchored blake3 id content next view := by
  obtain ⟨generation, held⟩ := own
  simp only [advanceCall] at stepped
  split at stepped
  · cases stepped
    exact anchored.finish
  · obtain ⟨block, free, stepped⟩ := Option.bind_eq_some_iff.mp stepped
    have stored := LocalRam.lock?_eq_some.mp free
    have same := (Holds.stored held stored).1
    split at stepped
    · rename_i after committed
      have change := RamBlock.commit_change committed
      simp only [RamBlock.commit, RamBlock.authorize_bind_ok,
        ensure_bind_ok, pure_ok] at committed
      obtain ⟨_, _, _, rfl⟩ := committed
      obtain ⟨copies, known⟩ := anchored.copies _ arc _ stored same
      obtain ⟨later, follows⟩ := anchored.replace stored change
        (fun _ => .inl rfl) (fun copies known =>
          ⟨⟨copies.size, copies.taken, copies.owner⟩, known⟩)
      split at stepped
      · rename_i zero
        cases stepped
        obtain ⟨positive, level, official⟩ := known (.inr zero)
        refine later.setCall (.inl ⟨same, positive, level, ?_⟩)
          (fun _ _ _ upload => by cases upload)
        intro newest
        obtain ⟨here, place⟩ := official newest
        refine ⟨copies.owner.trans here, ?_⟩
        rw [← here, ← place, ← newest]
        exact holds_put _ stored same fun _ => rfl
      · cases stepped
        exact later.finish
    · cases stepped
      exact anchored.finish

theorem registerCall_own {handle : MemoryBlockHandle}
    (anchored : Anchored blake3 id content cluster view)
    (own : OwnCall id content cluster view (.register handle))
    (stepped : cluster.advanceCall blake3 nodes key fate
      (.register handle) = some next) :
    Anchored blake3 id content next view := by
  simp only [advanceCall] at stepped
  split at stepped
  · cases stepped
    exact anchored.finish
  · cases stepped
    exact (anchored.register own).finish

theorem advanceCall_own {call : Call}
    (anchored : Anchored blake3 id content cluster view)
    (found : cluster.calls.lookup key = some call)
    (own : OwnCall id content cluster view call)
    (accords : cluster.CallAccords nodes id call)
    (stepped : cluster.advanceCall blake3 nodes key fate call = some next) :
    ∃ later, Anchored blake3 id content next later := by
  cases call with
  | renew handle => exact ⟨view, renew_own anchored own accords stepped⟩
  | renewAt handle arc =>
      exact ⟨view, renewAt_own anchored own accords stepped⟩
  | commit handle checksum =>
      exact ⟨view, commitCall_own anchored own stepped⟩
  | commitAt handle checksum arc =>
      exact ⟨view, commitCallAt_own anchored own stepped⟩
  | register handle => exact ⟨view, registerCall_own anchored own stepped⟩
  | free handle => exact own.elim
  | freeCheck handle arc => exact own.elim
  | freeRemove handle arc => exact own.elim
  | migrate migration =>
      exact advanceMigration_own anchored found own accords stepped
  | returned ok => cases stepped

end Own

section Steps

variable {key : Nat}

theorem spawn_anchored {call : Call}
    (anchored : Anchored blake3 id content cluster view)
    (holds : CallHolds id content cluster view call)
    (quiet : call.upload id = none)
    (spawned : cluster.spawn key call = some next) :
    Anchored blake3 id content next view := by
  unfold spawn at spawned
  split at spawned
  · cases spawned
    refine anchored.setCall holds ?_
    intro node other one upload
    cases quiet.symm.trans upload
  · cases spawned

theorem inventory_anchored {node other : Uuid} {arc : Arc}
    {handle : MemoryBlockHandle}
    (anchored : Anchored blake3 id content cluster view)
    (mapped : (cluster.rams node).blocks.lookup other = some arc)
    (listed : (cluster.rams node).listed arc = some handle) :
    CallHolds id content cluster view (.register handle) := by
  obtain ⟨cell, stored, named⟩ := (anchored.sound node).keyed other arc mapped
  unfold LocalRam.listed at listed
  split at listed
  · rename_i block free
    split at listed
    · rename_i published
      cases listed
      cases (LocalRam.lock?_eq_some.mp free).symm.trans stored
      by_cases same : other = id
      · have own := named.trans same
        obtain ⟨copies, known⟩ := anchored.copies node arc _ stored own
        obtain ⟨positive, level, official⟩ := known (.inl published)
        refine .inl ⟨own, positive, level, ?_⟩
        intro newest
        obtain ⟨here, place⟩ := official newest
        refine ⟨copies.owner.trans here, ?_⟩
        rw [← here, ← place]
        exact ⟨_, stored, own, newest, Nat.le_refl _, fun ready => ready⟩
      · refine .inr ⟨?_, by simp [Call.references]⟩
        simpa [Call.handles] using fun own => same (named.symm.trans own)
    · cases listed
  · cases listed

/-- What a `Resolve` says of the block is what the table says. -/
theorem resolve_ok {other token : Uuid} {handle : MemoryBlockHandle}
    (anchored : Anchored blake3 id content cluster view)
    (resolved : cluster.resolve nodes other token = .ok handle) :
    handle.id = other ∧
      (other = id → handle.generation = view.generation ∧
        handle.ownerNode = view.owner) := by
  obtain ⟨entry, found, rest⟩ := bind_ok.mp resolved
  rw [ensure_bind_ok] at rest
  obtain ⟨_, same⟩ := rest
  cases same
  obtain ⟨listed, _⟩ := ResidencyTable.resolve_ok found
  refine ⟨anchored.keyed other _ listed, ?_⟩
  intro same
  subst same
  obtain ⟨official, listedToo, _, owned, current, _⟩ := anchored.entry
  cases listed.symm.trans listedToo
  exact ⟨current, owned⟩

theorem cancel_anchored {call : Call}
    (anchored : Anchored blake3 id content cluster view)
    (cancelled : cluster.cancel key call = some next) :
    Anchored blake3 id content next view := by
  unfold cancel at cancelled
  split at cancelled
  · cases cancelled
  · split at cancelled
    · cases cancelled
      exact anchored.finish
    · cases cancelled
      exact anchored.unlock.finish

theorem step_anchored {event : ClusterEvent}
    (anchored : Anchored blake3 id content cluster view)
    (accords : cluster.Accords nodes id event)
    (stepped : cluster.step blake3 nodes event = some next) :
    ∃ later, Anchored blake3 id content next later := by
  cases event with
  | tick elapsed =>
      cases stepped
      exact ⟨view, anchored.tick⟩
  | expire node =>
      cases stepped
      exact ⟨view, anchored.expire⟩
  | inventory key node other =>
      obtain ⟨arc, mapped, stepped⟩ := Option.bind_eq_some_iff.mp stepped
      obtain ⟨handle, listed, stepped⟩ := Option.bind_eq_some_iff.mp stepped
      exact ⟨view, spawn_anchored anchored
        (inventory_anchored anchored mapped listed) rfl stepped⟩
  | renew key other token =>
      simp only [step] at stepped
      split at stepped
      · rename_i handle resolved
        obtain ⟨same, official⟩ := resolve_ok anchored resolved
        refine ⟨view, spawn_anchored anchored ?_ rfl stepped⟩
        by_cases own : other = id
        · obtain ⟨current, owned⟩ := official own
          exact .inl ⟨same.trans own, Nat.le_of_eq current, fun _ => owned⟩
        · exact .inr ⟨by simpa [Call.handles, same] using own,
            by simp [Call.references]⟩
      · cases stepped
        exact ⟨view, anchored⟩
  | commit key other token checksum =>
      simp only [step] at stepped
      split at stepped
      · rename_i handle resolved
        obtain ⟨same, _⟩ := resolve_ok anchored resolved
        refine ⟨view, spawn_anchored anchored ?_ rfl stepped⟩
        by_cases own : other = id
        · exact .inl (same.trans own)
        · exact .inr ⟨by simpa [Call.handles, same] using own,
            by simp [Call.references]⟩
      · cases stepped
        exact ⟨view, anchored⟩
  | free key other token =>
      simp only [step] at stepped
      split at stepped
      · rename_i handle resolved
        obtain ⟨same, _⟩ := resolve_ok anchored resolved
        refine ⟨view, spawn_anchored anchored (.inr ⟨?_, ?_⟩) rfl stepped⟩
        · simpa [Call.handles, same, Accords] using accords
        · simp [Call.references]
      · cases stepped
        exact ⟨view, anchored⟩
  | migrate key source handle destination =>
      refine ⟨view, spawn_anchored anchored ?_ ?_ stepped⟩
      · by_cases own : handle.id = id
        · exact .inl ⟨own, trivial⟩
        · exact .inr ⟨by simpa [Call.handles, MigrateStage.handles] using own,
            by simp [Call.references]⟩
      · simp [Call.upload, MigrateStage.uploading]
  | advance key fate =>
      obtain ⟨call, found, stepped⟩ := Option.bind_eq_some_iff.mp stepped
      rcases anchored.calls key call found with own | foreign
      · exact advanceCall_own anchored found own
          (accords call (Option.mem_def.mpr found)) stepped
      · exact ⟨view, advanceCall_foreign anchored foreign stepped⟩
  | cancel key =>
      obtain ⟨call, _, stepped⟩ := Option.bind_eq_some_iff.mp stepped
      exact ⟨view, cancel_anchored anchored stepped⟩

end Steps

/-- A block right after its commit: one daemon has it, and the table names that
daemon. -/
structure Committed (blake3 : List UInt8 → Digest) (id : Uuid)
    (content : List UInt8) (cluster : Cluster) : Prop where
  sound : ∀ node, (cluster.rams node).Sound blake3
  keyed : cluster.table.Keyed
  idle : cluster.calls = ∅
  block : ∃ entry arc cell, cluster.table.lookup id = some entry ∧
    0 < entry.leaseExpiresMs ∧
    (cluster.rams entry.ownerNode).blocks.lookup id = some arc ∧
    (cluster.rams entry.ownerNode).heap[arc]? = some cell ∧
    cell.block.handle.ownerNode = entry.ownerNode ∧
    cell.block.handle.generation = entry.generation ∧
    entry.leaseExpiresMs ≤ cell.block.handle.leaseExpiresMs ∧
    cell.block.handle.state = .ready ∧ cell.block.bytes = content ∧
    ∀ node (other : Arc) (copy : Cell),
      (cluster.rams node).heap[other]? = some copy →
      copy.block.handle.id = id → node = entry.ownerNode ∧ other = arc

theorem Committed.anchored (committed : Committed blake3 id content cluster) :
    ∃ view, Anchored blake3 id content cluster view := by
  obtain ⟨entry, arc, cell, listed, positive, mapped, stored, owned, level,
    longer, ready, bytes, only⟩ := committed.block
  obtain ⟨_, storedToo, same⟩ :=
    (committed.sound entry.ownerNode).keyed id arc mapped
  cases stored.symm.trans storedToo
  have intact := ((committed.sound _).intact arc cell stored).1
  refine ⟨⟨entry.ownerNode, entry.generation, arc⟩, committed.sound, ?_,
    committed.keyed, ?_, .inl mapped, ?_, ?_, ?_⟩
  · intro node other copy found own
    obtain ⟨rfl, rfl⟩ := only node other copy found own
    cases stored.symm.trans found
    refine ⟨⟨?_, by rw [bytes], owned⟩, ?_⟩
    · rw [← bytes, intact.length]
    · intro _
      exact ⟨Nat.lt_of_lt_of_le positive longer, Nat.le_of_eq level,
        fun _ => ⟨rfl, rfl⟩⟩
  · exact ⟨entry, listed, positive, rfl, rfl, cell, stored, same, level,
      longer, fun _ => ready⟩
  · intro other found
    exact (Option.some.inj (mapped.symm.trans found)).symm
  · intro key call found
    simp [committed.idle] at found
  · intro first second one other node found
    simp [committed.idle] at found

/-- In every run whose steps accord, a block that the table calls ready, with
a lease that has not run out, is committed on the daemon it names, in that
generation and with its bytes. -/
theorem committed_block_kept {start final : Cluster}
    {events : List ClusterEvent}
    (committed : Committed blake3 id content start)
    (along : Along (step blake3 nodes) (Accords nodes id) start events)
    (ran : run (step blake3 nodes) start events = some final)
    {entry : MemoryBlockHandle}
    (listed : final.table.lookup id = some entry)
    (ready : entry.state = .ready)
    (leased : final.now < entry.leaseExpiresMs) :
    ∃ (arc : Arc) (cell : Cell),
      (final.rams entry.ownerNode).blocks.lookup id = some arc ∧
      (final.rams entry.ownerNode).heap[arc]? = some cell ∧
      cell.block.handle.state = .ready ∧
      cell.block.handle.generation = entry.generation ∧
      cell.block.bytes = content := by
  obtain ⟨view, anchored⟩ := run_invariant_along
    (fun cluster => ∃ view, Anchored blake3 id content cluster view)
    (fun _ _ _ anchored accords stepped =>
      anchored.elim fun _ anchored => step_anchored anchored accords stepped)
    committed.anchored along ran
  obtain ⟨named, found, _, owned, level, cell, stored, own, current, longer,
    readied⟩ := anchored.entry
  cases listed.symm.trans found
  rw [owned]
  refine ⟨view.official, cell, ?_, stored, readied ready,
    current.trans level.symm, ?_⟩
  · rcases anchored.present with mapped | ⟨_, storedToo, expired⟩
    · exact mapped
    · cases stored.symm.trans storedToo
      omega
  · exact (anchored.copies _ _ cell stored own).1.ready
      ((anchored.sound _).intact _ cell stored).1 (readied ready)

theorem sampleCluster_committed :
    Committed abcHash 7 [97, 98, 99] sampleCluster := by
  have intact : abcBlock.Intact abcHash :=
    ⟨rfl, by decide, rfl, fun _ => ⟨rfl, by decide +kernel⟩⟩
  refine ⟨?_, ?_, rfl, abcReady, 0, ⟨abcBlock, none⟩, by decide, by decide,
    by decide, rfl, rfl, rfl, Nat.le_refl _, rfl, rfl, ?_⟩
  · intro node
    by_cases here : node = 2
    · subst here
      refine ⟨?_, ?_⟩
      · intro arc cell stored
        obtain rfl := List.mem_singleton.mp (List.mem_of_getElem? stored)
        exact ⟨intact, trivial⟩
      · intro id arc mapped
        simp only [sampleCluster, Function.update_self,
          Table.lookup_insert_eq] at mapped
        split at mapped
        · rename_i same
          cases mapped
          exact ⟨⟨abcBlock, none⟩, rfl, same.symm⟩
        · simp at mapped
    · simpa [sampleCluster, here] using LocalRam.empty_sound
  · intro id entry found
    simp only [sampleCluster, Table.lookup_insert_eq] at found
    split at found
    · rename_i same
      cases found
      exact same.symm
    · simp at found
  · intro node arc cell stored _
    by_cases here : node = 2
    · subst here
      refine ⟨rfl, ?_⟩
      have bound := (List.getElem?_eq_some_iff.mp stored).1
      simpa [sampleCluster] using bound
    · simp [sampleCluster, here, LocalRam.empty] at stored

theorem committed_block_kept_abc :
    ∃ final entry, run (step abcHash sampleNodes) sampleCluster
        (.migrate 0 2 abcReady 3 :: advances 0 15 .answered) = some final ∧
      final.table.lookup 7 = some entry ∧ entry.ownerNode = 3 ∧
      ∃ (arc : Arc) (cell : Cell),
        (final.rams entry.ownerNode).blocks.lookup 7 = some arc ∧
        (final.rams entry.ownerNode).heap[arc]? = some cell ∧
        cell.block.handle.state = .ready ∧
        cell.block.handle.generation = entry.generation ∧
        cell.block.bytes = [97, 98, 99] := by
  obtain ⟨final, ran, seen⟩ := Option.map_eq_some_iff.mp
    (show (run (step abcHash sampleNodes) sampleCluster
        (.migrate 0 2 abcReady 3 :: advances 0 15 .answered)).map
          (fun final => (final.table.lookup 7, final.now)) =
        some (some { abcReady with
          ownerNode := 3, ownerIncarnation := 30, locationType := .ram 3,
          generation := 1 }, 0) by decide +kernel)
  obtain ⟨listed, now⟩ := Prod.ext_iff.mp seen
  refine ⟨final, _, ran, listed, rfl, ?_⟩
  refine committed_block_kept sampleCluster_committed ?_ ran listed rfl ?_
  · decide +kernel
  · rw [show final.now = 0 from now]
    decide

/-- A renewal that was resolved before the block moved away reaches its old
owner while the block is on its way back.  It registers the copy that waits
for its commit to be answered; the answer is lost, and the copy is discarded. -/
theorem late_renewal_loses_block :
    ∃ final entry, run (step abcHash sampleNodes) sampleCluster
        (.renew 0 7 5 :: .migrate 1 2 abcReady 3 ::
          advances 1 15 .answered ++
          .migrate 2 3 { abcReady with generation := 1 } 2 ::
          advances 2 8 .answered ++ advances 2 1 .unanswered ++
          advances 0 3 .answered ++ advances 2 3 .answered) = some final ∧
      final.table.lookup 7 = some entry ∧ entry.state = .ready ∧
      final.now < entry.leaseExpiresMs ∧
      (final.rams entry.ownerNode).blocks.lookup 7 = none := by
  obtain ⟨final, ran, seen⟩ := Option.map_eq_some_iff.mp
    (show (run (step abcHash sampleNodes) sampleCluster
        (.renew 0 7 5 :: .migrate 1 2 abcReady 3 ::
          advances 1 15 .answered ++
          .migrate 2 3 { abcReady with generation := 1 } 2 ::
          advances 2 8 .answered ++ advances 2 1 .unanswered ++
          advances 0 3 .answered ++ advances 2 3 .answered)).map
          (fun final => (final.table.lookup 7, final.now,
            (final.rams 2).blocks.lookup 7)) =
        some (some { abcReady with generation := 2 }, 0, none) by
      decide +kernel)
  simp only [Prod.mk.injEq] at seen
  obtain ⟨listed, now, absent⟩ := seen
  exact ⟨final, _, ran, listed, rfl, by rw [now]; decide, absent⟩

end Cluster

end TrainPool
