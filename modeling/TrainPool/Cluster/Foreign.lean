import TrainPool.Cluster.Effects

namespace TrainPool

/-! Requests about other blocks leave the block alone. -/

namespace Cluster

variable {blake3 : List UInt8 → Digest} {nodes : Uuid → Option Node}
  {id : Uuid} {content : List UInt8} {cluster next : Cluster} {view : View}
  {key : Nat} {fate : Fate} {migration : Migration}

attribute [local simp] MigrateStage.handles Call.references

theorem Anchored.strange {node : Uuid} {arc : Arc} {other : Uuid}
    (anchored : Anchored blake3 id content cluster view)
    (differs : other ≠ id)
    (found : (cluster.rams node).get other = .ok arc) :
    Strange id cluster node arc := by
  obtain ⟨cell, stored, same⟩ := (anchored.sound node).keyed other arc
    (LocalRam.get_ok.mp found)
  exact ⟨cell, stored, same ▸ differs⟩

theorem Anchored.foreign {call : Call}
    (anchored : Anchored blake3 id content cluster view)
    (foreign : Foreign id cluster call) :
    Anchored blake3 id content (cluster.setCall key call) view := by
  refine anchored.setCall (.inr foreign) ?_
  intro node other one upload
  cases call with
  | migrate migration =>
      have differs := foreign.1 migration.handle List.mem_cons_self
      simp [Call.upload, differs] at upload
  | _ => cases upload

theorem Anchored.elsewhere {node : Uuid} {arc : Arc} {block after : RamBlock}
    (anchored : Anchored blake3 id content cluster view)
    (strange : Strange id cluster node arc)
    (free : (cluster.rams node).lock? arc = some block)
    (change : RamBlock.Change blake3 block after) (guard : Option Guard)
    (guarded : Cell.Guarded ⟨after, guard⟩) :
    Anchored blake3 id content (cluster.setRam node
        ((cluster.rams node).put arc ⟨after, guard⟩)) view ∧
      Follows id (fun _ => False) view cluster (cluster.setRam node
        ((cluster.rams node).put arc ⟨after, guard⟩)) := by
  have stored := LocalRam.lock?_eq_some.mp free
  obtain ⟨cell, storedToo, differs⟩ := strange
  cases stored.symm.trans storedToo
  have intact := ((anchored.sound node).intact arc _ stored).1
  exact ⟨anchored.put stored change guarded
      (fun same => absurd same differs) (fun same => absurd same differs),
    put_follows stored (change.grows intact)
      (fun same => absurd same differs)⟩

theorem Anchored.changed {node : Uuid} {arc : Arc} {block after : RamBlock}
    (anchored : Anchored blake3 id content cluster view)
    (strange : Strange id cluster node arc)
    (free : (cluster.rams node).lock? arc = some block)
    (change : RamBlock.Change blake3 block after) : after.handle.id ≠ id := by
  have stored := LocalRam.lock?_eq_some.mp free
  obtain ⟨cell, storedToo, differs⟩ := strange
  cases stored.symm.trans storedToo
  have grows := change.grows ((anchored.sound node).intact arc _ stored).1
  exact fun own => differs (grows.identity.1.symm.trans own)

theorem Anchored.removeOther {node other : Uuid} {arc : Arc}
    (anchored : Anchored blake3 id content cluster view)
    (differs : other ≠ id) :
    Anchored blake3 id content
      (cluster.setRam node ((cluster.rams node).remove other arc)) view := by
  unfold LocalRam.remove
  split
  · refine anchored.forget (fun _ => False) ?_ ?_ (by simp) (by simp)
    · intro third place found
      rw [Table.lookup_erase_eq] at found
      split at found
      · cases found
      · exact found
    · intro place cell mapped dropped _
      rw [AList.lookup_erase_ne differs.symm] at dropped
      exact absurd mapped dropped
  · rw [setRam_self]
    exact anchored

theorem Anchored.registerOther {handle : MemoryBlockHandle}
    (anchored : Anchored blake3 id content cluster view)
    (differs : handle.id ≠ id) :
    Anchored blake3 id content
      (cluster.setTable (cluster.table.register handle)) view := by
  obtain ⟨entry, found, rest⟩ := anchored.entry
  refine ⟨anchored.sound, anchored.copies, anchored.keyed.register handle,
    ⟨entry, ?_, rest⟩, anchored.present, anchored.sole, anchored.calls,
    anchored.apart⟩
  exact (ResidencyTable.lookup_register_ne differs.symm).trans found

theorem Anchored.allocateOther {node : Uuid} {self : Identity}
    {handle : MemoryBlockHandle} {headroom reserved : Bool} {ram : LocalRam}
    (anchored : Anchored blake3 id content cluster view)
    (differs : handle.id ≠ id)
    (allocated : allocateLocal self handle headroom reserved
      (cluster.rams node) = .ok ram) :
    Anchored blake3 id content (cluster.setRam node ram) view ∧
      ∀ other arc, Strange id cluster other arc →
        Strange id (cluster.setRam node ram) other arc := by
  obtain ⟨_, writing, absent, rfl⟩ := LocalRam.allocateLocal_ok allocated
  refine ⟨allocate_copies anchored writing absent ?_ ?_ ?_, ?_⟩
  · intro same
    exact absurd same differs
  · exact fun same => differs same.1
  · exact fun _ _ _ _ _ same => differs same.1
  · intro other arc strange
    obtain ⟨cell, stored, unlike⟩ := strange
    exact ⟨cell, allocate_heap stored, unlike⟩

theorem Anchored.foreignStage {stage : MigrateStage}
    (anchored : Anchored blake3 id content cluster view)
    (differs : migration.handle.id ≠ id)
    (handles : ∀ handle ∈ stage.handles, handle.id ≠ id)
    (references : ∀ node arc, (node, arc) ∈
      Call.references (.migrate { migration with stage := stage }) →
      Strange id cluster node arc) :
    Anchored blake3 id content (cluster.proceed key migration stage)
      view := by
  refine anchored.foreign ⟨?_, references⟩
  intro handle listed
  rcases List.mem_cons.mp listed with rfl | listed
  · exact differs
  · exact handles handle listed

theorem Anchored.discards {arc : Arc} {target : MemoryBlockHandle}
    (anchored : Anchored blake3 id content cluster view)
    (differs : migration.handle.id ≠ id) (targets : target.id ≠ id)
    (pinned : Strange id cluster migration.source arc) :
    Anchored blake3 id content
      (cluster.proceed key migration (.discard arc target)) view :=
  anchored.foreignStage differs
    (by simpa using targets)
    (by simpa using pinned)

theorem Foreign.differs (foreign : Foreign id cluster (.migrate migration)) :
    migration.handle.id ≠ id :=
  foreign.1 _ List.mem_cons_self

theorem Foreign.named {handle : MemoryBlockHandle}
    (foreign : Foreign id cluster (.migrate migration))
    (listed : handle ∈ migration.stage.handles) : handle.id ≠ id :=
  foreign.1 handle (List.mem_cons_of_mem _ listed)

/-! The stages of a migration of another block. -/

theorem lookup_foreign
    (anchored : Anchored blake3 id content cluster view)
    (foreign : Foreign id cluster (.migrate migration))
    (reached : migration.stage = .lookup)
    (stepped : cluster.advanceMigration blake3 nodes key fate migration =
      some next) : Anchored blake3 id content next view := by
  simp only [advanceMigration, reached] at stepped
  split at stepped
  · cases stepped
    exact anchored.finish
  · split at stepped
    · rename_i arc found
      cases stepped
      refine anchored.foreignStage foreign.differs (by simp) ?_
      simpa using anchored.strange foreign.differs found
    · cases stepped
      exact anchored.finish

theorem lock_foreign {arc : Arc}
    (anchored : Anchored blake3 id content cluster view)
    (foreign : Foreign id cluster (.migrate migration))
    (reached : migration.stage = .lock arc)
    (stepped : cluster.advanceMigration blake3 nodes key fate migration =
      some next) : Anchored blake3 id content next view := by
  have pinned : Strange id cluster migration.source arc :=
    foreign.2 _ _ (by simp [reached])
  simp only [advanceMigration, reached] at stepped
  obtain ⟨block, free, stepped⟩ := Option.bind_eq_some_iff.mp stepped
  split at stepped
  · cases stepped
    obtain ⟨later, follows⟩ := anchored.elsewhere pinned free (.same _)
      (some .reading) trivial
    refine later.foreignStage foreign.differs (by simp) ?_
    simpa using follows.strange _ _ pinned
  · cases stepped
    exact anchored.finish

theorem target_foreign {arc : Arc}
    (anchored : Anchored blake3 id content cluster view)
    (foreign : Foreign id cluster (.migrate migration))
    (reached : migration.stage = .target arc)
    (stepped : cluster.advanceMigration blake3 nodes key fate migration =
      some next) : Anchored blake3 id content next view := by
  have pinned : Strange id cluster migration.source arc :=
    foreign.2 _ _ (by simp [reached])
  simp only [advanceMigration, reached] at stepped
  obtain ⟨cell, stored, stepped⟩ := Option.bind_eq_some_iff.mp stepped
  obtain ⟨own, _, stepped⟩ := Option.bind_eq_some_iff.mp stepped
  split at stepped
  · cases stepped
    exact anchored.giveUp
  · cases stepped
    refine anchored.foreignStage foreign.differs ?_ ?_
    · obtain ⟨_, storedToo, unlike⟩ := pinned
      cases stored.symm.trans storedToo
      simpa [targetHandle] using unlike
    · simpa using pinned

theorem allocate_foreign {arc : Arc} {target : MemoryBlockHandle}
    (anchored : Anchored blake3 id content cluster view)
    (foreign : Foreign id cluster (.migrate migration))
    (reached : migration.stage = .allocate arc target)
    (stepped : cluster.advanceMigration blake3 nodes key fate migration =
      some next) : Anchored blake3 id content next view := by
  have pinned : Strange id cluster migration.source arc :=
    foreign.2 _ _ (by simp [reached])
  have targets : target.id ≠ id :=
    foreign.named (by simp [reached])
  simp only [advanceMigration, reached] at stepped
  obtain ⟨peer, _, stepped⟩ := Option.bind_eq_some_iff.mp stepped
  split at stepped
  · cases stepped
    exact anchored.giveUp
  · split at stepped
    · cases stepped
      exact anchored.giveUp
    · rename_i ram allocated
      obtain ⟨later, kept⟩ := anchored.allocateOther targets allocated
      split at stepped
      · cases stepped
        refine later.foreignStage foreign.differs (by simpa using targets) ?_
        simpa using kept _ _ pinned
      · cases stepped
        exact later.giveUp

theorem write_foreign {arc : Arc}
    {target : MemoryBlockHandle} {transferId : Uuid} {offset : Nat}
    (anchored : Anchored blake3 id content cluster view)
    (foreign : Foreign id cluster (.migrate migration))
    (reached : migration.stage = .write arc target transferId offset)
    (stepped : cluster.advanceMigration blake3 nodes key fate migration =
      some next) : Anchored blake3 id content next view := by
  have pinned : Strange id cluster migration.source arc :=
    foreign.2 _ _ (by simp [reached])
  have targets : target.id ≠ id :=
    foreign.named (by simp [reached])
  simp only [advanceMigration, reached] at stepped
  obtain ⟨cell, _, stepped⟩ := Option.bind_eq_some_iff.mp stepped
  split at stepped
  · cases stepped
    exact anchored.foreignStage foreign.differs
      (by simpa using targets)
      (by simpa using pinned)
  · split at stepped
    · cases stepped
      exact anchored.discards foreign.differs targets pinned
    · split at stepped
      · cases stepped
        exact anchored.discards foreign.differs targets pinned
      · rename_i copy found
        cases stepped
        refine anchored.foreignStage foreign.differs
          (by simpa using targets) ?_
        simpa [or_imp, forall_and] using
          ⟨pinned, anchored.strange targets found⟩

theorem writeAt_foreign {arc copy : Arc}
    {target : MemoryBlockHandle} {transferId : Uuid} {offset : Nat}
    (anchored : Anchored blake3 id content cluster view)
    (foreign : Foreign id cluster (.migrate migration))
    (reached : migration.stage = .writeAt arc target transferId offset copy)
    (stepped : cluster.advanceMigration blake3 nodes key fate migration =
      some next) : Anchored blake3 id content next view := by
  have pinned : Strange id cluster migration.source arc :=
    foreign.2 _ _ (by simp [reached])
  have copied : Strange id cluster migration.destination copy :=
    foreign.2 _ _ (by simp [reached])
  have targets : target.id ≠ id :=
    foreign.named (by simp [reached])
  simp only [advanceMigration, reached] at stepped
  obtain ⟨cell, _, stepped⟩ := Option.bind_eq_some_iff.mp stepped
  obtain ⟨node, _, stepped⟩ := Option.bind_eq_some_iff.mp stepped
  obtain ⟨peer, _, stepped⟩ := Option.bind_eq_some_iff.mp stepped
  split at stepped
  · split at stepped
    · cases stepped
      exact anchored.discards foreign.differs targets pinned
    · rename_i block free
      cases stepped
      unfold LocalRam.conclude
      split
      · rename_i after received
        have change : RamBlock.Change blake3 block after := by
          rcases receiveLost_ok received with rfl | ⟨writing, fits, rfl⟩
          · exact .same _
          · exact .scribble block _ _ writing (Nat.le_refl _) fits
        obtain ⟨later, follows⟩ := anchored.elsewhere copied free change
          none trivial
        exact later.discards foreign.differs targets
          (follows.strange _ _ pinned)
      · rw [setRam_self]
        exact anchored.discards foreign.differs targets pinned
  · obtain ⟨block, free, stepped⟩ := Option.bind_eq_some_iff.mp stepped
    split at stepped
    · cases stepped
      exact anchored.discards foreign.differs targets pinned
    · rename_i after received
      have stored := LocalRam.lock?_eq_some.mp free
      obtain ⟨writing, rfl, fits, rfl⟩ := receive_ok
        ((anchored.sound _).intact copy _ stored).1 received
      obtain ⟨later, follows⟩ := anchored.elsewhere copied free
        (.extend block _ transferId writing fits) none trivial
      split at stepped
      · cases stepped
        exact later.foreignStage foreign.differs
          (by simpa using targets)
          (by simpa using follows.strange _ _ pinned)
      · cases stepped
        exact later.discards foreign.differs targets
          (follows.strange _ _ pinned)

theorem commit_foreign {arc : Arc} {target : MemoryBlockHandle}
    (anchored : Anchored blake3 id content cluster view)
    (foreign : Foreign id cluster (.migrate migration))
    (reached : migration.stage = .commit arc target)
    (stepped : cluster.advanceMigration blake3 nodes key fate migration =
      some next) : Anchored blake3 id content next view := by
  have pinned : Strange id cluster migration.source arc :=
    foreign.2 _ _ (by simp [reached])
  have targets : target.id ≠ id :=
    foreign.named (by simp [reached])
  simp only [advanceMigration, reached] at stepped
  split at stepped
  · cases stepped
    exact anchored.discards foreign.differs targets pinned
  · split at stepped
    · cases stepped
      exact anchored.discards foreign.differs targets pinned
    · rename_i copy found
      cases stepped
      refine anchored.foreignStage foreign.differs (by simpa using targets) ?_
      simpa [or_imp, forall_and] using
        ⟨pinned, anchored.strange targets found⟩

theorem commitAt_foreign {arc copy : Arc} {target : MemoryBlockHandle}
    (anchored : Anchored blake3 id content cluster view)
    (foreign : Foreign id cluster (.migrate migration))
    (reached : migration.stage = .commitAt arc target copy)
    (stepped : cluster.advanceMigration blake3 nodes key fate migration =
      some next) : Anchored blake3 id content next view := by
  have pinned : Strange id cluster migration.source arc :=
    foreign.2 _ _ (by simp [reached])
  have copied : Strange id cluster migration.destination copy :=
    foreign.2 _ _ (by simp [reached])
  have targets : target.id ≠ id :=
    foreign.named (by simp [reached])
  simp only [advanceMigration, reached] at stepped
  obtain ⟨cell, _, stepped⟩ := Option.bind_eq_some_iff.mp stepped
  split at stepped
  · cases stepped
    exact anchored.giveUp
  · split at stepped
    · cases stepped
      exact anchored.discards foreign.differs targets pinned
    · obtain ⟨block, free, stepped⟩ := Option.bind_eq_some_iff.mp stepped
      split at stepped
      · cases stepped
        exact anchored.discards foreign.differs targets pinned
      · rename_i after committed
        have change := RamBlock.commit_change committed
        have same := anchored.changed copied free change
        obtain ⟨later, follows⟩ := anchored.elsewhere copied free change
          none trivial
        have kept := follows.strange _ _ pinned
        split at stepped
        · cases stepped
          exact later.foreignStage foreign.differs
            (by simpa using ⟨targets, same⟩)
            (by simpa using kept)
        · split at stepped
          · cases stepped
            exact later.foreignStage foreign.differs
              (by simpa using same)
              (by simpa using kept)
          · cases stepped
            exact later.foreignStage foreign.differs
              (by simpa using targets)
              (by simpa using kept)

theorem commitRegister_foreign
    {arc : Arc} {target committed : MemoryBlockHandle}
    (anchored : Anchored blake3 id content cluster view)
    (foreign : Foreign id cluster (.migrate migration))
    (reached : migration.stage = .commitRegister arc target committed)
    (stepped : cluster.advanceMigration blake3 nodes key fate migration =
      some next) : Anchored blake3 id content next view := by
  have pinned : Strange id cluster migration.source arc :=
    foreign.2 _ _ (by simp [reached])
  have targets : target.id ≠ id :=
    foreign.named (by simp [reached])
  have commits : committed.id ≠ id :=
    foreign.named (by simp [reached])
  simp only [advanceMigration, reached] at stepped
  split at stepped
  · cases stepped
    exact anchored.foreignStage foreign.differs
      (by simpa using targets)
      (by simpa using pinned)
  · split at stepped
    · cases stepped
      exact (anchored.registerOther commits).foreignStage foreign.differs
        (by simpa using commits)
        (by simpa [Strange, setTable] using pinned)
    · cases stepped
      exact (anchored.registerOther commits).foreignStage foreign.differs
        (by simpa using targets)
        (by simpa [Strange, setTable] using pinned)

theorem discard_foreign {arc : Arc} {target : MemoryBlockHandle}
    (anchored : Anchored blake3 id content cluster view)
    (foreign : Foreign id cluster (.migrate migration))
    (reached : migration.stage = .discard arc target)
    (stepped : cluster.advanceMigration blake3 nodes key fate migration =
      some next) : Anchored blake3 id content next view := by
  have pinned : Strange id cluster migration.source arc :=
    foreign.2 _ _ (by simp [reached])
  have targets : target.id ≠ id :=
    foreign.named (by simp [reached])
  simp only [advanceMigration, reached] at stepped
  split at stepped
  · cases stepped
    exact anchored.giveUp
  · split at stepped
    · cases stepped
      exact anchored.giveUp
    · rename_i copy found
      cases stepped
      refine anchored.foreignStage foreign.differs (by simpa using targets) ?_
      simpa [or_imp, forall_and] using
        ⟨pinned, anchored.strange targets found⟩

theorem discardCheck_foreign {arc copy : Arc} {target : MemoryBlockHandle}
    (anchored : Anchored blake3 id content cluster view)
    (foreign : Foreign id cluster (.migrate migration))
    (reached : migration.stage = .discardCheck arc target copy)
    (stepped : cluster.advanceMigration blake3 nodes key fate migration =
      some next) : Anchored blake3 id content next view := by
  have targets : target.id ≠ id :=
    foreign.named (by simp [reached])
  simp only [advanceMigration, reached] at stepped
  split at stepped
  · cases stepped
    exact anchored.giveUp
  · obtain ⟨block, _, stepped⟩ := Option.bind_eq_some_iff.mp stepped
    split at stepped
    · cases stepped
      refine anchored.foreignStage foreign.differs (by simpa using targets) ?_
      intro node place listed
      exact foreign.2 node place
        (by simpa [reached] using listed)
    · cases stepped
      exact anchored.giveUp

theorem discardRemove_foreign {arc copy : Arc} {target : MemoryBlockHandle}
    (anchored : Anchored blake3 id content cluster view)
    (foreign : Foreign id cluster (.migrate migration))
    (reached : migration.stage = .discardRemove arc target copy)
    (stepped : cluster.advanceMigration blake3 nodes key fate migration =
      some next) : Anchored blake3 id content next view := by
  have targets : target.id ≠ id :=
    foreign.named (by simp [reached])
  simp only [advanceMigration, reached] at stepped
  split at stepped
  · cases stepped
    exact anchored.giveUp
  · cases stepped
    exact (anchored.removeOther targets).giveUp

theorem swap_foreign {arc : Arc} {committed : MemoryBlockHandle}
    (anchored : Anchored blake3 id content cluster view)
    (foreign : Foreign id cluster (.migrate migration))
    (reached : migration.stage = .swap arc committed)
    (stepped : cluster.advanceMigration blake3 nodes key fate migration =
      some next) : Anchored blake3 id content next view := by
  have pinned : Strange id cluster migration.source arc :=
    foreign.2 _ _ (by simp [reached])
  have commits : committed.id ≠ id :=
    foreign.named (by simp [reached])
  simp only [advanceMigration, reached] at stepped
  split at stepped
  · cases stepped
    exact anchored.giveUp
  · split at stepped
    · cases stepped
      exact anchored.giveUp
    · rename_i table registered
      obtain ⟨_, _, registered⟩ := bind_ok.mp registered
      cases registered
      have later := anchored.registerOther commits
      split at stepped
      · cases stepped
        exact later.foreignStage foreign.differs
          (by simpa using commits)
          (by simpa [Strange, setTable] using pinned)
      · cases stepped
        exact later.giveUp

theorem publish_foreign {arc : Arc} {committed : MemoryBlockHandle}
    (anchored : Anchored blake3 id content cluster view)
    (foreign : Foreign id cluster (.migrate migration))
    (reached : migration.stage = .publish arc committed)
    (stepped : cluster.advanceMigration blake3 nodes key fate migration =
      some next) : Anchored blake3 id content next view := by
  have pinned : Strange id cluster migration.source arc :=
    foreign.2 _ _ (by simp [reached])
  have commits : committed.id ≠ id :=
    foreign.named (by simp [reached])
  simp only [advanceMigration, reached] at stepped
  split at stepped
  · cases stepped
    exact anchored.giveUp
  · split at stepped
    · cases stepped
      exact anchored.giveUp
    · rename_i copy found
      cases stepped
      refine anchored.foreignStage foreign.differs (by simpa using commits) ?_
      simpa [or_imp, forall_and] using
        ⟨pinned, anchored.strange commits found⟩

theorem publishAt_foreign {arc copy : Arc} {committed : MemoryBlockHandle}
    (anchored : Anchored blake3 id content cluster view)
    (foreign : Foreign id cluster (.migrate migration))
    (reached : migration.stage = .publishAt arc committed copy)
    (stepped : cluster.advanceMigration blake3 nodes key fate migration =
      some next) : Anchored blake3 id content next view := by
  have copied : Strange id cluster migration.destination copy :=
    foreign.2 _ _ (by simp [reached])
  simp only [advanceMigration, reached] at stepped
  split at stepped
  · cases stepped
    exact anchored.giveUp
  · obtain ⟨block, free, stepped⟩ := Option.bind_eq_some_iff.mp stepped
    split at stepped
    · cases stepped
      exact anchored.giveUp
    · rename_i after published
      obtain ⟨later, _⟩ := anchored.elsewhere copied free
        (RamBlock.publish_change published) none trivial
      split at stepped
      · cases stepped
        exact later.unlock.foreignStage foreign.differs
          (by simp) (by simp)
      · cases stepped
        exact later.giveUp

theorem release_foreign
    (anchored : Anchored blake3 id content cluster view)
    (foreign : Foreign id cluster (.migrate migration))
    (reached : migration.stage = .release)
    (stepped : cluster.advanceMigration blake3 nodes key fate migration =
      some next) : Anchored blake3 id content next view := by
  simp only [advanceMigration, reached] at stepped
  split at stepped
  · rename_i arc found
    cases stepped
    refine anchored.foreignStage foreign.differs (by simp) ?_
    simpa using anchored.strange foreign.differs found
  · cases stepped
    exact anchored.finish

theorem releaseCheck_foreign {place : Arc}
    (anchored : Anchored blake3 id content cluster view)
    (foreign : Foreign id cluster (.migrate migration))
    (reached : migration.stage = .releaseCheck place)
    (stepped : cluster.advanceMigration blake3 nodes key fate migration =
      some next) : Anchored blake3 id content next view := by
  have pinned : Strange id cluster migration.source place :=
    foreign.2 _ _ (by simp [reached])
  simp only [advanceMigration, reached] at stepped
  obtain ⟨block, _, stepped⟩ := Option.bind_eq_some_iff.mp stepped
  split at stepped
  · cases stepped
    exact anchored.foreignStage foreign.differs (by simp)
      (by simpa using pinned)
  · cases stepped
    exact anchored.finish

theorem releaseRemove_foreign {place : Arc}
    (anchored : Anchored blake3 id content cluster view)
    (foreign : Foreign id cluster (.migrate migration))
    (reached : migration.stage = .releaseRemove place)
    (stepped : cluster.advanceMigration blake3 nodes key fate migration =
      some next) : Anchored blake3 id content next view := by
  simp only [advanceMigration, reached] at stepped
  cases stepped
  exact (anchored.removeOther foreign.differs).finish

theorem advanceMigration_foreign
    (anchored : Anchored blake3 id content cluster view)
    (foreign : Foreign id cluster (.migrate migration))
    (stepped : cluster.advanceMigration blake3 nodes key fate migration =
      some next) :
    Anchored blake3 id content next view := by
  cases reached : migration.stage with
  | lookup => exact lookup_foreign anchored foreign reached stepped
  | lock arc => exact lock_foreign anchored foreign reached stepped
  | target arc => exact target_foreign anchored foreign reached stepped
  | allocate arc target =>
      exact allocate_foreign anchored foreign reached stepped
  | write arc target transferId offset =>
      exact write_foreign anchored foreign reached stepped
  | writeAt arc target transferId offset copy =>
      exact writeAt_foreign anchored foreign reached stepped
  | commit arc target => exact commit_foreign anchored foreign reached stepped
  | commitAt arc target copy =>
      exact commitAt_foreign anchored foreign reached stepped
  | commitRegister arc target committed =>
      exact commitRegister_foreign anchored foreign reached stepped
  | discard arc target => exact discard_foreign anchored foreign reached stepped
  | discardCheck arc target copy =>
      exact discardCheck_foreign anchored foreign reached stepped
  | discardRemove arc target copy =>
      exact discardRemove_foreign anchored foreign reached stepped
  | swap arc committed => exact swap_foreign anchored foreign reached stepped
  | publish arc committed =>
      exact publish_foreign anchored foreign reached stepped
  | publishAt arc committed copy =>
      exact publishAt_foreign anchored foreign reached stepped
  | release => exact release_foreign anchored foreign reached stepped
  | releaseCheck place =>
      exact releaseCheck_foreign anchored foreign reached stepped
  | releaseRemove place =>
      exact releaseRemove_foreign anchored foreign reached stepped

theorem advanceCall_foreign {call : Call}
    (anchored : Anchored blake3 id content cluster view)
    (foreign : Foreign id cluster call)
    (stepped : cluster.advanceCall blake3 nodes key fate call = some next) :
    Anchored blake3 id content next view := by
  obtain ⟨handles, references⟩ := foreign
  cases call with
  | migrate migration =>
      exact advanceMigration_foreign anchored ⟨handles, references⟩ stepped
  | returned ok => cases stepped
  | renew handle =>
      have differs := handles handle List.mem_cons_self
      simp only [advanceCall] at stepped
      split at stepped
      · cases stepped
        exact anchored.finish
      · split at stepped
        · rename_i arc found
          cases stepped
          refine anchored.foreign ⟨handles, ?_⟩
          simpa using anchored.strange differs found
        · cases stepped
          exact anchored.finish
  | renewAt handle arc =>
      have strange := references _ _ List.mem_cons_self
      simp only [advanceCall] at stepped
      split at stepped
      · cases stepped
        exact anchored.finish
      · obtain ⟨own, _, stepped⟩ := Option.bind_eq_some_iff.mp stepped
        obtain ⟨block, free, stepped⟩ := Option.bind_eq_some_iff.mp stepped
        split at stepped
        · rename_i after renewed
          have change := @RamBlock.renew_change blake3 _ _ _ _ _ renewed
          cases stepped
          obtain ⟨later, _⟩ := anchored.elsewhere strange free change none
            trivial
          refine later.foreign ⟨?_, by simp⟩
          simpa [Call.handles] using anchored.changed strange free change
        · cases stepped
          exact anchored.finish
  | commit handle checksum =>
      have differs := handles handle List.mem_cons_self
      simp only [advanceCall] at stepped
      split at stepped
      · cases stepped
        exact anchored.finish
      · split at stepped
        · rename_i arc found
          cases stepped
          refine anchored.foreign ⟨handles, ?_⟩
          simpa using anchored.strange differs found
        · cases stepped
          exact anchored.finish
  | commitAt handle checksum arc =>
      have strange := references _ _ List.mem_cons_self
      simp only [advanceCall] at stepped
      split at stepped
      · cases stepped
        exact anchored.finish
      · obtain ⟨block, free, stepped⟩ := Option.bind_eq_some_iff.mp stepped
        split at stepped
        · rename_i after committed
          have change := RamBlock.commit_change committed
          obtain ⟨later, _⟩ := anchored.elsewhere strange free change none
            trivial
          split at stepped
          · cases stepped
            refine later.foreign ⟨?_, by simp⟩
            simpa [Call.handles] using anchored.changed strange free change
          · cases stepped
            exact later.finish
        · cases stepped
          exact anchored.finish
  | free handle =>
      have differs := handles handle List.mem_cons_self
      simp only [advanceCall] at stepped
      split at stepped
      · cases stepped
        exact anchored.finish
      · split at stepped
        · rename_i arc found
          cases stepped
          refine anchored.foreign ⟨handles, ?_⟩
          simpa using anchored.strange differs found
        · cases stepped
          refine anchored.foreign ⟨?_, by simp⟩
          simpa [Call.handles] using differs
  | freeCheck handle arc =>
      simp only [advanceCall] at stepped
      split at stepped
      · cases stepped
        exact anchored.finish
      · obtain ⟨block, _, stepped⟩ := Option.bind_eq_some_iff.mp stepped
        split at stepped
        · cases stepped
          exact anchored.foreign ⟨handles, references⟩
        · cases stepped
          exact anchored.finish
  | freeRemove handle arc =>
      have differs := handles handle List.mem_cons_self
      simp only [advanceCall] at stepped
      split at stepped
      · cases stepped
        exact anchored.finish
      · cases stepped
        refine (anchored.removeOther differs).foreign
          ⟨?_, by simp⟩
        simpa [Call.handles] using differs
  | register handle =>
      have differs := handles handle List.mem_cons_self
      simp only [advanceCall] at stepped
      split at stepped
      · cases stepped
        exact anchored.finish
      · cases stepped
        exact (anchored.registerOther differs).finish

end Cluster

end TrainPool
