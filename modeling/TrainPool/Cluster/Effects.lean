import TrainPool.Cluster.Copies

namespace TrainPool

open Execution

namespace Cluster

variable {blake3 : List UInt8 → Digest} {nodes : Uuid → Option Node}
  {id : Uuid} {content : List UInt8} {cluster next : Cluster} {view : View}

theorem rams_setRam (node other : Uuid) (ram : LocalRam)
    (cluster : Cluster) :
    (cluster.setRam node ram).rams other =
      if other = node then ram else cluster.rams other := by
  simp [setRam, Function.update_apply]

theorem setRam_self (node : Uuid) (cluster : Cluster) :
    cluster.setRam node (cluster.rams node) = cluster := by
  simp [setRam]

theorem setCall_setCall (key : Nat) (first second : Call)
    (cluster : Cluster) :
    (cluster.setCall key first).setCall key second =
      cluster.setCall key second := by
  simp [setCall, AList.insert_insert]

section Effects

theorem Anchored.setCall {key : Nat} {call : Call}
    (anchored : Anchored blake3 id content cluster view)
    (holds : CallHolds id content cluster view call)
    (alone : ∀ node other one, call.upload id = some node →
      cluster.calls.lookup other = some one → one.upload id = some node →
      other = key) :
    Anchored blake3 id content (cluster.setCall key call) view := by
  refine ⟨anchored.sound, anchored.copies, anchored.keyed, anchored.entry,
    anchored.present, anchored.sole, ?_, ?_⟩
  · intro other one found
    simp only [Cluster.setCall, Table.lookup_insert_eq] at found
    split at found
    · cases found
      exact holds
    · exact anchored.calls other one found
  · intro first second one other node foundOne foundOther uploadOne uploadOther
    simp only [Cluster.setCall, Table.lookup_insert_eq]
      at foundOne foundOther
    split at foundOne
    · rename_i same
      cases foundOne
      split at foundOther
      · rename_i sameToo
        rw [same, sameToo]
      · rw [same]
        exact (alone node second other uploadOne foundOther uploadOther).symm
    · split at foundOther
      · rename_i same
        cases foundOther
        rw [same]
        exact alone node first one uploadOther foundOne uploadOne
      · exact anchored.apart first second one other node foundOne foundOther
          uploadOne uploadOther

theorem Anchored.proceed {key : Nat} {old call : Call}
    (anchored : Anchored blake3 id content cluster view)
    (found : cluster.calls.lookup key = some old)
    (holds : CallHolds id content cluster view call)
    (uploads : ∀ node, call.upload id = some node → old.upload id = some node) :
    Anchored blake3 id content (cluster.setCall key call) view := by
  refine anchored.setCall holds ?_
  intro node other one upload foundOne uploadOne
  exact anchored.apart other key one old node foundOne found uploadOne
    (uploads node upload)

theorem Anchored.finish {key : Nat} {ok : Bool}
    (anchored : Anchored blake3 id content cluster view) :
    Anchored blake3 id content (cluster.setCall key (.returned ok)) view := by
  refine anchored.setCall (.inl trivial) ?_
  intro node other one upload
  cases upload

theorem put_follows {node : Uuid} {arc : Arc} {before after : Cell}
    (stored : (cluster.rams node).heap[arc]? = some before)
    (grows : RamBlock.Grows before.block after.block)
    (lease : before.block.handle.id = id →
      after.block.handle.leaseExpiresMs =
          before.block.handle.leaseExpiresMs ∨
        before.block.handle.leaseExpiresMs ≤
            after.block.handle.leaseExpiresMs ∧
          cluster.now < before.block.handle.leaseExpiresMs) :
    Follows id (fun _ => False) view cluster
      (cluster.setRam node ((cluster.rams node).put arc after)) := by
  have bound := (List.getElem?_eq_some_iff.mp stored).1
  obtain ⟨same, level, _, _, _⟩ := grows.identity
  have heaps : ∀ (other : Uuid) (place : Arc) (cell : Cell),
      (cluster.rams other).heap[place]? = some cell →
      ((cluster.setRam node ((cluster.rams node).put arc after)).rams
          other).heap[place]? = some cell ∨
        (cell = before ∧
          ((cluster.setRam node ((cluster.rams node).put arc after)).rams
            other).heap[place]? = some after) := by
    intro other place cell found
    rw [rams_setRam]
    split
    · rename_i here
      subst here
      by_cases there : arc = place
      · subst there
        cases stored.symm.trans found
        exact .inr ⟨rfl, by simp [LocalRam.put, bound]⟩
      · exact .inl (by simp [LocalRam.put, there, found])
    · exact .inl found
  have maps : ∀ other,
      ((cluster.setRam node ((cluster.rams node).put arc after)).rams
        other).blocks = (cluster.rams other).blocks := by
    intro other
    rw [rams_setRam]
    split
    · rename_i here
      rw [here, LocalRam.put]
    · rfl
  refine ⟨?_, ?_, ?_, ?_⟩
  · intro other place generation least ready holds
    obtain ⟨cell, found, own, current, leased, readied⟩ := holds
    rcases heaps other place cell found with kept | ⟨rfl, changed⟩
    · exact ⟨cell, kept, own, current, leased, readied⟩
    · refine ⟨after, changed, same.trans own, level.trans current, ?_, ?_⟩
      · rcases lease own with equal | ⟨longer, _⟩
        · exact equal ▸ leased
        · exact Nat.le_trans leased longer
      · intro wanted
        exact (grows.ready (readied wanted)).2.1
  · intro other place _ sole
    rw [Sole, maps]
    exact sole
  · intro other place generation _ holds present
    refine .inl ?_
    rcases present with mapped | ⟨cell, found, expired⟩
    · exact .inl (maps other ▸ mapped)
    · obtain ⟨copy, foundToo, own, _⟩ := holds
      cases found.symm.trans foundToo
      rcases heaps other place cell found with kept | ⟨rfl, changed⟩
      · exact .inr ⟨cell, kept, expired⟩
      · refine .inr ⟨after, changed, ?_⟩
        rcases lease own with equal | ⟨_, alive⟩
        · exact equal ▸ expired
        · exact absurd alive (Nat.not_lt.mpr expired)
  · intro other place strange
    obtain ⟨cell, found, differs⟩ := strange
    rcases heaps other place cell found with kept | ⟨rfl, changed⟩
    · exact ⟨cell, kept, differs⟩
    · exact ⟨after, changed, fun own => differs (same.symm.trans own)⟩

theorem Anchored.put {node : Uuid} {arc : Arc} {before after : Cell}
    (anchored : Anchored blake3 id content cluster view)
    (stored : (cluster.rams node).heap[arc]? = some before)
    (change : RamBlock.Change blake3 before.block after.block)
    (guarded : after.Guarded)
    (lease : before.block.handle.id = id →
      after.block.handle.leaseExpiresMs =
          before.block.handle.leaseExpiresMs ∨
        before.block.handle.leaseExpiresMs ≤
            after.block.handle.leaseExpiresMs ∧
          cluster.now < before.block.handle.leaseExpiresMs)
    (copies : before.block.handle.id = id →
      Copies content node after.block ∧ Known view node arc after.block) :
    Anchored blake3 id content
      (cluster.setRam node ((cluster.rams node).put arc after)) view := by
  have intact := ((anchored.sound node).intact arc before stored).1
  have grows := change.grows intact
  refine (put_follows stored grows lease).anchored anchored rfl rfl ?_ ?_
    (by simp) (by simp)
  · intro other
    rw [rams_setRam]
    split
    · exact (LocalRam.Change.cell arc before after stored
        fun _ => ⟨change, guarded⟩).sound (anchored.sound node)
    · exact anchored.sound other
  · intro other place cell found own
    rw [rams_setRam] at found
    split at found
    · rename_i here
      subst here
      have bound := (List.getElem?_eq_some_iff.mp stored).1
      by_cases there : arc = place
      · subst there
        simp only [LocalRam.put, List.getElem?_set_self bound,
          Option.some.injEq] at found
        subst found
        exact copies (grows.identity.1.symm.trans own)
      · simp only [LocalRam.put, List.getElem?_set_ne there] at found
        exact anchored.copies _ place cell found own
    · exact anchored.copies other place cell found own

theorem Anchored.replace {node : Uuid} {arc : Arc} {block after : RamBlock}
    (anchored : Anchored blake3 id content cluster view)
    (stored : (cluster.rams node).heap[arc]? = some ⟨block, none⟩)
    (change : RamBlock.Change blake3 block after)
    (lease : block.handle.id = id →
      after.handle.leaseExpiresMs = block.handle.leaseExpiresMs ∨
        block.handle.leaseExpiresMs ≤ after.handle.leaseExpiresMs ∧
          cluster.now < block.handle.leaseExpiresMs)
    (copies : Copies content node block → Known view node arc block →
      Copies content node after ∧ Known view node arc after) :
    Anchored blake3 id content (cluster.setRam node
        ((cluster.rams node).put arc ⟨after, none⟩)) view ∧
      Follows id (fun _ => False) view cluster (cluster.setRam node
        ((cluster.rams node).put arc ⟨after, none⟩)) := by
  have intact := ((anchored.sound node).intact arc _ stored).1
  refine ⟨anchored.put stored change trivial lease ?_,
    put_follows stored (change.grows intact) lease⟩
  intro same
  obtain ⟨copied, known⟩ := anchored.copies node arc _ stored same
  exact copies copied known

theorem Anchored.guard {node : Uuid} {arc : Arc} {cell : Cell}
    {guard : Option Guard}
    (anchored : Anchored blake3 id content cluster view)
    (stored : (cluster.rams node).heap[arc]? = some cell)
    (guarded : Cell.Guarded ⟨cell.block, guard⟩) :
    Anchored blake3 id content (cluster.setRam node
      ((cluster.rams node).put arc ⟨cell.block, guard⟩)) view :=
  anchored.put stored (.same _) guarded (fun _ => .inl rfl)
    (anchored.copies node arc cell stored)

theorem Anchored.unlock {node : Uuid} {arc : Arc}
    (anchored : Anchored blake3 id content cluster view) :
    Anchored blake3 id content
      (cluster.setRam node ((cluster.rams node).unlock arc)) view := by
  unfold LocalRam.unlock
  split
  · rename_i cell stored
    exact anchored.guard stored trivial
  · rw [setRam_self]
    exact anchored

theorem Anchored.giveUp {key : Nat} {migration : Migration} {arc : Arc}
    (anchored : Anchored blake3 id content cluster view) :
    Anchored blake3 id content (cluster.giveUp key migration arc) view :=
  anchored.unlock.finish

/-- A daemon forgets copies: those whose lease has run out or that are older
than the table, unless the daemon is spared. -/
theorem forget_follows {spared : Uuid → Prop} {node : Uuid}
    {blocks : Table Uuid Arc}
    (kept : ∀ other arc, blocks.lookup other = some arc →
      (cluster.rams node).blocks.lookup other = some arc)
    (dropped : ∀ (arc : Arc) (cell : Cell),
      (cluster.rams node).blocks.lookup id = some arc →
      blocks.lookup id ≠ some arc →
      (cluster.rams node).heap[arc]? = some cell →
      spared node ∨ cell.block.handle.leaseExpiresMs ≤ cluster.now ∨
        cell.block.handle.generation < view.generation) :
    Follows id spared view cluster (cluster.setRam node
      { cluster.rams node with blocks := blocks }) := by
  have heaps : ∀ other, ((cluster.setRam node
      { cluster.rams node with blocks := blocks }).rams other).heap =
        (cluster.rams other).heap := by
    intro other
    rw [rams_setRam]
    split
    · rename_i here
      rw [here]
    · rfl
  refine ⟨?_, ?_, ?_, ?_⟩
  · intro other arc generation lease ready holds
    rw [Holds, heaps]
    exact holds
  · intro other arc _ sole place found
    rw [rams_setRam] at found
    split at found
    · rename_i here
      subst here
      exact sole place (kept id place found)
    · exact sole place found
  · intro other arc generation spare holds present
    rcases present with mapped | ⟨cell, stored, expired⟩
    · by_cases here : other = node
      · subst here
        by_cases still : blocks.lookup id = some arc
        · exact .inl (.inl (by simpa [rams_setRam] using still))
        · obtain ⟨cell, stored, _, level, _, _⟩ := holds
          rcases dropped arc cell mapped still stored with
            spareToo | expired | older
          · exact absurd spareToo spare
          · exact .inl (.inr ⟨cell, by rw [heaps]; exact stored, expired⟩)
          · exact .inr (level ▸ older)
      · exact .inl (.inl (by simpa [rams_setRam, here] using mapped))
    · exact .inl (.inr ⟨cell, by rw [heaps]; exact stored, expired⟩)
  · intro other arc strange
    rw [Strange, heaps]
    exact strange

theorem Anchored.forget {node : Uuid} {blocks : Table Uuid Arc}
    (anchored : Anchored blake3 id content cluster view)
    (spared : Uuid → Prop)
    (kept : ∀ other arc, blocks.lookup other = some arc →
      (cluster.rams node).blocks.lookup other = some arc)
    (dropped : ∀ (arc : Arc) (cell : Cell),
      (cluster.rams node).blocks.lookup id = some arc →
      blocks.lookup id ≠ some arc →
      (cluster.rams node).heap[arc]? = some cell →
      spared node ∨ cell.block.handle.leaseExpiresMs ≤ cluster.now ∨
        cell.block.handle.generation < view.generation)
    (owner : ¬spared view.owner)
    (others : ∀ key call node, cluster.calls.lookup key = some call →
      call.upload id = some node → ¬spared node) :
    Anchored blake3 id content (cluster.setRam node
      { cluster.rams node with blocks := blocks }) view := by
  refine (forget_follows kept dropped).anchored anchored rfl rfl ?_ ?_ owner
    others
  · intro other
    rw [rams_setRam]
    split
    · exact (LocalRam.Change.forget blocks kept).sound (anchored.sound node)
    · exact anchored.sound other
  · intro other arc cell stored own
    rw [rams_setRam] at stored
    split at stored
    · rename_i here
      subst here
      exact anchored.copies _ arc cell stored own
    · exact anchored.copies other arc cell stored own

theorem Anchored.expire {node : Uuid}
    (anchored : Anchored blake3 id content cluster view) :
    Anchored blake3 id content (cluster.setRam node
      ((cluster.rams node).expire cluster.now)) view := by
  refine anchored.forget (fun _ => False) ?_ ?_ (by simp) (by simp)
  · intro other arc found
    exact (Table.lookup_retain.mp found).1
  · intro arc cell mapped lapsed stored
    refine .inr (.inl ?_)
    have gone : ¬(cluster.rams node).keeps cluster.now arc = true := by
      intro keeps
      exact lapsed (Table.lookup_retain.mpr ⟨mapped, keeps⟩)
    unfold LocalRam.keeps at gone
    split at gone
    · rename_i block free
      cases (LocalRam.lock?_eq_some.mp free).symm.trans stored
      simp only [Bool.or_eq_true, decide_eq_true_eq, not_or,
        Nat.not_lt] at gone
      exact gone.1
    · exact absurd rfl gone

theorem Anchored.tick {elapsed : Nat}
    (anchored : Anchored blake3 id content cluster view) :
    Anchored blake3 id content
      { cluster with now := cluster.now + elapsed } view := by
  have follows : Follows id (fun _ => False) view cluster
      { cluster with now := cluster.now + elapsed } := by
    refine ⟨fun _ _ _ _ _ holds => holds, fun _ _ _ sole => sole, ?_,
      fun _ _ strange => strange⟩
    intro node arc generation _ _ present
    refine .inl ?_
    rcases present with mapped | ⟨cell, stored, expired⟩
    · exact .inl mapped
    · exact .inr ⟨cell, stored, Nat.le_add_right_of_le expired⟩
  exact follows.anchored anchored rfl rfl anchored.sound anchored.copies
    (by simp) (by simp)

theorem allocate_heap {node other : Uuid} {handle : MemoryBlockHandle}
    {arc : Arc} {cell : Cell}
    (stored : (cluster.rams other).heap[arc]? = some cell) :
    ((cluster.setRam node {
        blocks := (cluster.rams node).blocks.insert handle.id
          (cluster.rams node).heap.length
        heap := (cluster.rams node).heap ++
          [⟨RamBlock.allocated handle, none⟩] }).rams other).heap[arc]? =
      some cell := by
  rw [rams_setRam]
  split
  · rename_i here
    subst here
    have bound := (List.getElem?_eq_some_iff.mp stored).1
    simp only [List.getElem?_append_left bound]
    exact stored
  · exact stored

theorem allocate_holds {node other : Uuid} {handle : MemoryBlockHandle}
    {arc : Arc} {generation lease : Nat} {ready : Prop}
    (holds : Holds id cluster other arc generation lease ready) :
    Holds id (cluster.setRam node {
        blocks := (cluster.rams node).blocks.insert handle.id
          (cluster.rams node).heap.length
        heap := (cluster.rams node).heap ++
          [⟨RamBlock.allocated handle, none⟩] })
      other arc generation lease ready := by
  obtain ⟨cell, stored, rest⟩ := holds
  exact ⟨cell, allocate_heap stored, rest⟩

theorem allocate_follows {node : Uuid} {handle : MemoryBlockHandle} :
    Follows id (fun other => handle.id = id ∧ other = node) view cluster
      (cluster.setRam node {
        blocks := (cluster.rams node).blocks.insert handle.id
          (cluster.rams node).heap.length
        heap := (cluster.rams node).heap ++
          [⟨RamBlock.allocated handle, none⟩] }) := by
  have maps : ∀ other, ¬(handle.id = id ∧ other = node) →
      ((cluster.setRam node {
          blocks := (cluster.rams node).blocks.insert handle.id
            (cluster.rams node).heap.length
          heap := (cluster.rams node).heap ++
            [⟨RamBlock.allocated handle, none⟩] }).rams
        other).blocks.lookup id = (cluster.rams other).blocks.lookup id := by
    intro other elsewhere
    rw [rams_setRam]
    split
    · rename_i here
      have differs : id ≠ handle.id := fun same =>
        elsewhere ⟨same.symm, here⟩
      rw [here, AList.lookup_insert_ne differs]
    · rfl
  refine ⟨?_, ?_, ?_, ?_⟩
  · intro other arc generation lease ready holds
    exact allocate_holds holds
  · intro other arc elsewhere sole
    rw [Sole, maps other elsewhere]
    exact sole
  · intro other arc generation elsewhere _ present
    refine .inl ?_
    rcases present with mapped | ⟨cell, stored, expired⟩
    · exact .inl ((maps other elsewhere).trans mapped)
    · exact .inr ⟨cell, allocate_heap stored, expired⟩
  · intro other arc strange
    obtain ⟨cell, stored, differs⟩ := strange
    exact ⟨cell, allocate_heap stored, differs⟩

theorem allocate_copies {node : Uuid} {handle : MemoryBlockHandle}
    (anchored : Anchored blake3 id content cluster view)
    (writing : handle.state = .writing)
    (absent : handle.id ∉ (cluster.rams node).blocks)
    (new : handle.id = id → handle.size = content.length ∧
      handle.ownerNode = node ∧ handle.generation ≠ 0)
    (owner : ¬(handle.id = id ∧ view.owner = node))
    (others : ∀ key call other, cluster.calls.lookup key = some call →
      call.upload id = some other → ¬(handle.id = id ∧ other = node)) :
    Anchored blake3 id content (cluster.setRam node {
      blocks := (cluster.rams node).blocks.insert handle.id
        (cluster.rams node).heap.length
      heap := (cluster.rams node).heap ++
        [⟨RamBlock.allocated handle, none⟩] }) view := by
  refine allocate_follows.anchored anchored rfl rfl ?_ ?_ owner others
  · intro other
    rw [rams_setRam]
    split
    · exact (LocalRam.Change.allocate handle writing absent).sound
        (anchored.sound node)
    · exact anchored.sound other
  · intro other arc cell stored own
    rw [rams_setRam] at stored
    split at stored
    · rename_i here
      subst here
      rw [List.getElem?_append] at stored
      split at stored
      · exact anchored.copies _ arc cell stored own
      · obtain rfl := List.mem_singleton.mp (List.mem_of_getElem? stored)
        obtain ⟨size, owned, positive⟩ := new own
        refine ⟨⟨size, by simp [RamBlock.allocated], owned⟩, ?_⟩
        intro known
        simp [RamBlock.allocated, positive] at known
    · exact anchored.copies other arc cell stored own

/-- The copy that a migration allocates, on a daemon that is not named by the
table and to which no other migration uploads. -/
theorem Anchored.allocate {migration : Migration}
    {target : MemoryBlockHandle} {self : Identity} {headroom reserved : Bool}
    {ram : LocalRam} (anchored : Anchored blake3 id content cluster view)
    (targets : Targets id content migration.destination
      migration.handle.generation target)
    (allocated : allocateLocal self target headroom reserved
      (cluster.rams migration.destination) = .ok ram)
    (owner : view.owner ≠ migration.destination)
    (others : ∀ key call, cluster.calls.lookup key = some call →
      call.upload id ≠ some migration.destination) :
    Anchored blake3 id content (cluster.setRam migration.destination ram)
        view ∧
      (∀ node arc generation lease ready,
        Holds id cluster node arc generation lease ready →
        Holds id (cluster.setRam migration.destination ram) node arc
          generation lease ready) ∧
      ∃ copy, Uploads id (cluster.setRam migration.destination ram) view
        migration copy := by
  obtain ⟨_, writing, absent, rfl⟩ := LocalRam.allocateLocal_ok allocated
  refine ⟨?_, fun _ _ _ _ _ => allocate_holds,
    (cluster.rams migration.destination).heap.length, ?_, ?_, owner⟩
  · refine allocate_copies anchored writing absent ?_
      (fun same => owner same.2) ?_
    · intro _
      exact ⟨targets.size, targets.owner, by rw [targets.generation]; simp⟩
    · intro key call other found upload here
      exact others key call found (here.2 ▸ upload)
  · refine ⟨⟨RamBlock.allocated target, none⟩, ?_, targets.id,
      targets.generation, Nat.zero_le _, False.elim⟩
    simp [rams_setRam]
  · intro other found
    simp only [rams_setRam, if_true, targets.id, Table.lookup_insert_eq,
      Option.some.injEq] at found
    exact found.symm

theorem Anchored.register {handle : MemoryBlockHandle}
    (anchored : Anchored blake3 id content cluster view)
    (holds : OwnCall id content cluster view (.register handle)) :
    Anchored blake3 id content
      (cluster.setTable (cluster.table.register handle)) view := by
  obtain ⟨same, leased, level, official⟩ := holds
  obtain ⟨entry, found, alive, owned, current, held⟩ := anchored.entry
  refine ⟨anchored.sound, anchored.copies, anchored.keyed.register handle, ?_,
    anchored.present, anchored.sole, anchored.calls, anchored.apart⟩
  subst same
  obtain ⟨merged, merges, after⟩ := ResidencyTable.lookup_register found
  refine ⟨merged, after, ?_⟩
  cases merges with
  | freed _ => exact ⟨alive, owned, current, held⟩
  | stale _ _ => exact ⟨alive, owned, current, held⟩
  | kept _ level _ ready _ =>
      refine ⟨by simp only; omega, owned, current, ?_⟩
      obtain ⟨cell, stored, named, known, longer, readied⟩ := held
      obtain ⟨_, copy, storedToo, _, _, longerToo, _⟩ :=
        official (level.trans current)
      cases stored.symm.trans storedToo
      exact ⟨_, stored, named, known, Nat.max_le.mpr ⟨longer, longerToo⟩,
        readied⟩
  | renewed _ level _ _ =>
      obtain ⟨holder, copy, storedToo, named, known, longerToo, readied⟩ :=
        official (level.trans current)
      refine ⟨by simp only; omega, holder, level.trans current, ?_⟩
      obtain ⟨cell, stored, _, _, longer, _⟩ := held
      cases stored.symm.trans storedToo
      exact ⟨_, stored, named, known, Nat.max_le.mpr ⟨longer, longerToo⟩,
        readied⟩
  | buried _ _ freed => omega
  | newer _ newer => omega

/-- What a request knows stays true when the table moves on to a later
generation on a daemon that the request does not upload to. -/
theorem OwnCall.moves {later : View} {call : Call}
    (holds : OwnCall id content cluster view call)
    (newer : view.generation < later.generation)
    (apart : call.upload id ≠ some later.owner) :
    OwnCall id content cluster later call := by
  cases call with
  | renew handle =>
      obtain ⟨same, level, _⟩ := holds
      exact ⟨same, by omega, by omega⟩
  | renewAt handle arc =>
      obtain ⟨same, generation, held, level, _⟩ := holds
      exact ⟨same, generation, held, by omega, by omega⟩
  | commit handle checksum => exact holds
  | commitAt handle checksum arc => exact holds
  | register handle =>
      obtain ⟨same, leased, level, _⟩ := holds
      exact ⟨same, leased, by omega, by omega⟩
  | free handle => exact holds
  | freeCheck handle arc => exact holds
  | freeRemove handle arc => exact holds
  | returned ok => trivial
  | migrate migration =>
      obtain ⟨named, holds⟩ := holds
      refine ⟨named, ?_⟩
      obtain ⟨source, destination, handle, stage⟩ := migration
      have uploads {copy : Arc}
          (uploads : Uploads id cluster view
            ⟨source, destination, handle, stage⟩ copy)
          (elsewhere : destination ≠ later.owner) :
          Uploads id cluster later
            ⟨source, destination, handle, stage⟩ copy :=
        ⟨uploads.1, uploads.2.1, elsewhere.symm⟩
      have lasts {copy : Arc}
          (lasts : Lasts id cluster view
            ⟨source, destination, handle, stage⟩ copy) :
          Lasts id cluster later
            ⟨source, destination, handle, stage⟩ copy :=
        lasts.imp_right fun older => Nat.lt_trans older newer
      have elsewhere (uploading : stage.uploading = true) :
          destination ≠ later.owner := by
        intro same
        apply apart
        rw [← same]
        exact if_pos ⟨named, uploading⟩
      cases stage with
      | lookup => trivial
      | lock arc => exact holds
      | target arc => exact holds
      | allocate arc target => exact holds
      | write arc target transferId offset =>
          obtain ⟨pinned, targets, copy, copied⟩ := holds
          exact ⟨pinned, targets, copy, uploads copied (elsewhere rfl)⟩
      | commit arc target =>
          obtain ⟨pinned, targets, copy, copied⟩ := holds
          exact ⟨pinned, targets, copy, uploads copied (elsewhere rfl)⟩
      | writeAt arc target transferId offset copy =>
          obtain ⟨pinned, targets, ⟨own, copied⟩, found⟩ := holds
          exact ⟨pinned, targets, ⟨own, uploads copied (elsewhere rfl)⟩,
            found⟩
      | commitAt arc target copy =>
          obtain ⟨pinned, targets, copied, lasting⟩ := holds
          exact ⟨pinned, targets, uploads copied (elsewhere rfl),
            lasts lasting⟩
      | commitRegister arc target committed => exact holds
      | discard arc target =>
          obtain ⟨same, copy, copied⟩ := holds
          exact ⟨same, copy, uploads copied (elsewhere rfl)⟩
      | discardCheck arc target found =>
          obtain ⟨same, copy, copied⟩ := holds
          exact ⟨same, copy, uploads copied (elsewhere rfl)⟩
      | discardRemove arc target found =>
          obtain ⟨same, copy, copied⟩ := holds
          exact ⟨same, copy, uploads copied (elsewhere rfl)⟩
      | swap arc committed =>
          obtain ⟨same, owned, leased, copy, copied, lasting, held⟩ := holds
          exact ⟨same, owned, leased, copy,
            uploads copied (elsewhere rfl), lasts lasting, held⟩
      | publish arc committed =>
          obtain ⟨same, moved, level, _⟩ := holds
          exact ⟨same, Nat.lt_trans moved newer, by omega, by omega⟩
      | publishAt arc committed copy =>
          obtain ⟨moved, generation, held, official⟩ := holds
          refine ⟨Nat.lt_trans moved newer, generation, held, ?_⟩
          intro same
          have level := (official same).1
          exact ⟨by omega, by omega⟩
      | release => exact Nat.lt_trans holds newer
      | releaseCheck found =>
          exact ⟨Nat.lt_trans holds.1 newer, holds.2⟩
      | releaseRemove found =>
          exact ⟨Nat.lt_trans holds.1 newer, holds.2⟩

theorem Anchored.swap {migration : Migration}
    {committed : MemoryBlockHandle} {table : ResidencyTable}
    (anchored : Anchored blake3 id content cluster view) (arc : Arc)
    (holds : StageHolds id content cluster view migration
      (.swap arc committed))
    (bounded : migration.handle.generation + 1 < 2 ^ 64)
    (others : ∀ key call, cluster.calls.lookup key = some call →
      call.upload id ≠ some migration.destination)
    (registered : cluster.table.registerRequest committed
      (some migration.handle.generation) = .ok table) :
    ∃ later, Anchored blake3 id content (cluster.setTable table) later ∧
      migration.handle.generation < later.generation ∧
      committed.generation ≤ later.generation ∧
      later.owner = migration.destination := by
  obtain ⟨same, owned, leased, copy, uploads, lasts, held⟩ := holds
  obtain ⟨entry, found, alive, _, current, _⟩ := anchored.entry
  simp only [ResidencyTable.registerRequest, Option.elim_some] at registered
  obtain ⟨_, checked, registered⟩ := bind_ok.mp registered
  simp only [ensure_bind_ok, ensure_ok] at checked
  cases registered
  subst same
  rw [found] at checked
  simp only [Option.any_some, Bool.decide_and, Bool.and_eq_true,
    decide_eq_true_eq] at checked
  obtain ⟨⟨level, _⟩, next, ready⟩ := checked
  have newer : view.generation < committed.generation := by omega
  have moved : (cluster.table.register committed).lookup committed.id =
      some committed := by
    obtain ⟨merged, merges, after⟩ := ResidencyTable.lookup_register found
    cases merges with
    | freed freed => omega
    | stale _ stale => omega
    | kept _ equal _ _ _ => omega
    | renewed _ equal _ _ => omega
    | buried _ equal _ => omega
    | newer _ _ => exact after
  refine ⟨⟨migration.destination, committed.generation, copy⟩,
    ⟨anchored.sound, ?_, anchored.keyed.register committed, ?_, ?_,
      uploads.2.1, ?_, anchored.apart⟩,
    by simp only; omega, Nat.le_refl _, rfl⟩
  · intro node place cell stored named
    obtain ⟨copies, known⟩ := anchored.copies node place cell stored named
    refine ⟨copies, ?_⟩
    intro spoken
    obtain ⟨leased, level, _⟩ := known spoken
    exact ⟨leased, by simp only; omega, by simp only; omega⟩
  · refine ⟨committed, moved, leased, owned, rfl, ?_⟩
    obtain ⟨cell, stored, named, known, longer, readied⟩ := held
    exact ⟨cell, stored, named, known, longer, fun _ => readied trivial⟩
  · rcases lasts with present | older
    · exact present
    · omega
  · intro key call stands
    exact (anchored.calls key call stands).imp_left fun own =>
      own.moves newer (others key call stands)

theorem Anchored.remove {node : Uuid} {arc : Arc}
    (anchored : Anchored blake3 id content cluster view)
    (spared : Uuid → Prop)
    (dropped : ∀ cell : Cell, (cluster.rams node).heap[arc]? = some cell →
      spared node ∨ cell.block.handle.leaseExpiresMs ≤ cluster.now ∨
        cell.block.handle.generation < view.generation)
    (owner : ¬spared view.owner)
    (others : ∀ key call node, cluster.calls.lookup key = some call →
      call.upload id = some node → ¬spared node) :
    Anchored blake3 id content
      (cluster.setRam node ((cluster.rams node).remove id arc)) view := by
  unfold LocalRam.remove
  split
  · rename_i mapped
    refine anchored.forget spared ?_ ?_ owner others
    · intro other place found
      rw [Table.lookup_erase_eq] at found
      split at found
      · cases found
      · exact found
    · intro place cell found _ stored
      cases mapped.symm.trans found
      exact dropped cell stored
  · rw [setRam_self]
    exact anchored

end Effects

section Blocks

variable {node : Uuid} {block next : RamBlock}

theorem Copies.ready (copies : Copies content node block)
    (intact : block.Intact blake3) (ready : block.handle.state = .ready) :
    block.bytes = content := by
  obtain ⟨written, _⟩ := intact.ready ready
  have length : block.bytes.length = content.length :=
    intact.length.trans copies.size
  have taken := copies.taken
  rw [written, List.take_length, length, List.take_length] at taken
  exact taken

theorem Copies.extend {payload : List UInt8} {finish : Nat}
    {transferId : Uuid} (copies : Copies content node block)
    (intact : block.Intact blake3)
    (sent : payload = Slice.slice content block.written finish) :
    Copies content node (block.extend block.written payload transferId) := by
  refine ⟨copies.size, ?_, copies.owner⟩
  simp only [RamBlock.extend]
  rw [Slice.take_overwrite_end intact.bounded, copies.taken,
    List.take_add, sent]
  congr 1
  simp only [Slice.slice, List.drop_take, List.length_take,
    List.take_eq_take_iff, List.length_drop]
  omega

theorem Copies.scribble {start : Nat} {piece : List UInt8}
    (copies : Copies content node block)
    (after : block.written ≤ start) (fits : start ≤ block.bytes.length) :
    Copies content node
      { block with bytes := Slice.overwrite block.bytes start piece } := by
  refine ⟨copies.size, ?_, copies.owner⟩
  rw [Slice.take_overwrite_of_le fits after]
  exact copies.taken

theorem receive_ok {own peer : Node} {now offset : Nat}
    {target : MemoryBlockHandle} {transferId : Uuid} {payload : List UInt8}
    (intact : block.Intact blake3)
    (received : receive blake3 own peer now target transferId offset payload
      block = .ok next) :
    block.handle.state = .writing ∧ offset = block.written ∧
      block.written + payload.length ≤ block.bytes.length ∧
      next = block.extend block.written payload transferId := by
  unfold receive at received
  split at received
  · obtain ⟨_, ⟨_, writing, rfl⟩, fits, rfl⟩ :=
      RamBlock.finishUdp_ok.mp received
    exact ⟨writing, rfl, fits, rfl⟩
  · simp only [RamBlock.receiveDirect, ensure_bind_ok] at received
    obtain ⟨_, _, received⟩ := received
    obtain ⟨_, admitted, finished⟩ := bind_ok.mp received
    obtain ⟨writing, sequential, fits⟩ := RamBlock.admitDirect_ok admitted
    simp only at sequential fits
    subst sequential
    simp only [RamBlock.finishDirect, ensure_bind_ok, pure_ok] at finished
    obtain ⟨_, rfl⟩ := finished
    refine ⟨writing, rfl, fits, ?_⟩
    simp only [RamBlock.stream, RamBlock.extend, Nat.add_zero,
      Slice.slice_overwrite intact.bounded]

theorem receiveLost_ok {own peer : Node} {now offset arrived : Nat}
    {target : MemoryBlockHandle} {transferId : Uuid} {payload : List UInt8}
    (received : receiveLost blake3 own peer now target transferId offset
      payload arrived block = .ok next) :
    next = block ∨
      (block.handle.state = .writing ∧
        block.written + (payload.take arrived).length ≤
          block.bytes.length ∧
        next = { block with
          bytes := Slice.overwrite block.bytes block.written
            (payload.take arrived) }) := by
  unfold receiveLost at received
  split at received
  · cases received
    exact .inl rfl
  · simp only [RamBlock.receivePart] at received
    obtain ⟨_, admitted, finished⟩ := bind_ok.mp received
    obtain ⟨writing, sequential, fits⟩ := RamBlock.admitDirect_ok admitted
    simp only at sequential fits
    subst sequential
    cases finished
    refine .inr ⟨writing, ?_, ?_⟩
    · rw [List.length_take]
      omega
    · simp [RamBlock.stream]

end Blocks

end Cluster

end TrainPool
