import TrainPool.Cluster.Overlap

namespace TrainPool

open Execution

/-! A block that is freed while it migrates. -/

namespace Cluster

section Freer

variable {blake3 : List UInt8 → Digest} {nodes : Uuid → Option Node}
  {overlap : Overlap} {original : Original} {cluster next : Cluster}
  {fate : Fate} {call : Call}

inductive Official (overlap : Overlap) (original : Original)
    (cluster : Cluster) : Prop
  | home (found : Home overlap original cluster.rams)
      (lists : Lists overlap.id (Named overlap original original.generation
        original.owner) cluster.table)
  | copy (copy : Arc)
      (found : Finds overlap.id overlap.destination copy (fun _ => True)
        cluster.rams)
      (old : ∀ arc,
        (cluster.rams original.owner).blocks.lookup overlap.id = some arc →
          arc = original.arc)
      (lists : Lists overlap.id (Named overlap original
        (original.generation + 1) overlap.destination) cluster.table)

theorem AtHome.official
    (atHome : AtHome overlap original cluster.rams cluster.table) :
    Official overlap original cluster :=
  .home atHome.home atHome.lists

theorem Spread.official {copy : Arc} {fits : MemoryBlockHandle → Prop}
    (swapped : Swapped overlap original cluster.rams cluster.table copy fits) :
    Official overlap original cluster := by
  refine .copy copy (swapped.copy.imp fun _ _ => trivial) ?_ swapped.lists
  intro arc found
  exact swapped.home.get (LocalRam.get_ok.mpr found)

theorem Moved.official
    (moved : Moved overlap original cluster.rams cluster.table) :
    Official overlap original cluster := by
  obtain ⟨away, ⟨copy, found⟩, only, lists⟩ := moved
  refine .copy copy found ?_ lists
  intro arc here
  have absent := only original.owner (by simpa using away.symm)
  cases here.symm.trans absent

theorem StageOpen.official {stage : MigrateStage}
    (holds : StageOpen overlap original cluster.rams cluster.table stage) :
    Official overlap original cluster := by
  cases stage with
  | lookup => exact AtHome.official holds
  | lock arc => exact holds.2.official
  | target arc => exact holds.2.official
  | allocate arc target => exact holds.2.2.official
  | write arc target transferId offset =>
      obtain ⟨_, _, _, copying⟩ := holds
      exact .home copying.home copying.lists
  | writeAt arc target transferId offset copy =>
      exact .home holds.2.2.home holds.2.2.lists
  | commit arc target =>
      obtain ⟨_, _, _, copying⟩ := holds
      exact .home copying.home copying.lists
  | commitAt arc target copy => exact .home holds.2.2.home holds.2.2.lists
  | commitRegister arc target committed => exact holds.elim
  | discard arc target =>
      obtain ⟨_, _, _, copying⟩ := holds
      exact .home copying.home copying.lists
  | discardCheck arc target copy =>
      exact .home holds.2.2.home holds.2.2.lists
  | discardRemove arc target copy =>
      exact .home holds.2.2.home holds.2.2.lists
  | swap arc committed =>
      obtain ⟨_, _, _, _, copying⟩ := holds
      exact .home copying.home copying.lists
  | publish arc committed =>
      obtain ⟨_, _, _, swapped⟩ := holds
      exact swapped.official
  | publishAt arc committed copy => exact holds.2.2.official
  | release =>
      obtain ⟨_, _, swapped⟩ := holds
      exact swapped.official
  | releaseCheck found =>
      obtain ⟨_, _, swapped⟩ := holds
      exact swapped.official
  | releaseRemove found =>
      obtain ⟨_, _, swapped⟩ := holds
      exact swapped.official

theorem MoverOpen.official {call : Option Call}
    (holds : MoverOpen overlap original cluster.rams cluster.table call) :
    Official overlap original cluster := by
  cases call with
  | none => exact AtHome.official holds
  | some call =>
      cases call with
      | migrate migration => exact StageOpen.official holds.2
      | returned ok => exact holds.elim AtHome.official Moved.official
      | free handle => exact holds.elim
      | freeCheck handle arc => exact holds.elim
      | freeRemove handle arc => exact holds.elim
      | renew handle => exact holds.elim
      | renewAt handle arc => exact holds.elim
      | commit handle checksum => exact holds.elim
      | commitAt handle checksum arc => exact holds.elim
      | register handle => exact holds.elim

theorem Official.resolved {token : Uuid} {handle : MemoryBlockHandle}
    (official : Official overlap original cluster)
    (resolved : cluster.resolve nodes overlap.id token = .ok handle) :
    Resolved overlap original cluster.table handle := by
  obtain ⟨entry, found, rest⟩ := bind_ok.mp resolved
  rw [ensure_bind_ok] at rest
  obtain ⟨_, same⟩ := rest
  cases same
  obtain ⟨listed, _⟩ := ResidencyTable.resolve_ok found
  cases official with
  | home _ lists =>
      obtain ⟨other, listedToo, named⟩ := lists
      cases listed.symm.trans listedToo
      exact .before named.id named.generation named.owner
  | copy _ _ _ lists =>
      obtain ⟨other, listedToo, named⟩ := lists
      cases listed.symm.trans listedToo
      exact .after named.id named.generation named.owner
        ⟨_, listed, named⟩

theorem Official.looked {handle : MemoryBlockHandle} {arc : Arc}
    (official : Official overlap original cluster)
    (resolved : Resolved overlap original cluster.table handle)
    (found : (cluster.rams handle.ownerNode).blocks.lookup handle.id =
      some arc) :
    Looked overlap original cluster.rams handle arc := by
  cases resolved with
  | before id generation owner =>
      rw [id, owner] at found
      refine ⟨fun _ => ?_, fun newer => by omega⟩
      cases official with
      | home home _ => exact home.get (LocalRam.get_ok.mpr found)
      | copy _ _ old _ => exact old arc found
  | after id generation owner _ =>
      rw [id, owner] at found
      exact ⟨fun older => by omega, fun _ => found⟩

theorem Resolved.named {table : ResidencyTable} {handle : MemoryBlockHandle}
    (resolved : Resolved overlap original table handle) :
    handle.id = overlap.id := by
  cases resolved with
  | before id _ _ => exact id
  | after id _ _ _ => exact id

theorem level_of_clear {handle : MemoryBlockHandle} {generation : Nat}
    {owner : Uuid}
    (lists : Lists overlap.id (Named overlap original generation owner)
      cluster.table)
    (resolved : Resolved overlap original cluster.table handle)
    (clear : overlap.Clear cluster handle) :
    handle.generation = generation := by
  obtain ⟨entry, found, named⟩ := lists
  rw [← resolved.named] at found
  exact (clear.1 entry found).symm.trans named.generation

theorem Official.present {handle : MemoryBlockHandle}
    (official : Official overlap original cluster)
    (resolved : Resolved overlap original cluster.table handle)
    (clear : overlap.Clear cluster handle) :
    (cluster.rams handle.ownerNode).blocks.lookup handle.id ≠ none := by
  cases official with
  | home home lists =>
      have level := level_of_clear lists resolved clear
      cases resolved with
      | before id _ owner =>
          rw [id, owner, home.1]
          exact Option.some_ne_none _
      | after _ newer _ _ => omega
  | copy copy found _ lists =>
      have level := level_of_clear lists resolved clear
      cases resolved with
      | before _ older _ => omega
      | after id _ owner _ =>
          rw [id, owner, found.1]
          exact Option.some_ne_none _

/-! The removal of the block where that is clear. -/

section Removal

variable {handle : MemoryBlockHandle} {arc : Arc}
  (resolved : Resolved overlap original cluster.table handle)
  (looked : Looked overlap original cluster.rams handle arc)
  (clear : overlap.Clear cluster handle)

include resolved looked clear

theorem AtHome.freed
    (atHome : AtHome overlap original cluster.rams cluster.table) :
    Only overlap.id [] (cluster.setRam handle.ownerNode
      ((cluster.rams handle.ownerNode).remove handle.id arc)).rams := by
  have level := level_of_clear atHome.lists resolved clear
  cases resolved with
  | before id _ owner =>
      rw [id, owner, looked.before level]
      exact atHome.only.remove atHome.home
  | after _ newer _ _ => omega

theorem Spread.freed {copy : Arc} {fits : MemoryBlockHandle → Prop}
    (swapped : Swapped overlap original cluster.rams cluster.table copy fits)
    (away : overlap.destination ≠ original.owner) :
    Home overlap original (cluster.setRam handle.ownerNode
        ((cluster.rams handle.ownerNode).remove handle.id arc)).rams ∧
      Only overlap.id [original.owner] (cluster.setRam handle.ownerNode
        ((cluster.rams handle.ownerNode).remove handle.id arc)).rams := by
  have level := level_of_clear swapped.lists resolved clear
  cases resolved with
  | before _ older _ => omega
  | after id _ owner _ =>
      obtain rfl := swapped.copy.get
        (LocalRam.get_ok.mpr (looked.after level))
      rw [id, owner]
      exact ⟨swapped.home.elsewhere away.symm,
        swapped.only.remove swapped.copy⟩

theorem Moved.freed
    (moved : Moved overlap original cluster.rams cluster.table) :
    Only overlap.id [] (cluster.setRam handle.ownerNode
      ((cluster.rams handle.ownerNode).remove handle.id arc)).rams := by
  have level := level_of_clear moved.lists resolved clear
  cases resolved with
  | before _ older _ => omega
  | after id _ owner _ =>
      obtain ⟨copy, found⟩ := moved.copy
      obtain rfl := found.get (LocalRam.get_ok.mpr (looked.after level))
      rw [id, owner]
      exact moved.only.remove found

theorem MoverOpen.freed
    (holds : MoverOpen overlap original cluster.rams cluster.table
      (cluster.calls.lookup overlap.mover)) :
    MoverClosed overlap original (cluster.setRam handle.ownerNode
        ((cluster.rams handle.ownerNode).remove handle.id arc)).rams
      (cluster.calls.lookup overlap.mover) := by
  have outside := clear.2
  cases found : cluster.calls.lookup overlap.mover with
  | none =>
      rw [found] at holds
      exact AtHome.freed resolved looked clear holds
  | some call =>
      rw [found] at holds outside
      have outside := outside call rfl
      cases call with
      | migrate migration =>
          obtain ⟨moving, holds⟩ := holds
          refine ⟨moving, ?_⟩
          cases reached : migration.stage with
          | lookup =>
              rw [reached] at holds
              exact AtHome.freed resolved looked clear holds
          | release =>
              rw [reached] at holds
              obtain ⟨admitted, copy, swapped⟩ := holds
              exact ⟨admitted,
                swapped.freed resolved looked clear admitted.away⟩
          | releaseCheck found =>
              rw [reached] at holds
              obtain ⟨admitted, copy, swapped⟩ := holds
              exact ⟨admitted,
                swapped.freed resolved looked clear admitted.away⟩
          | releaseRemove found =>
              rw [reached] at holds
              obtain ⟨admitted, copy, swapped⟩ := holds
              exact ⟨admitted,
                swapped.freed resolved looked clear admitted.away⟩
          | _ =>
              simp [Overlap.Outside, reached, MigrateStage.outside] at outside
      | returned ok =>
          rcases holds with atHome | moved
          · exact atHome.freed resolved looked clear
          · exact moved.freed resolved looked clear
      | _ => exact holds.elim

end Removal

theorem Official.buried {handle : MemoryBlockHandle}
    (official : Official overlap original cluster)
    (resolved : Resolved overlap original cluster.table handle)
    (clear : overlap.Clear cluster handle) :
    Lists overlap.id (fun entry => entry.generation = handle.generation ∧
      entry.leaseExpiresMs ≠ 0) cluster.table := by
  have named : ∃ generation owner, Lists overlap.id
      (Named overlap original generation owner) cluster.table := by
    cases official with
    | home _ lists => exact ⟨_, _, lists⟩
    | copy _ _ _ lists => exact ⟨_, _, lists⟩
  obtain ⟨generation, owner, lists⟩ := named
  have level := level_of_clear lists resolved clear
  obtain ⟨entry, found, named⟩ := lists
  exact ⟨entry, found, named.generation.trans level.symm, named.leased⟩

theorem register_buries {handle : MemoryBlockHandle} {table : ResidencyTable}
    (id : handle.id = overlap.id) (freed : handle.leaseExpiresMs = 0)
    (lists : Lists overlap.id (fun entry =>
      entry.generation = handle.generation ∧ entry.leaseExpiresMs ≠ 0) table) :
    Lists overlap.id (fun entry => entry.leaseExpiresMs = 0)
      (table.register handle) := by
  obtain ⟨entry, found, level, leased⟩ := lists
  rw [← id] at found ⊢
  obtain ⟨merged, merges, stored⟩ := ResidencyTable.lookup_register found
  refine ⟨merged, stored, ?_⟩
  cases merges with
  | freed freed => exact freed
  | stale _ stale => omega
  | kept _ _ leased _ _ => exact absurd freed leased
  | renewed _ _ leased _ => exact absurd freed leased
  | buried _ _ freed => exact freed
  | newer _ newer => omega

end Freer

section Steps

variable {blake3 : List UInt8 → Digest} {nodes : Uuid → Option Node}
  {overlap : Overlap} {original : Original} {cluster next : Cluster}
  {fate : Fate} {call : Call}

theorem lookup_setCall (key other : Nat) (call : Call) (cluster : Cluster) :
    (cluster.setCall key call).calls.lookup other =
      if other = key then some call else cluster.calls.lookup other :=
  Table.lookup_insert_eq key other call cluster.calls

theorem Overlapping.free {middle : Cluster}
    (overlapping : Overlapping overlap original cluster)
    (calls : middle.calls = cluster.calls)
    (stands : (MoverOpen overlap original middle.rams middle.table
          (cluster.calls.lookup overlap.mover) ∧
        FreerOpen overlap original middle.rams middle.table (some call)) ∨
      (MoverClosed overlap original middle.rams
          (cluster.calls.lookup overlap.mover) ∧
        FreerClosed overlap middle.table (some call))) :
    Overlapping overlap original (middle.setCall overlap.freer call) := by
  constructor
  · intro key other another
    rw [lookup_setCall, if_neg other, calls]
    exact overlapping.sole key other another
  · rw [lookup_setCall, lookup_setCall, if_pos rfl,
      if_neg overlap.apart.symm, calls]
    exact stands

theorem Overlapping.move {middle : Cluster}
    (overlapping : Overlapping overlap original cluster)
    (calls : middle.calls = cluster.calls)
    (moves : MoverClosed overlap original middle.rams (some call))
    (freed : FreerClosed overlap middle.table
      (cluster.calls.lookup overlap.freer)) :
    Overlapping overlap original (middle.setCall overlap.mover call) := by
  constructor
  · intro key other another
    rw [lookup_setCall, if_neg another, calls]
    exact overlapping.sole key other another
  · rw [lookup_setCall, lookup_setCall, if_pos rfl, if_neg overlap.apart,
      calls]
    exact .inr ⟨moves, freed⟩

theorem Overlapping.moves
    (overlapping : Overlapping overlap original cluster)
    (moves : Moves overlap original cluster next)
    (freer : FreerOpen overlap original cluster.rams cluster.table
      (cluster.calls.lookup overlap.freer)) :
    Overlapping overlap original next := by
  obtain ⟨call, calls, stands⟩ := moves.stands
  constructor
  · intro key other another
    rw [calls, Table.lookup_insert_eq, if_neg another]
    exact overlapping.sole key other another
  · rw [calls, Table.lookup_insert_eq, Table.lookup_insert_eq, if_pos rfl,
      if_neg overlap.apart]
    exact .inl ⟨stands, moves.later.freer freer⟩

theorem advance_freer (overlapping : Overlapping overlap original cluster)
    (found : cluster.calls.lookup overlap.freer = some call)
    (ordered : overlap.Ordered cluster (.advance overlap.freer fate))
    (answered : fate.rpc = .answered)
    (stepped : cluster.advanceCall blake3 nodes overlap.freer fate call =
      some next) :
    Overlapping overlap original next := by
  have ordered := ordered call (Option.mem_def.mpr found)
  rcases overlapping.stands with ⟨mover, freer⟩ | ⟨mover, freer⟩
  · rw [found] at freer
    cases call with
    | free handle =>
        simp only [advanceCall, answered, reduceCtorEq, if_false] at stepped
        have resolved : Resolved overlap original cluster.table handle := freer
        split at stepped
        · rename_i arc given
          cases stepped
          have looked := mover.official.looked resolved
            (LocalRam.get_ok.mp given)
          exact overlapping.free rfl (.inl ⟨mover, resolved, looked⟩)
        · rename_i missing
          have absent : (cluster.rams handle.ownerNode).blocks.lookup
              handle.id = none := by
            cases mapped : (cluster.rams handle.ownerNode).blocks.lookup
              handle.id with
            | none => rfl
            | some arc =>
                rw [LocalRam.get_ok.mpr mapped] at missing
                cases missing
          exact absurd absent
            (mover.official.present resolved (ordered absent))
    | freeCheck handle arc =>
        simp only [advanceCall, answered, reduceCtorEq, if_false] at stepped
        obtain ⟨block, _, stepped⟩ := Option.bind_eq_some_iff.mp stepped
        split at stepped
        · cases stepped
          exact overlapping.free rfl (.inl ⟨mover, freer⟩)
        · cases stepped
          exact overlapping.free rfl (.inl ⟨mover, trivial⟩)
    | freeRemove handle arc =>
        simp only [advanceCall, answered, reduceCtorEq, if_false] at stepped
        cases stepped
        obtain ⟨resolved, looked⟩ := freer
        have buried := mover.official.buried resolved ordered
        exact overlapping.free rfl (.inr
          ⟨mover.freed resolved looked ordered, resolved.named, rfl, buried⟩)
    | returned ok => cases stepped
    | _ => exact freer.elim
  · rw [found] at freer
    cases call with
    | register handle =>
        simp only [advanceCall, answered, reduceCtorEq, if_false] at stepped
        cases stepped
        obtain ⟨named, freed, lists⟩ := freer
        exact overlapping.free rfl
          (.inr ⟨mover, register_buries named freed lists⟩)
    | returned ok => cases stepped
    | _ => exact freer.elim

theorem advance_closed {migration : Migration}
    (overlapping : Overlapping overlap original cluster)
    (holds : MoverClosed overlap original cluster.rams
      (some (.migrate migration)))
    (freed : FreerClosed overlap cluster.table
      (cluster.calls.lookup overlap.freer))
    (stepped : cluster.advanceMigration blake3 nodes overlap.mover fate
      migration = some next) :
    Overlapping overlap original next := by
  obtain ⟨moving, holds⟩ := holds
  cases reached : migration.stage with
  | lookup =>
      rw [reached] at holds
      have gone : Only overlap.id [] cluster.rams := holds
      simp only [advanceMigration, reached] at stepped
      split at stepped
      · cases stepped
        exact overlapping.move rfl gone freed
      · split at stepped
        · rename_i arc given
          rw [moving.handle] at given
          have absent := gone migration.source List.not_mem_nil
          cases (LocalRam.get_ok.mp given).symm.trans absent
        · cases stepped
          exact overlapping.move rfl gone freed
  | release =>
      rw [reached] at holds
      obtain ⟨admitted, home, only⟩ := holds
      simp only [advanceMigration, reached] at stepped
      rw [moving.source, moving.handle, admitted.source,
        show overlap.handle.id = overlap.id from rfl,
        LocalRam.get_ok.mpr home.1] at stepped
      cases stepped
      exact overlapping.move rfl ⟨⟨moving.source, moving.handle,
        moving.destination⟩, admitted, home, only⟩ freed
  | releaseCheck found =>
      rw [reached] at holds
      obtain ⟨admitted, home, only⟩ := holds
      simp only [advanceMigration, reached] at stepped
      rw [moving.source, moving.handle, admitted.source] at stepped
      obtain ⟨block, free, stepped⟩ := Option.bind_eq_some_iff.mp stepped
      rw [admitted.arc] at free
      have own := home.stored (LocalRam.lock?_eq_some.mp free)
      rw [if_pos (own.token.trans admitted.token.symm)] at stepped
      cases stepped
      exact overlapping.move rfl ⟨⟨moving.source, moving.handle,
        moving.destination⟩, admitted, home, only⟩ freed
  | releaseRemove found =>
      rw [reached] at holds
      obtain ⟨admitted, home, only⟩ := holds
      simp only [advanceMigration, reached] at stepped
      cases stepped
      rw [moving.source, moving.handle, admitted.source, admitted.arc]
      exact overlapping.move rfl (only.remove home) freed
  | _ =>
      rw [reached] at holds
      exact holds.elim

theorem advance_mover (overlapping : Overlapping overlap original cluster)
    (found : cluster.calls.lookup overlap.mover = some call)
    (unhindered : overlap.Unhindered cluster (.advance overlap.mover fate))
    (ordered : overlap.Ordered cluster (.advance overlap.mover fate))
    (stepped : cluster.advanceCall blake3 nodes overlap.mover fate call =
      some next) :
    Overlapping overlap original next := by
  obtain ⟨answered, _, _, lasting⟩ := unhindered
  have lasting := lasting call (Option.mem_def.mpr found)
  rcases overlapping.stands with ⟨mover, freer⟩ | ⟨mover, freer⟩
  · rw [found] at mover
    cases call with
    | migrate migration =>
        obtain ⟨moving, holds⟩ := mover
        refine overlapping.moves ?_ freer
        refine advanceMigration_moves moving holds answered ?_
          (ordered _ (Option.mem_def.mpr found)) stepped
        intro arc committed copy reached cell stored
        obtain ⟨source, destination, handle, stage⟩ := migration
        obtain rfl : destination = overlap.destination := moving.destination
        cases reached
        exact lasting cell stored
    | returned ok => cases stepped
    | _ => exact mover.elim
  · rw [found] at mover
    cases call with
    | migrate migration => exact advance_closed overlapping mover freer stepped
    | returned ok => cases stepped
    | _ => exact mover.elim

theorem step_overlapping {event : ClusterEvent}
    (overlapping : Overlapping overlap original cluster)
    (unhindered : overlap.Unhindered cluster event)
    (ordered : overlap.Ordered cluster event)
    (stepped : cluster.step blake3 nodes event = some next) :
    Overlapping overlap original next := by
  cases event with
  | tick elapsed =>
      cases stepped
      exact ⟨overlapping.sole, overlapping.stands⟩
  | free key id token =>
      obtain ⟨rfl, rfl⟩ := unhindered
      simp only [step] at stepped
      split at stepped
      · rename_i handle resolved
        unfold spawn at stepped
        split at stepped
        · rename_i new
          cases stepped
          rcases overlapping.stands with ⟨mover, freer⟩ | ⟨mover, freer⟩
          · exact overlapping.free rfl
              (.inl ⟨mover, mover.official.resolved resolved⟩)
          · rw [new] at freer
            exact freer.elim
        · cases stepped
      · cases stepped
        exact overlapping
  | migrate key source handle destination =>
      obtain ⟨rfl, rfl, rfl, rfl⟩ := unhindered
      simp only [step, spawn] at stepped
      split at stepped
      · rename_i new
        cases stepped
        rcases overlapping.stands with ⟨mover, freer⟩ | ⟨mover, freer⟩
        · rw [new] at mover
          refine overlapping.moves ⟨⟨_, rfl, ⟨rfl, rfl, rfl⟩, mover⟩, ?_⟩ freer
          exact fun _ => ⟨rfl, rfl⟩
        · rw [new] at mover
          exact overlapping.move rfl ⟨⟨rfl, rfl, rfl⟩, mover⟩ freer
      · cases stepped
  | advance key fate =>
      obtain ⟨call, found, stepped⟩ := Option.bind_eq_some_iff.mp stepped
      by_cases freer : key = overlap.freer
      · subst freer
        exact advance_freer overlapping found ordered unhindered.1 stepped
      · by_cases mover : key = overlap.mover
        · subst mover
          exact advance_mover overlapping found unhindered ordered stepped
        · rw [overlapping.sole key freer mover] at found
          cases found
  | _ => exact unhindered.elim

theorem Committed.overlapping {content : List UInt8}
    (committed : Committed blake3 overlap.id content cluster)
    (accurate : ∀ entry ∈ cluster.table.lookup overlap.id,
      ∀ block ∈ cluster.finds overlap.id entry.ownerNode,
        block.handle.leaseToken = entry.leaseToken) :
    ∃ original, Overlapping overlap original cluster := by
  obtain ⟨entry, arc, cell, listed, positive, mapped, stored, owned, level,
    longer, ready, bytes, only⟩ := committed.block
  have sound := committed.sound entry.ownerNode
  obtain ⟨_, storedToo, same⟩ := sound.keyed overlap.id arc mapped
  cases stored.symm.trans storedToo
  have found : cluster.finds overlap.id entry.ownerNode = some cell.block := by
    simp [finds, mapped, stored]
  have token := accurate entry listed cell.block found
  obtain ⟨_, checksum⟩ := (sound.intact arc cell stored).1.ready ready
  refine ⟨⟨entry.ownerNode, arc, entry.generation, entry.leaseToken⟩, ?_, ?_⟩
  · intro key _ _
    simp [committed.idle]
  · rw [committed.idle, AList.lookup_empty]
    refine .inl ⟨⟨⟨mapped, cell, stored, same, level, token, ?_⟩, ?_, entry,
      listed, ?_⟩, trivial⟩
    · rw [checksum]
      rfl
    · intro node away
      cases mapped : (cluster.rams node).blocks.lookup overlap.id with
      | none => rfl
      | some other =>
          obtain ⟨copy, stored, own⟩ :=
            (committed.sound node).keyed overlap.id other mapped
          have here := (only node other copy stored own).1
          exact absurd (List.mem_singleton.mpr here) away
    · exact ⟨committed.keyed _ _ listed, rfl, rfl, rfl, positive.ne'⟩

/-- In every run of one free and one migration in which the free removes the
block only where that is clear, no daemon has the block and the leader does
not resolve it once both have returned. -/
theorem freed_block_gone {content : List UInt8} {start final : Cluster}
    {events : List ClusterEvent} {ok : Bool}
    (committed : Committed blake3 overlap.id content start)
    (accurate : ∀ entry ∈ start.table.lookup overlap.id,
      ∀ block ∈ start.finds overlap.id entry.ownerNode,
        block.handle.leaseToken = entry.leaseToken)
    (along : Along (step blake3 nodes) (fun state event =>
      overlap.Unhindered state event ∧ overlap.Ordered state event) start
        events)
    (ran : run (step blake3 nodes) start events = some final)
    (freed : final.calls.lookup overlap.freer = some (.returned true))
    (moved : final.calls.lookup overlap.mover = some (.returned ok)) :
    (∀ node, (final.rams node).blocks.lookup overlap.id = none) ∧
      ∀ token handle, final.resolve nodes overlap.id token ≠ .ok handle := by
  have preserved : ∀ cluster event next,
      (∃ original, Overlapping overlap original cluster) →
      overlap.Unhindered cluster event ∧ overlap.Ordered cluster event →
      cluster.step blake3 nodes event = some next →
      ∃ original, Overlapping overlap original next := by
    intro cluster event next holds allowed stepped
    obtain ⟨original, overlapping⟩ := holds
    exact ⟨original,
      step_overlapping overlapping allowed.1 allowed.2 stepped⟩
  obtain ⟨original, overlapping⟩ := run_invariant_along _ preserved
    (committed.overlapping accurate) along ran
  have stands := overlapping.stands
  rw [freed, moved] at stands
  rcases stands with ⟨_, freer⟩ | ⟨gone, buried⟩
  · exact freer.elim
  · refine ⟨fun node => gone node List.not_mem_nil, ?_⟩
    intro token handle resolved
    obtain ⟨entry, found, _⟩ := bind_ok.mp resolved
    obtain ⟨listed, _, _, leased⟩ := ResidencyTable.resolve_ok found
    obtain ⟨other, listedToo, ended⟩ := buried
    cases listed.symm.trans listedToo
    omega

end Steps

def sampleOverlap : Overlap where
  freer := 0
  mover := 1
  apart := by decide
  source := 2
  handle := abcReady
  destination := 3

/-- The free reaches the copy after it is published, and before the source is
released. -/
def freedLast : List ClusterEvent :=
  .migrate 1 2 abcReady 3 :: advances 1 12 .answered ++
    .free 0 7 5 :: advances 0 4 .answered ++ advances 1 3 .answered

theorem freed_block_gone_abc :
    ∃ final, run (step abcHash sampleNodes) sampleCluster freedLast =
        some final ∧
      (∀ node, (final.rams node).blocks.lookup sampleOverlap.id = none) ∧
      ∀ token handle,
        final.resolve sampleNodes sampleOverlap.id token ≠ .ok handle := by
  obtain ⟨final, ran, seen⟩ := Option.map_eq_some_iff.mp
    (show (run (step abcHash sampleNodes) sampleCluster freedLast).map
        (fun final => (final.calls.lookup 0, final.calls.lookup 1)) =
        some (some (.returned true), some (.returned true)) by decide +kernel)
  obtain ⟨freed, moved⟩ := Prod.ext_iff.mp seen
  refine ⟨final, ran, freed_block_gone
    sampleCluster_committed ?_ ?_ ran freed moved⟩
  · decide
  · decide +kernel

/-- What has become of the two requests and of the block. -/
structure Outcome where
  free : Option Call
  migration : Option Call
  source : Option Arc
  copy : Option Arc
  resolved : Bool
  deriving DecidableEq

def outcome (cluster : Cluster) : Outcome where
  free := cluster.calls.lookup 0
  migration := cluster.calls.lookup 1
  source := (cluster.rams 2).blocks.lookup 7
  copy := (cluster.rams 3).blocks.lookup 7
  resolved := (cluster.resolve sampleNodes 7 5).isOk

/-- The free is resolved before the table names the copy and removes the block
from the source after that. -/
def freedLate : List ClusterEvent :=
  .free 0 7 5 :: .migrate 1 2 abcReady 3 :: advances 1 15 .answered ++
    advances 0 2 .answered

def freedEarly : List ClusterEvent :=
  .free 0 7 5 :: advances 0 2 .answered ++ .migrate 1 2 abcReady 3 ::
    advances 1 1 .answered ++ advances 0 2 .answered ++
    advances 1 12 .answered

def freedBetween : List ClusterEvent :=
  .migrate 1 2 abcReady 3 :: advances 1 10 .answered ++ .free 0 7 5 ::
    advances 0 4 .answered ++ advances 1 1 .answered

/-- A free that is answered leaves a copy that is still resolved, one that
nobody resolves, or the source. -/
theorem freed_block_survives :
    ((run (step abcHash sampleNodes) sampleCluster freedLate).map outcome =
        some ⟨some (.returned true), some (.returned true), none, some 0,
          true⟩ ∧
      (run (step abcHash sampleNodes) sampleCluster freedEarly).map outcome =
        some ⟨some (.returned true), some (.returned true), none, some 0,
          false⟩ ∧
      (run (step abcHash sampleNodes) sampleCluster freedBetween).map outcome =
        some ⟨some (.returned true), some (.returned false), some 0, none,
          false⟩) ∧
    ∀ events ∈ [freedLate, freedEarly, freedBetween],
      Along (step abcHash sampleNodes) sampleOverlap.Unhindered sampleCluster
        events := by
  refine ⟨⟨?_, ?_, ?_⟩, ?_⟩
  · decide +kernel
  · decide +kernel
  · decide +kernel
  · decide +kernel

end Cluster

end TrainPool
