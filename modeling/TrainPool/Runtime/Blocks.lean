import TrainPool.Runtime.Daemon

namespace TrainPool

open Execution

/-! The integrity of the blocks of a daemon, over all its requests and UDP
write sessions. -/

section

variable {config : Config} {blake3 : List UInt8 → Digest} {self : Identity}

namespace Handler

variable {source : SocketAddr} {now instant : Nat} {choice : Choice}
  {shared next : Shared} {outcome : Outcome} {handler : Handler}

theorem run_ram
    (ran : handler.run config blake3 source now instant choice shared =
      some (next, outcome)) :
    next.ram = shared.ram ∨
      ∃ session arc block written,
        handler.stage = .finWrite session arc ∧
          shared.ram.lock? arc = some block ∧
          block.finishUdp now handler.packet.leaseToken session.generation
            session.baseOffset session.buffer handler.packet.transferId =
              .ok written ∧
          next.ram = shared.ram.put arc ⟨written, none⟩ ∧
          next.udp = shared.udp ∧ outcome = .next .finInsert := by
  obtain ⟨packet, rest, stage⟩ := handler
  cases stage with
  | finWrite session arc =>
      obtain ⟨block, free, ran⟩ := Option.bind_eq_some_iff.mp ran
      split at ran
      · rename_i written finished
        cases ran
        exact .inr ⟨session, arc, block, written, rfl, free, finished,
          rfl, rfl, rfl⟩
      · cases ran
        exact .inl rfl
      · cases ran
        exact .inl rfl
  | readLock arc =>
      obtain ⟨block, _, ran⟩ := Option.bind_eq_some_iff.mp ran
      left
      split at ran
      · cases ran; rfl
      · cases ran; rfl
      · split at ran <;> cases ran <;> rfl
  | startLock arc =>
      obtain ⟨block, _, ran⟩ := Option.bind_eq_some_iff.mp ran
      cases ran
      exact .inl rfl
  | finEvict =>
      left
      simp only [run, runFinEvict] at ran
      split at ran
      · obtain ⟨oldest, _, ran⟩ := Option.bind_eq_some_iff.mp ran
        split at ran <;> cases ran
        rfl
      · cases ran
        rfl
  | dataSession =>
      left
      simp only [run, runDataSession] at ran
      split at ran <;> cases ran <;> rfl
  | batchSession =>
      left
      simp only [run, runBatchSession] at ran
      split at ran <;> cases ran <;> rfl
  | finSession =>
      left
      simp only [run, runFinSession] at ran
      split at ran
      · cases ran; rfl
      · split at ran
        · cases ran; rfl
        · split at ran
          · cases ran; rfl
          · split at ran <;> cases ran <;> rfl
  | _ =>
      cases ran
      exact .inl rfl

theorem run_finWrite {session : IncomingSession} {arc : Arc}
    (stage : handler.stage = .finWrite session arc)
    (ran : handler.run config blake3 source now instant choice shared =
      some (next, .next .finInsert)) :
    ∃ block written, shared.ram.lock? arc = some block ∧
      block.finishUdp now handler.packet.leaseToken session.generation
        session.baseOffset session.buffer handler.packet.transferId =
          .ok written ∧
      next.ram = shared.ram.put arc ⟨written, none⟩ := by
  obtain ⟨packet, rest, here⟩ := handler
  cases stage
  obtain ⟨block, free, ran⟩ := Option.bind_eq_some_iff.mp ran
  split at ran
  · rename_i written finished
    cases ran
    exact ⟨block, written, free, finished, rfl⟩
  · cases ran
  · cases ran

theorem run_change
    (ran : handler.run config blake3 source now instant choice shared =
      some (next, outcome)) :
    LocalRam.Change blake3 shared.ram next.ram := by
  rcases run_ram ran with same |
      ⟨session, arc, block, written, _, free, finished, same, _, _⟩
  · rw [same]
    exact .same
  · rw [same]
    exact .cell arc _ _ (LocalRam.lock?_eq_some.mp free) fun _ =>
      ⟨RamBlock.finishUdp_change finished, trivial⟩

end Handler

namespace Daemon

theorem step_change {daemon next : Daemon} {event : DaemonEvent}
    (stepped : daemon.step config blake3 self event = some next) :
    LocalRam.Change blake3 daemon.shared.ram next.shared.ram := by
  cases event with
  | receive source datagrams =>
      cases stepped
      exact .same
  | handle index choice =>
      obtain ⟨_, _, _, _, _, _, ran, rfl⟩ := handle_eq_some.mp stepped
      exact Handler.run_change ran
  | request event =>
      obtain ⟨ram, requested, done⟩ := Option.bind_eq_some_iff.mp stepped
      cases done
      exact LocalRam.step_change requested
  | responded response =>
      simp only [step] at stepped
      split at stepped <;> cases stepped
      exact .same
  | clock now instant =>
      simp only [step] at stepped
      split at stepped <;> cases stepped
      exact .same

theorem run_sound {daemon final : Daemon} {events : List DaemonEvent}
    (sound : daemon.shared.ram.Sound blake3)
    (ran : run (step config blake3 self) daemon events = some final) :
    final.shared.ram.Sound blake3 :=
  run_invariant (fun daemon => daemon.shared.ram.Sound blake3)
    (fun _ _ _ sound stepped => (step_change stepped).sound sound) sound ran

theorem run_grows {daemon final : Daemon} {events : List DaemonEvent}
    (sound : daemon.shared.ram.Sound blake3)
    (ran : run (step config blake3 self) daemon events = some final) :
    daemon.shared.ram.Grows final.shared.ram :=
  run_relates (fun daemon => daemon.shared.ram.Sound blake3)
    (fun earlier later => earlier.shared.ram.Grows later.shared.ram)
    (fun _ => LocalRam.Grows.refl _)
    (fun _ _ _ => LocalRam.Grows.trans)
    (fun _ _ _ sound stepped => (step_change stepped).sound sound)
    (fun _ _ _ sound stepped => (step_change stepped).grows sound) sound ran

/-- Every block of a daemon is intact at every moment of every run, and what it
holds up to `written`, and all of it once it is committed, never changes. -/
theorem committed_blocks_intact (front back : List DaemonEvent)
    {middle final : Daemon}
    (reached : run (step config blake3 self) empty front = some middle)
    (continued : run (step config blake3 self) middle back = some final)
    {arc : Arc} {cell : Cell}
    (stored : middle.shared.ram.heap[arc]? = some cell) :
    cell.block.Intact blake3 ∧
      ∃ later, final.shared.ram.heap[arc]? = some later ∧
        cell.block.Grows later.block := by
  have sound := run_sound LocalRam.empty_sound reached
  exact ⟨(sound.intact arc cell stored).1,
    run_grows sound continued arc cell stored⟩

def abcUpload : List DaemonEvent :=
  [.request (.allocateLocal abcHandle true true),
    .request (.writeLocal 0 abcHandle 9 0 [97, 98, 99]),
    .request (.commit 0 abcHandle
      (Bytes.toHex (abcHash [97, 98, 99]).toList))]

def abcReuse : List DaemonEvent :=
  [.request (.writeLocal 0 abcHandle 9 0 [100]),
    .request (.renew 0 abcHandle)]

theorem committed_blocks_intact_abc :
    ∃ middle final cell,
      run (step {} abcHash ⟨2, 20⟩) empty abcUpload = some middle ∧
        run (step {} abcHash ⟨2, 20⟩) middle abcReuse = some final ∧
        middle.shared.ram.heap[0]? = some cell ∧
        cell.block.handle.state = .ready ∧
        cell.block.Intact abcHash ∧
        ∃ later, final.shared.ram.heap[0]? = some later ∧
          cell.block.Grows later.block :=
  ⟨_, _, _, rfl, rfl, rfl, rfl,
    @committed_blocks_intact {} abcHash ⟨2, 20⟩ abcUpload abcReuse _ _
      rfl rfl 0 _ rfl⟩

end Daemon

end

end TrainPool
