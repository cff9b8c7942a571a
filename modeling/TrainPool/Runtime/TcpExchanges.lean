import TrainPool.Runtime.TcpPool

namespace TrainPool

namespace TcpData

open Execution Wire

variable {ν : Type}

/-! What any run of the connections keeps. -/

section

variable {crates : Crates ν} {settings : SocketAddr → Settings}
  {world next : World ν}

theorem connect_sound {daemon address : SocketAddr} {nonce : Uuid}
    (sound : Sound crates world)
    (stepped : world.step crates settings (.connect daemon address nonce) =
      some next) : Sound crates next := by
  simp only [World.step] at stepped
  split at stepped
  · rename_i bytes _ written
    cases stepped
    obtain ⟨guarded, pools⟩ := sound
    refine ⟨guarded.appended ?_ rfl fun _ => trivial, pools.appended⟩
    exact ⟨[], bytes, .greeted nonce bytes written,
      Frames.carries_same true [], fun _ => Frames.carries_same true bytes⟩
  · cases stepped

theorem acquire_sound {daemon address : SocketAddr}
    (sound : Sound crates world)
    (stepped : world.step crates settings (.acquire daemon address) =
      some next) : Sound crates next := by
  obtain ⟨index, last, stepped⟩ := Option.bind_eq_some_iff.mp stepped
  obtain ⟨connection, there, stepped⟩ := Option.bind_eq_some_iff.mp stepped
  cases stepped
  obtain ⟨guarded, pools⟩ := sound
  have whole : (world.pool daemon address).dropLast ++ [index] =
      world.pool daemon address := List.dropLast_append_getLast? index last
  have member : index ∈ world.pool daemon address :=
    List.mem_of_getLast? last
  obtain ⟨found, stored, stage, present, mine, met⟩ :=
    pools.pooled daemon address index member
  cases there.symm.trans stored
  have once := pools.once daemon address
  rw [← whole, List.nodup_append] at once
  have popped : Pools world.connections (Function.update world.pool daemon
      (Function.update (world.pool daemon) address
        (world.pool daemon address).dropLast)) := by
    refine pools.swapped ?_ once.1 fun other inside =>
      pools.pooled daemon address other (List.dropLast_subset _ inside)
    rw [List.length_dropLast]
    exact (Nat.sub_le _ _).trans (pools.small daemon address)
  refine ⟨guarded.asked there ?_ rfl rfl rfl, popped.replaced there ?_⟩
  · obtain ⟨up, down, script, carries, heard⟩ :=
      guarded.aligned index connection there
    obtain ⟨daemon, address, client, server, clientOpen, serverOpen, toServer,
      toClient, asked, served⟩ := connection
    cases stage
    dsimp only at script
    cases script
    exact ⟨[], [], .held, carries, heard⟩
  · intro other at_ listed
    exfalso
    rw [pool_swapped] at listed
    split at listed
    · exact once.2.2 index listed index List.mem_cons_self rfl
    · rename_i apart
      obtain ⟨found, stored, _, _, same, met'⟩ :=
        pools.pooled other at_ index listed
      cases there.symm.trans stored
      exact apart ⟨same.symm.trans mine, met'.symm.trans met⟩

theorem client_sound (lawful : crates.Lawful) {index : Nat}
    {event : ClientEvent} (sound : Sound crates world)
    (stepped : world.step crates settings (.client index event) =
      some next) : Sound crates next := by
  obtain ⟨connection, there, stepped⟩ := Option.bind_eq_some_iff.mp stepped
  split at stepped
  · rename_i present
    obtain ⟨changed, moved, stepped⟩ := Option.bind_eq_some_iff.mp stepped
    cases stepped
    obtain ⟨guarded, pools⟩ := sound
    have aligned := clientStep_aligned lawful
      (guarded.aligned index connection there) present moved
    have asks := clientStep_asks moved
    refine ⟨guarded.asked there aligned asks.address asks.server
      asks.serverOpen, pools.replaced there ?_⟩
    intro mine at_ member
    exact absurd member (pools.used there asks.unpooled mine at_)
  · cases stepped

theorem release_sound {index : Nat} (sound : Sound crates world)
    (stepped : world.step crates settings (.release index) = some next) :
    Sound crates next := by
  obtain ⟨connection, there, stepped⟩ := Option.bind_eq_some_iff.mp stepped
  obtain ⟨guarded, pools⟩ := sound
  have aligned := guarded.aligned index connection there
  obtain ⟨daemon, address, client, server, clientOpen, serverOpen, toServer,
    toClient, asked, served⟩ := connection
  dsimp only at stepped
  split at stepped
  · have unpooled : ∀ mine at_, index ∉ world.pool mine at_ :=
      pools.used there nofun
    split at stepped
    · rename_i room
      cases stepped
      have pooled : Aligned crates ⟨daemon, address, .pooled, server, true,
          serverOpen, toServer, toClient, asked, served⟩ := by
        obtain ⟨up, down, script, carries, heard⟩ := aligned
        dsimp only at script
        cases script
        exact ⟨[], [], .pooled, carries, heard⟩
      refine ⟨guarded.asked there pooled rfl rfl rfl, ?_⟩
      have changed : Pools (world.connections.set index ⟨daemon, address,
          .pooled, server, true, serverOpen, toServer, toClient, asked,
          served⟩) world.pool :=
        pools.replaced there fun mine at_ member =>
          absurd member (unpooled mine at_)
      refine changed.swapped ?_ ?_ ?_
      · rw [List.length_append]
        exact room
      · rw [List.nodup_append]
        refine ⟨pools.once daemon address, List.nodup_singleton index, ?_⟩
        intro other inside last single
        cases List.mem_singleton.mp single
        intro same
        exact unpooled daemon address (same ▸ inside)
      · intro other member
        rcases List.mem_append.mp member with old | new
        · exact changed.pooled daemon address other old
        · cases List.mem_singleton.mp new
          exact ⟨_, (getElem?_replaced there index).trans (if_pos rfl), rfl,
            rfl, rfl, rfl⟩
    · cases stepped
      exact ⟨guarded.asked there (aligned.fail toClient) rfl rfl rfl,
        pools.replaced there fun mine at_ member =>
          absurd member (unpooled mine at_)⟩
  · cases stepped

theorem drop_sound {index kept : Nat} (sound : Sound crates world)
    (stepped : world.step crates settings (.drop index kept) = some next) :
    Sound crates next := by
  obtain ⟨connection, there, stepped⟩ := Option.bind_eq_some_iff.mp stepped
  obtain ⟨guarded, pools⟩ := sound
  split at stepped
  · cases stepped
  · rename_i unpooled
    cases stepped
    obtain ⟨up, down, script, carries, _⟩ :=
      guarded.aligned index connection there
    refine ⟨guarded.asked there ⟨up, down, script, carries.cut kept, nofun⟩
      rfl rfl rfl, pools.replaced there ?_⟩
    intro mine at_ member
    refine absurd member (pools.used there ?_ mine at_)
    intro stage
    exact unpooled stage
  · cases stepped

theorem server_sound (lawful : crates.Lawful) {index : Nat}
    {event : ServerEvent} (sound : Sound crates world)
    (stepped : world.step crates settings (.server index event) =
      some next) : Sound crates next := by
  obtain ⟨connection, there, stepped⟩ := Option.bind_eq_some_iff.mp stepped
  split at stepped
  · rename_i present
    obtain ⟨⟨changed, ram⟩, moved, stepped⟩ :=
      Option.bind_eq_some_iff.mp stepped
    cases stepped
    obtain ⟨guarded, pools⟩ := sound
    have serves := serverStep_serves lawful
      (guarded.aligned index connection there)
      (guarded.holds index connection there)
      (guarded.keyed connection.address) present moved
    exact ⟨guarded.replaced there serves.address serves.aligned serves.holds
      serves.leaves serves.keyed serves.taken,
      pools.served there serves.client serves.clientOpen serves.daemon
        serves.address⟩
  · cases stepped

theorem unlocked_leaves {connection : Connection ν} {ram : LocalRam}
    (present : connection.serverOpen = true) (keyed : Keyed ram) :
    Leaves connection.locked ram (connection.unlocked ram) ∧
      Keyed (connection.unlocked ram) := by
  unfold Connection.unlocked
  split
  · rename_i handle chunk arc got stage
    have mine : connection.locked = some arc := by
      simp [Connection.locked, present, stage]
    split
    · rename_i cell stored
      exact ⟨put_leaves stored rfl (.inl mine), put_keyed stored rfl keyed⟩
    · exact ⟨.refl _ _, keyed⟩
  · exact ⟨.refl _ _, keyed⟩

theorem close_sound {index kept : Nat} (sound : Sound crates world)
    (stepped : world.step crates settings (.close index kept) = some next) :
    Sound crates next := by
  obtain ⟨connection, there, stepped⟩ := Option.bind_eq_some_iff.mp stepped
  split at stepped
  · rename_i present
    cases stepped
    obtain ⟨guarded, pools⟩ := sound
    obtain ⟨up, down, script, carries, heard⟩ :=
      guarded.aligned index connection there
    obtain ⟨leaves, keyed⟩ :=
      unlocked_leaves present (guarded.keyed connection.address)
    refine ⟨guarded.replaced there rfl ⟨up, down, script, carries,
      fun alive => (heard alive).cut kept⟩ nofun leaves keyed nofun,
      pools.served there rfl rfl rfl rfl⟩
  · cases stepped

theorem ram_sound {address : SocketAddr} {now : Nat} {event : RamEvent}
    (sound : Sound crates world)
    (stepped : world.step crates settings (.ram address now event) =
      some next) : Sound crates next := by
  simp only [World.step] at stepped
  split at stepped
  · rename_i others
    obtain ⟨ram, moved, stepped⟩ := Option.bind_eq_some_iff.mp stepped
    cases stepped
    obtain ⟨guarded, pools⟩ := sound
    obtain ⟨leaves, keyed⟩ :=
      foreign_leaves others moved (guarded.keyed address)
    exact ⟨guarded.foreign leaves keyed, pools⟩
  · cases stepped

theorem step_sound (lawful : crates.Lawful) {event : TcpEvent}
    (sound : Sound crates world)
    (stepped : world.step crates settings event = some next) :
    Sound crates next := by
  cases event with
  | connect => exact connect_sound sound stepped
  | acquire => exact acquire_sound sound stepped
  | client => exact client_sound lawful sound stepped
  | release => exact release_sound sound stepped
  | drop => exact drop_sound sound stepped
  | server => exact server_sound lawful sound stepped
  | close => exact close_sound sound stepped
  | ram => exact ram_sound sound stepped

theorem run_sound (lawful : crates.Lawful) {events : List TcpEvent}
    {final : World ν}
    (ran : run (World.step crates settings) .empty events = some final) :
    Sound crates final :=
  run_invariant (Sound crates) (fun _ _ _ sound => step_sound lawful sound)
    (empty_sound crates) ran

end

end TcpData

end TrainPool
