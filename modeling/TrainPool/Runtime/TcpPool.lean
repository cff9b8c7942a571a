import TrainPool.Runtime.TcpServing

namespace TrainPool

namespace TcpData

open Execution Wire

variable {ν : Type}

/-! All connections together: the blocks that their handlers hold, and the
pools. -/

structure Guarded (crates : Crates ν) (connections : List (Connection ν))
    (ram : SocketAddr → LocalRam) : Prop where
  aligned : ∀ (index : Nat) connection,
    connections[index]? = some connection → Aligned crates connection
  holds : ∀ (index : Nat) connection,
    connections[index]? = some connection →
      Holds (ram connection.address) connection
  exclusive : ∀ (left right : Nat) one other arc,
    connections[left]? = some one → connections[right]? = some other →
      one.address = other.address → one.locked = some arc →
        other.locked = some arc → left = right
  keyed : ∀ address, Keyed (ram address)

structure Pools (connections : List (Connection ν))
    (pool : SocketAddr → SocketAddr → List Nat) : Prop where
  small : ∀ daemon address, (pool daemon address).length ≤ 8
  once : ∀ daemon address, (pool daemon address).Nodup
  pooled : ∀ daemon address, ∀ index ∈ pool daemon address,
    ∃ connection, connections[index]? = some connection ∧
      connection.client = .pooled ∧ connection.clientOpen = true ∧
        connection.daemon = daemon ∧ connection.address = address

def Sound (crates : Crates ν) (world : World ν) : Prop :=
  Guarded crates world.connections world.ram ∧
    Pools world.connections world.pool

theorem empty_sound (crates : Crates ν) : Sound crates .empty := by
  have nothing : ∀ (index : Nat) (connection : Connection ν),
      (World.empty : World ν).connections[index]? ≠ some connection := by
    intro index connection found
    rw [World.empty, List.getElem?_nil] at found
    cases found
  refine ⟨⟨?_, ?_, ?_, ?_⟩, ⟨?_, ?_, ?_⟩⟩
  · exact fun index connection found => (nothing index connection found).elim
  · exact fun index connection found => (nothing index connection found).elim
  · exact fun left _ one _ _ found => (nothing left one found).elim
  · exact fun _ => Keyed.empty
  · exact fun _ _ => Nat.zero_le _
  · exact fun _ _ => List.nodup_nil
  · exact fun _ _ _ member => absurd member List.not_mem_nil

section

variable {crates : Crates ν} {connections : List (Connection ν)}
  {ram : SocketAddr → LocalRam} {pool : SocketAddr → SocketAddr → List Nat}
  {index : Nat} {connection next : Connection ν}

theorem Holds.writes {ram : LocalRam} {arc : Arc}
    (holds : Holds ram connection) (locked : connection.locked = some arc) :
    ∃ cell, ram.heap[arc]? = some cell ∧ Cell.Writes cell := by
  unfold Connection.locked at locked
  split at locked
  · rename_i present stage
    cases locked
    have held := holds present
    rw [stage] at held
    obtain ⟨block, receives⟩ := held
    exact ⟨_, receives.stored, _, _, rfl⟩
  · cases locked

theorem getElem?_replaced (there : connections[index]? = some connection)
    (other : Nat) : (connections.set index next)[other]? =
      if index = other then some next else connections[other]? := by
  obtain ⟨inside, _⟩ := List.getElem?_eq_some_iff.mp there
  rw [List.getElem?_set, if_pos inside]

theorem Guarded.replaced {after : LocalRam}
    (guarded : Guarded crates connections ram)
    (there : connections[index]? = some connection)
    (address : next.address = connection.address)
    (aligned : Aligned crates next) (holds : Holds after next)
    (leaves : Leaves connection.locked (ram connection.address) after)
    (keyed : Keyed after)
    (taken : ∀ arc, next.locked = some arc →
      connection.locked = some arc ∨
        ∃ cell, (ram connection.address).heap[arc]? = some cell ∧
          ¬ Cell.Writes cell) :
    Guarded crates (connections.set index next)
      (Function.update ram connection.address after) := by
  -- What the connection takes is held by no other.
  have alone : ∀ (other : Nat) found arc, other ≠ index →
      connections[other]? = some found →
        found.address = connection.address → next.locked = some arc →
          found.locked ≠ some arc := by
    intro other found arc apart stored same mine theirs
    rcases taken arc mine with before | ⟨cell, cellAt, idle⟩
    · exact apart (guarded.exclusive other index found connection arc stored
        there same theirs before)
    · obtain ⟨held, heldAt, writes⟩ :=
        (guarded.holds other found stored).writes theirs
      rw [same, cellAt] at heldAt
      cases heldAt
      exact idle writes
  refine ⟨?_, ?_, ?_, ?_⟩
  · intro other found stored
    rw [getElem?_replaced there] at stored
    split at stored
    · cases stored
      exact aligned
    · exact guarded.aligned other found stored
  · intro other found stored
    rw [getElem?_replaced there] at stored
    split at stored
    · cases stored
      rw [address, Function.update_self]
      exact holds
    · rename_i apart
      have before := guarded.holds other found stored
      by_cases same : found.address = connection.address
      · rw [same, Function.update_self]
        rw [same] at before
        refine before.kept leaves fun arc theirs mine => apart ?_
        exact guarded.exclusive index other connection found arc there stored
          same.symm mine theirs
      · rw [Function.update_of_ne same]
        exact before
  · intro left right one other arc oneAt otherAt same mine theirs
    rw [getElem?_replaced there] at oneAt otherAt
    split at oneAt
    · rename_i first
      split at otherAt
      · rename_i second
        exact first.symm.trans second
      · rename_i apart
        cases oneAt
        exact absurd theirs (alone right other arc (Ne.symm apart) otherAt
          (same.symm.trans address) mine)
    · rename_i apart
      split at otherAt
      · cases otherAt
        exact absurd mine (alone left one arc (Ne.symm apart) oneAt
          (same.trans address) theirs)
      · exact guarded.exclusive left right one other arc oneAt otherAt same
          mine theirs
  · intro other
    by_cases same : other = connection.address
    · rw [same, Function.update_self]
      exact keyed
    · rw [Function.update_of_ne same]
      exact guarded.keyed other

theorem Guarded.asked (guarded : Guarded crates connections ram)
    (there : connections[index]? = some connection)
    (aligned : Aligned crates next)
    (address : next.address = connection.address)
    (server : next.server = connection.server)
    (serverOpen : next.serverOpen = connection.serverOpen) :
    Guarded crates (connections.set index next) ram := by
  have locked : next.locked = connection.locked := by
    unfold Connection.locked
    rw [server, serverOpen]
  have holds : Holds (ram connection.address) next := by
    have before := guarded.holds index connection there
    unfold Holds at before ⊢
    rw [server, serverOpen]
    exact before
  have same := guarded.replaced there address aligned holds (.refl _ _)
    (guarded.keyed connection.address) fun arc mine => .inl (locked ▸ mine)
  rwa [Function.update_eq_self] at same

theorem Guarded.foreign {address : SocketAddr} {after : LocalRam}
    (guarded : Guarded crates connections ram)
    (leaves : Leaves none (ram address) after) (keyed : Keyed after) :
    Guarded crates connections (Function.update ram address after) where
  aligned := guarded.aligned
  holds other found stored := by
    have before := guarded.holds other found stored
    by_cases same : found.address = address
    · rw [same, Function.update_self]
      rw [same] at before
      exact before.kept leaves fun _ _ => nofun
    · rw [Function.update_of_ne same]
      exact before
  exclusive := guarded.exclusive
  keyed other := by
    by_cases same : other = address
    · rw [same, Function.update_self]
      exact keyed
    · rw [Function.update_of_ne same]
      exact guarded.keyed other

theorem getElem?_appended {found : Connection ν}
    (stored : (connections ++ [next])[index]? = some found) :
    connections[index]? = some found ∨ found = next := by
  by_cases inside : index < connections.length
  · rw [List.getElem?_append_left inside] at stored
    exact .inl stored
  · rw [List.getElem?_append_right (Nat.le_of_not_lt inside)] at stored
    exact .inr (List.mem_singleton.mp (List.mem_of_getElem? stored))

theorem Guarded.appended (guarded : Guarded crates connections ram)
    (aligned : Aligned crates next) (free : next.locked = none)
    (holds : Holds (ram next.address) next) :
    Guarded crates (connections ++ [next]) ram where
  aligned other found stored := by
    rcases getElem?_appended stored with old | rfl
    · exact guarded.aligned other found old
    · exact aligned
  holds other found stored := by
    rcases getElem?_appended stored with old | rfl
    · exact guarded.holds other found old
    · exact holds
  exclusive left right one other arc oneAt otherAt same mine theirs := by
    rcases getElem?_appended oneAt with old | rfl
    · rcases getElem?_appended otherAt with older | rfl
      · exact guarded.exclusive left right one other arc old older same mine
          theirs
      · rw [free] at theirs
        cases theirs
    · rw [free] at mine
      cases mine
  keyed := guarded.keyed

theorem Pools.replaced (pools : Pools connections pool)
    (there : connections[index]? = some connection)
    (kept : ∀ daemon address, index ∈ pool daemon address →
      next.client = .pooled ∧ next.clientOpen = true ∧
        next.daemon = daemon ∧ next.address = address) :
    Pools (connections.set index next) pool where
  small := pools.small
  once := pools.once
  pooled daemon address other member := by
    obtain ⟨found, stored, rest⟩ := pools.pooled daemon address other member
    rw [getElem?_replaced there]
    split
    · rename_i same
      subst same
      exact ⟨next, rfl, kept daemon address member⟩
    · exact ⟨found, stored, rest⟩

theorem Pools.used (pools : Pools connections pool)
    (there : connections[index]? = some connection)
    (unpooled : connection.client ≠ .pooled)
    (daemon address : SocketAddr) : index ∉ pool daemon address := by
  intro member
  obtain ⟨found, stored, stage, _⟩ :=
    pools.pooled daemon address index member
  cases there.symm.trans stored
  exact unpooled stage

theorem Pools.served (pools : Pools connections pool)
    (there : connections[index]? = some connection)
    (client : next.client = connection.client)
    (clientOpen : next.clientOpen = connection.clientOpen)
    (daemon : next.daemon = connection.daemon)
    (address : next.address = connection.address) :
    Pools (connections.set index next) pool := by
  refine pools.replaced there fun mine at_ member => ?_
  obtain ⟨found, stored, stage, present, same, met⟩ :=
    pools.pooled mine at_ index member
  cases there.symm.trans stored
  exact ⟨client.trans stage, clientOpen.trans present, daemon.trans same,
    address.trans met⟩

theorem Pools.appended (pools : Pools connections pool) :
    Pools (connections ++ [next]) pool where
  small := pools.small
  once := pools.once
  pooled daemon address other member := by
    obtain ⟨found, stored, rest⟩ := pools.pooled daemon address other member
    obtain ⟨inside, _⟩ := List.getElem?_eq_some_iff.mp stored
    refine ⟨found, ?_, rest⟩
    rw [List.getElem?_append_left inside]
    exact stored

theorem pool_swapped (pool : SocketAddr → SocketAddr → List Nat)
    (daemon address : SocketAddr) (indices : List Nat)
    (mine at_ : SocketAddr) :
    Function.update pool daemon
        (Function.update (pool daemon) address indices) mine at_ =
      if mine = daemon ∧ at_ = address then indices else pool mine at_ := by
  by_cases same : mine = daemon
  · subst same
    rw [Function.update_self]
    by_cases met : at_ = address
    · subst met
      simp
    · simp [met]
  · rw [Function.update_of_ne same, if_neg (fun both => same both.1)]

theorem Pools.swapped {daemon address : SocketAddr} {indices : List Nat}
    (pools : Pools connections pool) (small : indices.length ≤ 8)
    (once : indices.Nodup)
    (pooled : ∀ other ∈ indices, ∃ found,
      connections[other]? = some found ∧ found.client = .pooled ∧
        found.clientOpen = true ∧ found.daemon = daemon ∧
          found.address = address) :
    Pools connections (Function.update pool daemon
      (Function.update (pool daemon) address indices)) where
  small mine at_ := by
    rw [pool_swapped]
    split
    · exact small
    · exact pools.small mine at_
  once mine at_ := by
    rw [pool_swapped]
    split
    · exact once
    · exact pools.once mine at_
  pooled mine at_ other member := by
    rw [pool_swapped] at member
    split at member
    · rename_i same
      obtain ⟨rfl, rfl⟩ := same
      exact pooled other member
    · exact pools.pooled mine at_ other member

end

end TcpData

end TrainPool
