import TrainPool.Torch.Admission
import TrainPool.Torch.Capacity

namespace TrainPool

open Failing TensorStore

/-! The admission of all groups before a forward pass, which cuts the ones that
need too much. -/

/-- What `_preflight` reads of a runtime and of its inputs.  A budget of `None`
is zero.  Running a node or reading the output on the meta device may raise.
The constructor configures the store of a CUDA runtime for its own budget. -/
structure Preflight (γ σ κ : Type) where
  graph : FxGraph γ σ
  modules : Modules
  sizes : Sizes
  nodeFault : NodeName → Option String
  outputFault : Option String
  budget : Int
  cuda : Bool
  store : StoreSettings κ
  configured : cuda = true → store.gpuBudgetBytes = budget.toNat

namespace Preflight

variable {γ σ κ : Type} (runtime : Preflight γ σ κ)

def estimate (chunk : List FxNode) : Nat :=
  runtime.graph.estimate runtime.modules runtime.sizes chunk

def exhausted (chunk : List FxNode) (required : Nat) (available : Int) :
    StoreFailure :=
  .error s!"TRAINPOOL_UNSUPPORTED_WORKING_SET: {chunk.map FxNode.name}: phase peak {required} > {available}"

/-- The bytes that the driver reports free, again once cached blocks have been
returned where they are too few. -/
def freeBytes (required : Nat) : Storing Nat := do
  let first ← reading
  if first.driverFree < required then
    let second ← reading
    pure second.driverFree
  else
    pure first.driverFree

/-- What a group may take: on CUDA no more than is free or could be evicted. -/
def available (required : Nat) : Storing Int := do
  if runtime.cuda then
    let free ← freeBytes required
    let room := free + (← get).store.residentBytes
    pure (min (if runtime.budget ≠ 0 then runtime.budget else room) room)
  else
    pure runtime.budget

/-- `_check_budget`: nothing available sets no limit. -/
def checkBudget [LinearOrder κ] (chunk : List FxNode) : Storing Unit := do
  let required := runtime.estimate chunk
  let available ← runtime.available required
  if available ≠ 0 ∧ available < required then
    throw (exhausted chunk required available)
  else if runtime.cuda then
    ensureCudaCapacity runtime.store required [] none
  else
    pure ()

def unsupportedMetadata (chunk : List FxNode) (message : String) :
    StoreFailure :=
  .error s!"TRAINPOOL_UNSUPPORTED_WORKING_SET: metadata at {chunk.map FxNode.name}: {message}"

/-- One pass over the groups: the position of the first that exceeds the
budget. -/
def admitGroups (index : Nat) : List (List FxNode) →
    Except StoreFailure (Option Nat)
  | [] =>
      match runtime.outputFault with
      | some message => .error (.error message)
      | none => .ok none
  | chunk :: rest =>
      match chunk.findSome? fun node => runtime.nodeFault node.name with
      | some message => .error (unsupportedMetadata chunk message)
      | none =>
          if runtime.budget ≠ 0 ∧ runtime.budget < runtime.estimate chunk then
            .ok (some index)
          else
            admitGroups (index + 1) rest

/-- What `_preflight` leaves behind. -/
structure Outcome where
  result : Except StoreFailure Unit
  chunks : List (List FxNode)
  world : World

/-- `_preflight`: after a cut, it starts again. -/
def preflight [LinearOrder κ] : Nat → List (List FxNode) → World → Outcome
  | 0, chunks, world => ⟨.error .unfinished, chunks, world⟩
  | rounds + 1, chunks, world =>
      match runtime.admitGroups 0 chunks with
      | .error failure => ⟨.error failure, chunks, world⟩
      | .ok none => ⟨.ok (), chunks, world⟩
      | .ok (some index) =>
          let group := (chunks[index]?).getD []
          let checked :=
            if group.length = 1 then (runtime.checkBudget group).run world
            else (.ok (), world)
          match checked.1 with
          | .error failure => ⟨.error failure, chunks, checked.2⟩
          | .ok () =>
              preflight rounds (FxGraph.splitChunk chunks index) checked.2

/-- A group may not run within the budget. -/
def Exceeds (chunk : List FxNode) : Prop :=
  runtime.budget ≠ 0 ∧ runtime.budget < runtime.estimate chunk

/-- The metadata run raises. -/
def Faulty (failure : StoreFailure) : Prop :=
  (∃ chunk message node, node ∈ chunk ∧ runtime.nodeFault node.name = some message ∧
    failure = unsupportedMetadata chunk message) ∨
  ∃ message, runtime.outputFault = some message ∧ failure = .error message

variable {runtime}

theorem safe_le (settings : StoreSettings κ) (reading : CudaReading) :
    safeAllocatableNow settings reading ≤ settings.gpuBudgetBytes := by
  unfold safeAllocatableNow
  omega

theorem evictUntilFits_fits [LinearOrder κ] (settings : StoreSettings κ)
    (bytesNeeded additional : Int) (protect : List Handle)
    (context : Option String) (rounds : Nat) (world : World) :
    (evictUntilFits settings bytesNeeded additional protect context
      rounds).Leads world (Ending
        (fun snapshot _ => additional ≤ safeAllocatableNow settings snapshot)
        fun _ _ => True) := by
  induction rounds generalizing world with
  | zero => exact leads_throw.mpr trivial
  | succ rounds ih =>
      have reads : reading.Leads world (Ending (fun _ _ => True)
          fun _ _ => True) := trivial
      apply reads.bind
      · intro snapshot next _
        simp only
        split
        · rename_i fits
          exact leads_pure.mpr fits
        · apply leads_get_bind.mpr
          split
          · exact leads_throw.mpr trivial
          · have spills : (each (fun candidate =>
                spill settings candidate.id) (selectEvictions settings
                  (next.store.residentCandidates protect)
                  (additional - safeAllocatableNow settings snapshot)
                  next.store.accessIndex)).Leads next fun _ _ => True := trivial
            apply spills.bind
            · intro _ later _
              exact ih later
            · intro _ _ _
              trivial
      · intro _ _ _
        trivial

theorem ensureCudaCapacity_raises [LinearOrder κ]
    (settings : StoreSettings κ) {world : World} {required : Nat} (beyond : settings.gpuBudgetBytes < required)
    (on : world.store.gpuDevice = true) :
    (ensureCudaCapacity settings required [] none).Leads world
      (Ending (fun _ _ => False) fun failure _ => failure ≠ .unfinished) := by
  have finishes : (ensureCudaCapacity settings required [] none).Leads world _ :=
    ensureCudaCapacity_finishes _ _ _ world
  have refuses : (ensureCudaCapacity settings required [] none).Leads world
      (Ending (fun _ _ => False) fun _ _ => True) := by
    rw [ensureCudaCapacity_eq]
    have fits : (cudaCapacity settings required [] none).Leads world
        (Ending (fun _ _ => False) fun _ _ => True) := by
      apply leads_get_bind.mpr
      simp only [on, if_true]
      apply (evictUntilFits_fits settings required _ [] none _ world).bind
      · intro snapshot next fits
        have none_protected : protectedResident world.store [] = 0 := rfl
        have room := safe_le settings snapshot
        change max 0 ((required : Int) - protectedResident world.store []) ≤
          safeAllocatableNow settings snapshot at fits
        rw [none_protected] at fits
        omega
      · intro _ _ _
        trivial
    apply fits.bind
    · intro _ _ impossible
      exact impossible.elim
    · intro _ _ _
      trivial
  apply (Leads.and finishes refuses).mono
  intro result next given
  cases result with
  | ok value => exact given.2
  | error failure =>
      intro same
      exact given.1 (by rw [same])

theorem freeBytes_quiet (required : Nat) (world : World) :
    (freeBytes required).Leads world (Ending
      (fun _ next => next.store = world.store) fun _ _ => False) := by
  have reads : ∀ world : World, reading.Leads world (Ending
      (fun _ next => next.store = world.store) fun _ _ => False) :=
    fun _ => rfl
  apply (reads world).bind
  · intro first next same
    split
    · apply (reads next).bind
      · intro second later kept
        exact leads_pure.mpr (kept.trans same)
      · intro _ _ impossible
        exact impossible
    · exact leads_pure.mpr same
  · intro _ _ impossible
    exact impossible

theorem available_le (required : Nat) (world : World)
    (limited : runtime.budget ≠ 0) :
    (runtime.available required).Leads world (Ending
      (fun available next => next.store = world.store ∧
        available ≤ runtime.budget ∧
        (runtime.cuda = false → available = runtime.budget))
      fun _ _ => False) := by
  unfold available
  cases kind : runtime.cuda with
  | false => exact ⟨rfl, le_rfl, fun _ => rfl⟩
  | true =>
      simp only [if_true]
      apply (freeBytes_quiet required world).bind
      · intro free next kept
        apply leads_get_bind.mpr
        apply leads_pure.mpr
        rw [if_pos limited]
        exact ⟨kept, min_le_left _ _, by intros; contradiction⟩
      · intro _ _ impossible
        exact impossible

theorem checkBudget_raises [LinearOrder κ] {chunk : List FxNode} {world : World}
    (ready : runtime.cuda = true → world.store.gpuDevice = true)
    (exceeds : runtime.Exceeds chunk) :
    (runtime.checkBudget chunk).Leads world
      (Ending (fun _ _ => False) fun failure _ => failure ≠ .unfinished) := by
  obtain ⟨limited, more⟩ := exceeds
  apply (available_le (runtime.estimate chunk) world limited).bind
  · intro available next given
    obtain ⟨same, below, plain⟩ := given
    split
    · exact leads_throw.mpr (by intro same; cases same)
    · rename_i passes
      -- Nothing is available at all, so the store is asked to make room.
      have nothing : available = 0 := by
        by_contra some_room
        exact passes ⟨some_room, Int.lt_of_le_of_lt below more⟩
      cases kind : runtime.cuda with
      | false =>
          rw [plain kind] at nothing
          exact absurd nothing limited
      | true =>
          apply ensureCudaCapacity_raises
          · rw [runtime.configured kind]
            omega
          · rw [same]
            exact ready kind
  · intro _ _ impossible
    exact impossible.elim

theorem admitGroups_spec (index : Nat) (chunks : List (List FxNode)) :
    match runtime.admitGroups index chunks with
    | .error failure => runtime.Faulty failure
    | .ok none => ∀ chunk ∈ chunks, ¬ runtime.Exceeds chunk
    | .ok (some found) => ∃ front chunk back, chunks = front ++ chunk :: back ∧
        found = index + front.length ∧ runtime.Exceeds chunk := by
  induction chunks generalizing index with
  | nil =>
      unfold admitGroups
      cases fault : runtime.outputFault with
      | some message => exact .inr ⟨message, fault, rfl⟩
      | none => simp
  | cons chunk rest ih =>
      unfold admitGroups
      cases fault : chunk.findSome? fun node => runtime.nodeFault node.name with
      | some message =>
          obtain ⟨node, member, found⟩ := List.exists_of_findSome?_eq_some fault
          exact .inl ⟨chunk, message, node, member, found, rfl⟩
      | none =>
          simp only
          by_cases exceeds : runtime.budget ≠ 0 ∧
              runtime.budget < runtime.estimate chunk
          · rw [if_pos exceeds]
            exact ⟨[], chunk, rest, rfl, rfl, exceeds⟩
          · rw [if_neg exceeds]
            have later := ih (index + 1)
            cases kind : runtime.admitGroups (index + 1) rest with
            | error failure =>
                rw [kind] at later
                exact later
            | ok outcome =>
                rw [kind] at later
                cases outcome with
                | none =>
                    intro other member
                    rcases List.mem_cons.mp member with rfl | member
                    · exact exceeds
                    · exact later other member
                | some found =>
                    obtain ⟨front, other, back, rfl, place, exceeds⟩ := later
                    refine ⟨chunk :: front, other, back, rfl, ?_, exceeds⟩
                    rw [place, List.length_cons]
                    omega

/-- The groups of a run of `_preflight`. -/
structure Groups (start chunks : List (List FxNode)) : Prop where
  flatten : chunks.flatten = start.flatten
  nonempty : ∀ chunk ∈ chunks, chunk ≠ []

theorem splitChunk_eq (front back : List (List FxNode)) (chunk : List FxNode) :
    FxGraph.splitChunk (front ++ chunk :: back) front.length =
      front ++ [chunk.take (chunk.length / 2), chunk.drop (chunk.length / 2)] ++
        back := by
  simp [FxGraph.splitChunk]

theorem Groups.split {start front back : List (List FxNode)}
    {chunk : List FxNode} (groups : Groups start (front ++ chunk :: back))
    (several : chunk.length ≠ 1) :
    Groups start (FxGraph.splitChunk (front ++ chunk :: back) front.length) ∧
      (FxGraph.splitChunk (front ++ chunk :: back) front.length).length =
        (front ++ chunk :: back).length + 1 := by
  rw [splitChunk_eq]
  have nonempty : chunk ≠ [] := groups.nonempty chunk (by simp)
  have some_nodes : chunk.length ≠ 0 := by
    simpa [List.length_eq_zero_iff] using nonempty
  refine ⟨⟨?_, ?_⟩, ?_⟩
  · rw [← groups.flatten]
    simp only [List.flatten_append, List.flatten_cons, List.flatten_nil,
      List.append_nil, List.take_append_drop, List.append_assoc]
  · intro other member
    rw [List.append_assoc, List.mem_append, List.mem_append] at member
    rcases member with earlier | halves | later
    · exact groups.nonempty other (by simp [earlier])
    · rw [← List.length_pos_iff]
      rcases List.mem_pair.mp halves with rfl | rfl
      · rw [List.length_take]
        omega
      · rw [List.length_drop]
        omega
    · exact groups.nonempty other (by simp [later])
  · simp only [List.length_append, List.length_cons, List.length_nil]
    omega

theorem Groups.length_le {start chunks : List (List FxNode)}
    (groups : Groups start chunks) : chunks.length ≤ start.flatten.length := by
  rw [← groups.flatten]
  have nonempty := groups.nonempty
  clear groups
  induction chunks with
  | nil => exact Nat.zero_le _
  | cons chunk rest ih =>
      have first := List.length_pos_iff.mpr (nonempty chunk (by simp))
      have others := ih fun other member =>
        nonempty other (List.mem_cons_of_mem _ member)
      simp only [List.flatten_cons, List.length_append, List.length_cons]
      omega

/-- How `_preflight` ends. -/
structure Admitted (runtime : Preflight γ σ κ) (start : List (List FxNode))
    (outcome : Outcome) : Prop where
  groups : Groups start outcome.chunks
  fits : outcome.result = .ok () →
    ∀ chunk ∈ outcome.chunks, ¬ runtime.Exceeds chunk
  raises : ∀ failure, outcome.result = .error failure →
    failure ≠ .unfinished ∧ (runtime.Faulty failure ∨
      ∃ chunk ∈ outcome.chunks, chunk.length = 1 ∧ runtime.Exceeds chunk)

theorem Faulty.finished {failure : StoreFailure}
    (faulty : runtime.Faulty failure) : failure ≠ .unfinished := by
  rcases faulty with ⟨_, _, _, _, _, rfl⟩ | ⟨_, _, rfl⟩ <;>
    exact StoreFailure.noConfusion

theorem preflight_spec [LinearOrder κ] {start chunks : List (List FxNode)} {world : World}
    (ready : runtime.cuda = true → world.store.gpuDevice = true)
    (rounds : Nat) (groups : Groups start chunks)
    (enough : start.flatten.length - chunks.length < rounds) :
    Admitted runtime start (runtime.preflight rounds chunks world) := by
  induction rounds generalizing chunks with
  | zero => cases enough
  | succ rounds ih =>
      have found := @admitGroups_spec γ σ κ runtime 0 chunks
      unfold preflight
      cases kind : runtime.admitGroups 0 chunks with
      | error failure =>
          rw [kind] at found
          exact ⟨groups, by intros; contradiction, fun other same => by
            cases same
            exact ⟨found.finished, .inl found⟩⟩
      | ok outcome =>
          rw [kind] at found
          cases outcome with
          | none => exact ⟨groups, fun _ => found, by intros; contradiction⟩
          | some index =>
              obtain ⟨front, chunk, back, rfl, rfl, exceeds⟩ := found
              have here : ((front ++ chunk :: back)[0 + front.length]?).getD
                  [] = chunk := by simp
              simp only [here]
              by_cases single : chunk.length = 1
              · -- The check raises.
                have raises := checkBudget_raises ready exceeds
                unfold Leads at raises
                rw [if_pos single]
                generalize (runtime.checkBudget chunk).run world = checked
                  at raises
                obtain ⟨result, next⟩ := checked
                cases result with
                | ok value => exact raises.elim
                | error failure =>
                    refine ⟨groups, by intros; contradiction, fun other same => ?_⟩
                    cases same
                    exact ⟨raises, .inr
                      ⟨chunk, by simp, single, exceeds⟩⟩
              · rw [if_neg single, Nat.zero_add]
                obtain ⟨groups, longer⟩ := groups.split single
                apply ih groups
                have bound := groups.length_le
                omega

/-- Whatever the allocator says, `_preflight` comes to an end.  Its groups hold
the same nodes in the same order, and none is empty.  Where it returns, every
group may run within the budget, if there is one; where it raises, the metadata
run has raised, or a group of one node exceeds the budget. -/
theorem preflight_admits [LinearOrder κ] (runtime : Preflight γ σ κ)
    {world : World} {chunks : List (List FxNode)} {rounds : Nat}
    (ready : runtime.cuda = true → world.store.gpuDevice = true)
    (nonempty : ∀ chunk ∈ chunks, chunk ≠ [])
    (enough : chunks.flatten.length - chunks.length < rounds) :
    let outcome := runtime.preflight rounds chunks world
    outcome.result ≠ .error .unfinished ∧
      outcome.chunks.flatten = chunks.flatten ∧
      (∀ chunk ∈ outcome.chunks, chunk ≠ []) ∧
      (outcome.result = .ok () → runtime.budget ≠ 0 →
        ∀ chunk ∈ outcome.chunks, runtime.estimate chunk ≤ runtime.budget) ∧
      ∀ failure, outcome.result = .error failure →
        runtime.Faulty failure ∨
          ∃ chunk ∈ outcome.chunks, chunk.length = 1 ∧
            runtime.Exceeds chunk := by
  have admitted := preflight_spec ready rounds (Groups.mk rfl nonempty) enough
  refine ⟨?_, admitted.groups.flatten, admitted.groups.nonempty, ?_, ?_⟩
  · intro ended
    exact (admitted.raises _ ended).1 rfl
  · intro returned limited chunk member
    by_contra more
    exact admitted.fits returned chunk member
      ⟨limited, Int.not_le.mp more⟩
  · intro failure raised
    exact (admitted.raises failure raised).2

def branches : Preflight Nat Unit Nat where
  graph := FxGraph.branchGraph
  modules := FxGraph.branchModules
  sizes := FxGraph.branchSizes
  nodeFault _ := none
  outputFault := none
  budget := 2000
  cuda := true
  store := { abcSettings with gpuBudgetBytes := 2000 }
  configured _ := rfl

def branchWorld : World :=
  ⟨{ gpuDevice := true }, { readings := [⟨10, 0, 0⟩, ⟨0, 0, 0⟩] }⟩

theorem preflight_admits_branches :
    (branches.preflight 5 [FxGraph.branchGraph.nodes] branchWorld).chunks.map
        (List.map FxNode.name) = [[1], [2], [3, 4, 5]] ∧
      ∀ chunk ∈ (branches.preflight 5 [FxGraph.branchGraph.nodes]
          branchWorld).chunks,
        branches.estimate chunk ≤ (2000 : Int) := by
  have admits := preflight_admits branches
    (show branches.cuda = true → branchWorld.store.gpuDevice = true from
      fun _ => rfl)
    (show ∀ chunk ∈ [FxGraph.branchGraph.nodes], chunk ≠ [] by decide)
    (show [FxGraph.branchGraph.nodes].flatten.length -
      [FxGraph.branchGraph.nodes].length < 5 by decide)
  obtain ⟨_, _, _, fits, _⟩ := admits
  exact ⟨by decide +kernel, fits (by decide +kernel) (by decide)⟩

/-- An operator that exceeds the budget by itself is refused. -/
example : (preflight { branches with
      budget := 1000
      store := { abcSettings with gpuBudgetBytes := 1000 }
      configured := fun _ => rfl } 5 [FxGraph.branchGraph.nodes]
        branchWorld).result.toBool = false := by
  decide +kernel

end Preflight

end TrainPool
