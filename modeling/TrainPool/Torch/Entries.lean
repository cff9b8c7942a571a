import TrainPool.Torch.Step

namespace TrainPool

open Failing

/-! The weights and the buffers of a graph runtime, table by table. -/

theorem find?_of_distinct {α κ : Type} [DecidableEq κ] {key : α → κ}
    {items : List α} {item : α} (distinct : (items.map key).Nodup)
    (member : item ∈ items) :
    items.find? (fun other => key other = key item) = some item := by
  cases found : items.find? fun other => key other = key item with
  | none =>
      have missing := List.find?_eq_none.mp found item member
      simp at missing
  | some other =>
      have listed := List.mem_of_find?_eq_some found
      have same : key other = key item := by
        simpa using List.find?_some found
      rw [List.inj_on_of_nodup_map distinct listed member same]

/-- A weight or a buffer of a record, by its name in the model. -/
structure Entry where
  index : Nat
  part : Part
  name : Nat
  handle : Handle
  deriving DecidableEq, Repr

def Entry.slot (entry : Entry) : Nat × Part := (entry.index, entry.part)

namespace Record

variable {γ : Type}

/-- The items of `record.weights` and of `record.buffers`. -/
def entries (record : Record γ) (index : Nat) : List Entry :=
  record.stage.weights.map (fun weight =>
    ⟨index, .weight weight.name, weight.name, weight.handle⟩) ++
  record.stage.buffers.map fun buffer =>
    ⟨index, .buffer buffer.name, buffer.name, buffer.handle⟩

/-- `table[name] = handle` -/
def put (part : Part) (handle : Handle) (record : Record γ) : Record γ :=
  match part with
  | .weight name => record.setWeight name handle
  | .buffer name => record.setBuffer name handle
  | _ => record

end Record

def Part.persistent : Part → Bool
  | .weight _ => true
  | .buffer _ => true
  | _ => false

namespace Runtime

variable {γ : Type} (runtime : Runtime γ)

/-- `_state_records`, by their positions. -/
def stateRecords : List Nat :=
  let stages := List.range runtime.stages.length
  if (runtime.dormant.entries 0).isEmpty then stages
  else stages ++ [runtime.stages.length]

def entries : List Entry :=
  runtime.records.zipIdx.flatMap fun record => record.1.entries record.2

/-- `state[name]`, of which the last record with the name counts. -/
def stateHandle (name : Nat) : Option Handle :=
  ((runtime.entries.filter (·.name = name)).getLast?).map Entry.handle

end Runtime

/-- What is asked of tensors.  `number` is the tensor of an `int` or a
`float`. -/
structure Kinds (τ γ : Type) where
  shape : τ → List Nat
  dtype : τ → Nat
  floating : τ → Bool
  cast : Nat → τ → τ
  number : γ → Option τ
  same : ∀ value, cast (dtype value) value = value

def Kinds.numel {τ γ : Type} (kinds : Kinds τ γ) (value : τ) : Nat :=
  (kinds.shape value).foldl (· * ·) 1

namespace Training

variable {τ γ : Type} (kinds : Kinds τ γ)

def convertEntry (dtype : Nat) (entry : Entry) : Stepping τ γ Unit := do
  let value ← restore entry.handle
  if kinds.floating value then
    let replacement ← offload (kinds.cast dtype value)
    free entry.handle
    alter entry.index (Record.put entry.part replacement)

def convertRecord (dtype index : Nat) : Stepping τ γ Unit := do
  match (← get).runtime.records[index]? with
  | none => pure ()
  | some record =>
      each (convertEntry kinds dtype) (record.entries index)
      -- The template.
      call

def convertDtype (dtype : Nat) : Stepping τ γ Unit := do
  let runtime := (← get).runtime
  if runtime.pending then
    throw (.error "TRAINPOOL_UNSUPPORTED_GRAPH: dtype change during a pending step")
  else do
    each (convertRecord kinds dtype) runtime.stateRecords
    -- The frontend.
    call

end Training

/-! Each entry is a place, and no two of them are the same one. -/

namespace Record

variable {γ : Type} (record : Record γ) (index : Nat)

theorem held_of_entry {entry : Entry} (member : entry ∈ record.entries index) :
    entry.index = index ∧ entry.part.persistent ∧
      record.held entry.part = some entry.handle := by
  rcases List.mem_append.mp member with member | member
  · obtain ⟨weight, listed, rfl⟩ := List.mem_map.mp member
    have found := find?_of_distinct record.parameters listed
    refine ⟨rfl, rfl, ?_⟩
    change (record.stage.weights.find? (·.name = weight.name)).map
      Weight.handle = some weight.handle
    rw [found]
    rfl
  · obtain ⟨buffer, listed, rfl⟩ := List.mem_map.mp member
    have found := find?_of_distinct record.stage.distinct listed
    refine ⟨rfl, rfl, ?_⟩
    change (record.stage.buffers.find? (·.name = buffer.name)).map
      Buffer.handle = some buffer.handle
    rw [found]
    rfl

theorem entries_distinct : ((record.entries index).map Entry.slot).Nodup := by
  unfold entries
  rw [List.map_append, List.map_map, List.map_map]
  apply List.Nodup.append
  · have weights : (Entry.slot ∘ fun weight : Weight =>
        (⟨index, .weight weight.name, weight.name, weight.handle⟩ : Entry)) =
        (fun name => (index, Part.weight name)) ∘ Weight.name := rfl
    rw [weights, ← List.map_map]
    apply record.parameters.map
    intro name other same
    exact Part.weight.inj (Prod.mk.inj same).2
  · have buffers : (Entry.slot ∘ fun buffer : Buffer =>
        (⟨index, .buffer buffer.name, buffer.name, buffer.handle⟩ : Entry)) =
        (fun name => (index, Part.buffer name)) ∘ Buffer.name := rfl
    rw [buffers, ← List.map_map]
    apply record.stage.distinct.map
    intro name other same
    exact Part.buffer.inj (Prod.mk.inj same).2
  · intro slot weight buffer
    obtain ⟨_, _, rfl⟩ := List.mem_map.mp weight
    obtain ⟨_, _, same⟩ := List.mem_map.mp buffer
    cases (Prod.mk.inj same).2

theorem held_put {part : Part} (persistent : part.persistent)
    (handle : Handle) (other : Part) :
    (record.put part handle).held other =
      if other = part then (record.held other).map fun _ => handle
      else record.held other := by
  cases part with
  | weight name => exact record.held_setWeight name handle other
  | buffer name => exact record.held_setBuffer name handle other
  | gradient name => cases persistent
  | state name position => cases persistent

end Record

namespace Runtime

variable {γ : Type} {runtime : Runtime γ}

theorem held_of_entry {entry : Entry} (member : entry ∈ runtime.entries) :
    entry.part.persistent ∧ runtime.held entry.slot = some entry.handle := by
  obtain ⟨⟨record, index⟩, listed, member⟩ := List.mem_flatMap.mp member
  obtain ⟨rfl, persistent, held⟩ := record.held_of_entry index member
  refine ⟨persistent, ?_⟩
  have found := (List.mk_mem_zipIdx_iff_getElem?.mp listed)
  unfold Runtime.held Entry.slot
  rw [found]
  exact held

theorem entries_distinct (runtime : Runtime γ) :
    (runtime.entries.map Entry.slot).Nodup := by
  unfold entries
  rw [List.map_flatMap]
  apply List.nodup_flatMap.mpr
  constructor
  · intro record _
    exact record.1.entries_distinct record.2
  · have indices : (runtime.records.zipIdx.map Prod.snd).Nodup :=
      List.nodup_zipIdx_map_snd _
    apply (List.pairwise_map.mp indices).imp
    intro record other different slot here there
    obtain ⟨entry, member, rfl⟩ := List.mem_map.mp here
    obtain ⟨entry', member', same⟩ := List.mem_map.mp there
    have index := (record.1.held_of_entry record.2 member).1
    have index' := (other.1.held_of_entry other.2 member').1
    apply different
    rw [← index, ← index']
    exact (Prod.mk.inj same).1.symm

theorem held_alter_of {index : Nat} {part : Part}
    {change : Record γ → Record γ} {value : Option Handle → Option Handle}
    (changes : ∀ record other, (change record).held other =
      if other = part then value (record.held other) else record.held other)
    (strict : value none = none) (slot : Nat × Part) :
    (runtime.alter index change).held slot =
      if slot = (index, part) then value (runtime.held slot)
      else runtime.held slot := by
  obtain ⟨place, other⟩ := slot
  rw [held_alter]
  by_cases here : place = index
  · subst here
    rw [if_pos rfl]
    unfold held
    cases kind : runtime.records[place]? with
    | none =>
        simp only [Option.bind_eq_bind, Option.bind_none, strict]
        split
        · rfl
        · rfl
    | some record => simp [changes]
  · rw [if_neg here, if_neg fun same => here (Prod.mk.inj same).1]

theorem held_alter_put {entry : Entry} (persistent : entry.part.persistent)
    (handle : Handle) (slot : Nat × Part) :
    (runtime.alter entry.index (Record.put entry.part handle)).held slot =
      if slot = entry.slot then (runtime.held slot).map fun _ => handle
      else runtime.held slot :=
  held_alter_of (fun record other => record.held_put persistent handle other)
    rfl slot

end Runtime

end TrainPool
