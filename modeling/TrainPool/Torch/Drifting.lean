import TrainPool.Torch.Exchanging
import TrainPool.Torch.GraphSession

namespace TrainPool

open HandleStore Failing Training

/-! The part of the passes of a graph runtime that leaves the records alone. -/

variable {τ γ σ δ : Type}

namespace Session

variable {session next final : Session τ γ} {handle : Handle}

def Holds (session : Session τ γ) (handle : Handle) : Prop :=
  ∃ slot, session.runtime.held slot = some handle

/-- Only the store changes, and nothing of what the records hold. -/
def Harmless (session next : Session τ γ) : Prop :=
  Spares session.Holds session next

theorem Harmless.refl (session : Session τ γ) : Harmless session session :=
  Spares.refl session

theorem Harmless.trans (early : Harmless session next)
    (late : Harmless next final) : Harmless session final := by
  refine Spares.trans early (late.mono ?_)
  intro handle held
  unfold Holds
  rw [early.runtime]
  exact held

theorem Loose.not_holds (loose : session.Loose handle) :
    ¬session.Holds handle :=
  fun ⟨slot, held⟩ => loose.unheld slot held

theorem Tidy.below (tidy : session.Tidy) (held : session.Holds handle) :
    handle < session.store.next := by
  obtain ⟨slot, held⟩ := held
  exact tidy.older held

end Session

namespace GraphSession

open Session

/-! Trees of tensors. -/

section

variable {kept : Handle → Prop} {session : Session τ γ}

structure Saved (kept : Handle → Prop) (session : Session τ γ)
    (handles : List Handle) (next : Session τ γ) : Prop
    extends Spares kept session next where
  newer : ∀ handle ∈ handles, session.store.next ≤ handle
  older : ∀ handle ∈ handles, handle < next.store.next

theorem Saved.cons {value : τ} {handle : Handle} {handles : List Handle}
    {next final : Session τ γ}
    (offloaded : Offloaded kept value session handle next)
    (saved : Saved kept next handles final) :
    Saved kept session (handle :: handles) final where
  toSpares := offloaded.toSpares.trans saved.toSpares
  newer other member := by
    rcases List.mem_cons.mp member with rfl | member
    · exact offloaded.newer
    · exact offloaded.grows.trans (saved.newer other member)
  older other member := by
    rcases List.mem_cons.mp member with rfl | member
    · exact offloaded.older.trans_le saved.grows
    · exact saved.older other member

theorem saveLeaves_spares {limit : Handle}
    (below : ∀ handle, kept handle → handle < limit)
    (leaves : List (Leaf τ δ)) (saved : List Handle)
    (newer : ∀ handle ∈ saved, limit ≤ handle) (session : Session τ γ)
    (later : limit ≤ session.store.next) :
    (saveLeaves saved leaves).Leads session (Ending
      (fun result next =>
        Saved kept session (result.filterMap Leaf.handle?) next)
      fun _ next => Spares kept session next) := by
  induction leaves generalizing saved session with
  | nil => exact ⟨.refl session, nofun, nofun⟩
  | cons leaf rest ih =>
      cases leaf with
      | tensor value =>
          apply (publish_spares (fun handle member => new_not_kept below
            (newer handle member)) value session).bind
          · intro handle next offloaded
            have saves := ih (saved ++ [handle]) (by
              intro other member
              rcases List.mem_append.mp member with member | member
              · exact newer other member
              · rw [List.mem_singleton.mp member]
                exact later.trans offloaded.newer) next
              (later.trans offloaded.grows)
            apply saves.bind
            · exact fun _ _ saved => Saved.cons offloaded saved
            · exact fun _ final kept => offloaded.toSpares.trans kept
          · exact fun _ _ spares => spares
      | constant value =>
          apply (ih saved newer session later).bind
          · exact fun _ _ saved => saved
          · exact fun _ _ spares => spares
      | none =>
          apply (ih saved newer session later).bind
          · exact fun _ _ saved => saved
          · exact fun _ _ spares => spares

theorem saveTree_harmless (tidy : session.Tidy) (value : Value τ δ σ) :
    (saveTree value).Leads session (Ending
      (fun saved next => Saved session.Holds session saved.handleList next)
      fun _ next => session.Harmless next) := by
  apply (saveLeaves_spares (fun _ held => tidy.below held) value.leaves []
    nofun session le_rfl).bind
  · exact fun _ _ saved => saved
  · exact fun _ _ spares => spares

theorem restoreTree_spares (saved : SavedTree δ σ) :
    (restoreTree saved : Stepping τ γ (Value τ δ σ)).Respects
      (Spares kept) := by
  refine spares_bind (collect_spares ?_ saved.leaves) fun _ => pure_spares _
  intro leaf
  cases leaf with
  | tensor handle =>
      exact spares_bind (restore_spares handle) fun _ => pure_spares _
  | constant value => exact pure_spares _
  | none => exact pure_spares _

theorem freeTree_spares {saved : SavedTree δ σ}
    (others : ∀ handle ∈ saved.handleList, ¬kept handle) :
    (freeTree saved : Stepping τ γ Unit).Respects (Spares kept) :=
  each_spares fun handle member => free_spares (others handle member)

theorem restoreNamed_spares (entry : Nat × Handle) :
    (restoreNamed entry : Stepping τ γ (Nat × τ)).Respects (Spares kept) :=
  spares_bind (restore_spares entry.2) fun _ => pure_spares _

end

/-! What the variables of a pass hold is held by no record. -/

structure Afloat (course : GraphSession τ γ σ) : Prop where
  tidy : course.session.Tidy
  values : ∀ {name saved}, course.tape.values.lookup name = some saved →
    ∀ handle ∈ saved.handleList, course.session.Loose handle
  snapshots : ∀ snapshot ∈ course.tape.buffers, ∀ entry ∈ snapshot,
    course.session.Loose entry.2
  cotangents : ∀ {name saved}, course.gradients.lookup name = some saved →
    ∀ handle ∈ saved.handleList, course.session.Loose handle

structure Carries (course next : GraphSession τ γ σ) : Prop where
  harmless : course.session.Harmless next.session
  ir : next.ir = course.ir
  clock : next.clock = course.clock
  ran : next.ran = course.ran
  contexts : next.contexts = course.contexts
  latest : next.latest = course.latest
  applied : next.applied = course.applied

theorem Carries.refl (course : GraphSession τ γ σ) : Carries course course :=
  ⟨.refl _, rfl, rfl, rfl, rfl, rfl, rfl⟩

theorem Carries.trans {course next final : GraphSession τ γ σ}
    (early : Carries course next) (late : Carries next final) :
    Carries course final where
  harmless := early.harmless.trans late.harmless
  ir := late.ir.trans early.ir
  clock := late.clock.trans early.clock
  ran := late.ran.trans early.ran
  contexts := late.contexts.trans early.contexts
  latest := late.latest.trans early.latest
  applied := late.applied.trans early.applied

def Drifts (course next : GraphSession τ γ σ) : Prop :=
  Afloat course → Afloat next ∧ Carries course next

theorem Drifts.refl (course : GraphSession τ γ σ) : Drifts course course :=
  fun afloat => ⟨afloat, .refl course⟩

theorem Drifts.trans {course next final : GraphSession τ γ σ}
    (early : Drifts course next) (late : Drifts next final) :
    Drifts course final := by
  intro afloat
  obtain ⟨afloat, carries⟩ := early afloat
  obtain ⟨afloat, later⟩ := late afloat
  exact ⟨afloat, carries.trans later⟩

section

variable {α β : Type} {course : GraphSession τ γ σ}

theorem drifts_bind {first : GraphStepping τ γ σ α}
    {second : α → GraphStepping τ γ σ β} (early : first.Respects Drifts)
    (late : ∀ value, (second value).Respects Drifts) :
    (first >>= second).Respects Drifts :=
  Respects.bind (fun first second => first.trans second) early late

theorem pure_drifts (value : α) :
    (pure value : GraphStepping τ γ σ α).Respects Drifts := Drifts.refl

theorem throw_drifts (raised : Raised) :
    (throw raised : GraphStepping τ γ σ α).Respects Drifts := Drifts.refl

theorem each_drifts {body : α → GraphStepping τ γ σ Unit} {items : List α}
    (all : ∀ item ∈ items, (body item).Respects Drifts) :
    (each body items).Respects Drifts :=
  Respects.each Drifts.refl (fun first second => first.trans second) all

theorem collect_drifts {body : α → GraphStepping τ γ σ β}
    (all : ∀ item, (body item).Respects Drifts) (items : List α) :
    (collect body items).Respects Drifts :=
  Respects.collect Drifts.refl (fun first second => first.trans second)
    fun item _ => all item

theorem raising_drifts (result : Except Raised α) :
    (raising result : GraphStepping τ γ σ α).Respects Drifts := by
  cases result with
  | ok value => exact pure_drifts value
  | error raised => exact throw_drifts raised

theorem Afloat.within (afloat : Afloat course) {session : Session τ γ}
    (grows : Grows course.session session) :
    Afloat { course with session := session } where
  tidy := afloat.tidy.grows grows
  values found handle member := (afloat.values found handle member).grows grows
  snapshots snapshot listed entry member :=
    (afloat.snapshots snapshot listed entry member).grows grows
  cotangents found handle member :=
    (afloat.cotangents found handle member).grows grows

theorem Carries.of_harmless {session : Session τ γ}
    (harmless : course.session.Harmless session) :
    Carries course { course with session := session } :=
  ⟨harmless, rfl, rfl, rfl, rfl, rfl, rfl⟩

theorem drifts_of_afloat {program : GraphStepping τ γ σ α}
    (leads : ∀ course, Afloat course →
      program.Leads course fun _ next => Drifts course next) :
    program.Respects Drifts := by
  intro course
  by_cases afloat : Afloat course
  · exact leads course afloat
  · exact fun impossible => absurd impossible afloat

theorem inside_harmless {program : Stepping τ γ α}
    (harmless : program.Leads course.session fun _ next =>
      course.session.Harmless next) :
    (inside program).Leads course fun _ next => Drifts course next := by
  apply leads_within.mpr
  apply harmless.mono
  intro _ next harmless afloat
  exact ⟨afloat.within harmless.toGrows, .of_harmless harmless⟩

theorem inside_drifts {program : Stepping τ γ α}
    (respects : ∀ kept, program.Respects (Spares kept)) :
    (inside program : GraphStepping τ γ σ α).Respects Drifts :=
  fun course => inside_harmless (respects course.session.Holds course.session)

theorem readValue_drifts (name : NodeName) :
    (readValue name : GraphStepping τ γ σ _).Respects Drifts := by
  intro course
  apply leads_get_bind.mpr
  split
  · exact Drifts.refl course
  · exact inside_drifts (fun _ => restoreTree_spares _) course

theorem checkBudget_drifts (model : GraphModel τ γ σ) (nodes : List FxNode) :
    (checkBudget model nodes).Respects Drifts := by
  intro course
  apply leads_get_bind.mpr
  exact drifts_bind (raising_drifts _)
    (fun _ => inside_drifts fun _ => call_spares) course

theorem keepValue_drifts (entry : NodeName × Value τ γ σ) :
    (keepValue entry).Respects Drifts := by
  apply drifts_of_afloat
  intro course afloat
  have saves := saveTree_harmless afloat.tidy entry.2
  apply Leads.across (Ending
    (fun saved next => ∃ session, Saved course.session.Holds course.session
      saved.handleList session ∧ next = { course with session := session })
    fun _ next => Drifts course next)
  · apply leads_within.mpr
    apply saves.mono
    intro result next given
    cases result with
    | ok saved => exact ⟨next, given, rfl⟩
    | error raised =>
        exact fun afloat => ⟨afloat.within given.toGrows, .of_harmless given⟩
  · intro saved next given
    obtain ⟨session, kept, rfl⟩ := given
    apply leads_modify.mpr
    intro afloat
    have floating := afloat.within kept.toGrows
    refine ⟨⟨floating.tidy, ?_, floating.snapshots, floating.cotangents⟩,
      kept.toSpares, rfl, rfl, rfl, rfl, rfl, rfl⟩
    intro name other found handle member
    rw [Table.lookup_insert_eq] at found
    split at found
    · cases found
      exact afloat.tidy.loose kept.toGrows (kept.newer handle member)
        (kept.older handle member)
    · exact floating.values found handle member
  · exact fun _ _ drifts => drifts

theorem freeTree_drifts {saved : SavedTree δ σ}
    (loose : ∀ handle ∈ saved.handleList, course.session.Loose handle) :
    (inside (freeTree saved)).Leads course
      fun _ next => Drifts course next :=
  inside_harmless (freeTree_spares
    (fun handle member => (loose handle member).not_holds) course.session)

theorem dropValue_drifts (name : NodeName) :
    (dropValue name : GraphStepping τ γ σ Unit).Respects Drifts := by
  apply drifts_of_afloat
  intro course afloat
  apply leads_get_bind.mpr
  split
  · exact Drifts.refl course
  · rename_i saved found
    let erased : GraphSession τ γ σ := { course with
      tape := { course.tape with
        values := course.tape.values.erase name } }
    have drops : Drifts course erased := by
      intro _
      refine ⟨⟨afloat.tidy, ?_, afloat.snapshots, afloat.cotangents⟩, .refl _,
        rfl, rfl, rfl, rfl, rfl, rfl⟩
      intro other kept found handle member
      change (course.tape.values.erase name).lookup other = some kept at found
      rw [Table.lookup_erase_eq] at found
      split at found
      · cases found
      · exact afloat.values found handle member
    have frees : (inside (freeTree saved)).Leads erased
        fun _ next => Drifts erased next :=
      freeTree_drifts (afloat.values found)
    exact frees.mono fun _ _ drifts => drops.trans drifts

theorem releaseTape_drifts :
    (releaseTape : GraphStepping τ γ σ Unit).Respects Drifts := by
  apply drifts_of_afloat
  intro course afloat
  apply leads_get_bind.mpr
  apply inside_harmless
  have values : (each (fun saved => suppress (freeTree saved))
      (course.tape.values.entries.map Sigma.snd) :
        Stepping τ γ Unit).Respects (Spares course.session.Holds) := by
    apply each_spares
    intro saved member
    obtain ⟨⟨name, saved⟩, listed, rfl⟩ := List.mem_map.mp member
    apply suppress_spares
    apply freeTree_spares
    intro handle owned
    exact (afloat.values (Table.mem_entries.mp listed) handle owned).not_holds
  have snapshots : (each (fun snapshot =>
      each (fun handle => suppress (free handle)) (snapshot.map Prod.snd))
        course.tape.buffers : Stepping τ γ Unit).Respects
          (Spares course.session.Holds) := by
    apply each_spares
    intro snapshot listed
    apply each_spares
    intro handle member
    obtain ⟨entry, owned, rfl⟩ := List.mem_map.mp member
    apply suppress_spares
    exact free_spares
      (afloat.snapshots snapshot listed entry owned).not_holds
  exact spares_bind values (fun _ => snapshots) course.session

theorem snapshotBuffer_drifts (buffer : Buffer) :
    (snapshotBuffer buffer : GraphStepping τ γ σ Unit).Respects Drifts := by
  apply drifts_of_afloat
  intro course afloat
  apply Leads.across (Ending
    (fun handle next => ∃ session, course.session.Harmless session ∧
      session.Loose handle ∧ next = { course with session := session })
    fun _ next => Drifts course next)
  · have restores : (restore buffer.handle : Stepping τ γ τ).Leads
        course.session fun _ session => course.session.Harmless session :=
      restore_spares buffer.handle course.session
    apply leads_within.mpr
    apply restores.bind
    · intro value session early
      have offloads : (Training.offload value).Leads session (Ending
          (fun handle next =>
            Offloaded course.session.Holds value session handle next)
          fun _ next => Spares course.session.Holds session next) :=
        offload_spares value session
      apply offloads.mono
      intro result next given
      cases result with
      | ok handle =>
          have harmless := Spares.trans early given.toSpares
          exact ⟨next, harmless, afloat.tidy.loose harmless.toGrows
            (early.grows.trans given.newer) given.older, rfl⟩
      | error raised =>
          have harmless := Spares.trans early given
          exact fun afloat => ⟨afloat.within harmless.toGrows, .of_harmless harmless⟩
    · intro raised next harmless afloat
      exact ⟨afloat.within harmless.toGrows, .of_harmless harmless⟩
  · intro handle next given
    obtain ⟨session, harmless, loose, rfl⟩ := given
    apply leads_modify.mpr
    intro afloat
    have floating := afloat.within harmless.toGrows
    refine ⟨⟨floating.tidy, floating.values, ?_, floating.cotangents⟩,
      harmless, rfl, rfl, rfl, rfl, rfl, rfl⟩
    intro snapshot listed entry member
    obtain ⟨position, found⟩ := List.mem_iff_getElem?.mp listed
    rw [List.getElem?_modify] at found
    obtain ⟨old, place, same⟩ := Option.map_eq_some_iff.mp found
    have known := floating.snapshots old (List.mem_of_getElem? place)
    split at same
    · rw [← same] at member
      rcases List.mem_append.mp member with member | member
      · exact known entry member
      · rw [List.mem_singleton.mp member]
        exact loose
    · exact known entry (same ▸ member)
  · exact fun _ _ drifts => drifts

theorem consume_drifts (save : Bool) (name : NodeName) :
    (consume save name : GraphStepping τ γ σ Unit).Respects Drifts := by
  intro course
  apply leads_get_bind.mpr
  apply leads_modify_bind.mpr
  have changed : Drifts course { course with
      remaining := Function.update course.remaining name
        (course.remaining name - 1) } :=
    fun afloat => ⟨⟨afloat.tidy, afloat.values, afloat.snapshots,
      afloat.cotangents⟩, .refl _, rfl, rfl, rfl, rfl, rfl, rfl⟩
  split
  · exact (dropValue_drifts name _).mono fun _ _ drifts => changed.trans drifts
  · exact changed

theorem readOutput_drifts (leaf : OutputLeaf γ) :
    (readOutput leaf : GraphStepping τ γ σ Unit).Respects Drifts := by
  cases leaf with
  | constant value => exact pure_drifts ()
  | node name => exact drifts_bind (readValue_drifts name) fun _ => pure_drifts ()

/-! The gradients of the values. -/

theorem saveGradient_drifts (name : NodeName) (values : Gradient τ σ) :
    (saveGradient name values : GraphStepping τ γ σ Unit).Respects Drifts := by
  apply drifts_of_afloat
  intro course afloat
  have saves := saveTree_harmless afloat.tidy values
  apply Leads.across (Ending
    (fun saved next => ∃ session, Saved course.session.Holds course.session
      saved.handleList session ∧ next = { course with session := session })
    fun _ next => Drifts course next)
  · apply leads_within.mpr
    apply saves.mono
    intro result next given
    cases result with
    | ok saved => exact ⟨next, given, rfl⟩
    | error raised =>
        exact fun afloat => ⟨afloat.within given.toGrows, .of_harmless given⟩
  · intro saved next given
    obtain ⟨session, kept, rfl⟩ := given
    apply leads_modify.mpr
    intro afloat
    have floating := afloat.within kept.toGrows
    refine ⟨⟨floating.tidy, floating.values, floating.snapshots, ?_⟩,
      kept.toSpares, rfl, rfl, rfl, rfl, rfl, rfl⟩
    intro other one found handle member
    rw [Table.lookup_insert_eq] at found
    split at found
    · cases found
      exact afloat.tidy.loose kept.toGrows (kept.newer handle member)
        (kept.older handle member)
    · exact floating.cotangents found handle member
  · exact fun _ _ drifts => drifts

theorem popGradient_drifts (name : NodeName) (course : GraphSession τ γ σ) :
    Drifts course { course with gradients := course.gradients.erase name } := by
  intro afloat
  refine ⟨⟨afloat.tidy, afloat.values, afloat.snapshots, ?_⟩, .refl _, rfl,
    rfl, rfl, rfl, rfl, rfl⟩
  intro other saved found handle member
  rw [Table.lookup_erase_eq] at found
  split at found
  · cases found
  · exact afloat.cotangents found handle member

theorem takeGradient_drifts {name : NodeName} {saved : SavedTree Empty σ}
    {second : Gradient τ σ → GraphStepping τ γ σ α}
    (found : course.gradients.lookup name = some saved)
    (late : ∀ value next, Drifts course next → (Afloat course →
        ∀ handle ∈ saved.handleList, next.session.Loose handle) →
      (second value).Leads next fun _ final => Drifts course final) :
    (do
      popGradient name
      let value ← inside (restoreTree saved)
      second value : GraphStepping τ γ σ α).Leads course
        fun _ next => Drifts course next := by
  have popped := popGradient_drifts name course
  apply leads_modify_bind.mpr
  apply (inside_drifts (fun _ => restoreTree_spares saved) _).bind
  · intro value next drifts
    have drifts := popped.trans drifts
    apply late value next drifts
    intro afloat handle member
    exact (afloat.cotangents found handle member).grows
      (drifts afloat).2.harmless.toGrows
  · exact fun _ _ drifts => popped.trans drifts

theorem freed_drifts {next : GraphSession τ γ σ} {saved : SavedTree δ σ}
    (drifts : Drifts course next) (loose : Afloat course →
      ∀ handle ∈ saved.handleList, next.session.Loose handle) :
    (inside (freeTree saved)).Leads next
      fun _ final => Drifts course final := by
  by_cases afloat : Afloat course
  · exact (freeTree_drifts (loose afloat)).mono fun _ _ later =>
      drifts.trans later
  · exact fun impossible => absurd impossible afloat

theorem accumulate_drifts (add : τ → τ → τ) (entry : NodeName × Gradient τ σ) :
    (accumulate add entry : GraphStepping τ γ σ Unit).Respects Drifts := by
  intro course
  apply leads_get_bind.mpr
  split
  · exact saveGradient_drifts entry.1 entry.2 course
  · rename_i previous found
    apply takeGradient_drifts found
    intro old next drifts loose
    split
    · exact drifts
    · apply (freed_drifts drifts loose).bind
      · intro _ final drifts
        exact (saveGradient_drifts _ _ final).mono fun _ _ later =>
          drifts.trans later
      · exact fun _ _ drifts => drifts

theorem seed_drifts (add : τ → τ → τ) (leaves : List (OutputLeaf γ))
    (gradOutputs : List (Option τ)) :
    (seed add leaves gradOutputs : GraphStepping τ γ σ Unit).Respects
      Drifts := by
  induction leaves generalizing gradOutputs with
  | nil => exact pure_drifts ()
  | cons leaf rest ih =>
      cases leaf with
      | constant value => exact ih gradOutputs
      | node name =>
          intro course
          apply leads_get_bind.mpr
          split
          · exact Drifts.refl course
          · split
            · exact Drifts.refl course
            · exact drifts_bind (accumulate_drifts add _) (fun _ => ih _) course

theorem collectOutput_drifts (requires : NodeName → Nat → Bool)
    (entry : NodeName × Value τ γ σ) :
    (collectOutput requires entry).Respects Drifts := by
  intro course
  apply leads_get_bind.mpr
  split
  · exact Drifts.refl course
  · rename_i saved found
    apply takeGradient_drifts found
    intro grad next drifts loose
    apply (freed_drifts drifts loose).bind
    · intro _ final drifts
      split
      · exact drifts
      · exact drifts
    · exact fun _ _ drifts => drifts

theorem readGradient_drifts (name : NodeName) :
    (readGradient name : GraphStepping τ γ σ Nat).Respects Drifts := by
  intro course
  apply leads_get_bind.mpr
  split
  · exact drifts_bind (inside_drifts fun _ => restoreTree_spares _)
      (fun _ => pure_drifts _) course
  · split
    · exact Drifts.refl course
    · exact Drifts.refl course

theorem freeGradients_drifts :
    (freeGradients : GraphStepping τ γ σ Unit).Respects Drifts := by
  apply drifts_of_afloat
  intro course afloat
  apply leads_get_bind.mpr
  apply inside_harmless
  have frees : (each freeTree (course.gradients.entries.map Sigma.snd) :
      Stepping τ γ Unit).Respects (Spares course.session.Holds) := by
    apply each_spares
    intro saved member
    obtain ⟨⟨name, saved⟩, listed, rfl⟩ := List.mem_map.mp member
    apply freeTree_spares
    intro handle owned
    exact (afloat.cotangents (Table.mem_entries.mp listed) handle
      owned).not_holds
  exact frees course.session

end

end GraphSession

end TrainPool
