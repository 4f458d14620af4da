import ShaderBuild.Proofs.Layout.Bytes
import ShaderBuild.Proofs.Metadata.RegistryRun
import ShaderBuild.Proofs.Reflection.Validity

namespace ShaderBuild

abbrev Binding.element (b : Binding) : Except Error (Option BufferLayout) :=
  b.layout.mapM BufferLayout.element

def Reflection.bindings (x : Reflection) : List Binding := x.stages.flatMap (·.bindings)

theorem Reflection.mem_bindings {x : Reflection} {b : Binding} :
    b ∈ x.bindings ↔ ∃ s ∈ x.sightings, s.binding = b := by
  simp [bindings, sightings]

/-- Every layout has a size, and what has one name in one bucket has one layout. -/
structure Consistent (ss : List Sighting) : Prop where
  element : ∀ s ∈ ss, ∃ l, s.binding.element = .ok l
  agree : ∀ s ∈ ss, ∀ e ∈ ss, s.binding.bucket = e.binding.bucket → s.name = e.name →
    s.binding.element = e.binding.element

theorem mem_seenIn {b : Bucket} {ss : List Sighting} {s : Sighting} :
    s ∈ seenIn b ss ↔ s ∈ ss ∧ s.binding.bucket = b := by
  simp [seenIn]

namespace Consistent

variable {ss : List Sighting} {s : Sighting}

theorem left {es : List Sighting} (h : Consistent (ss ++ es)) : Consistent ss :=
  ⟨fun s hs => h.element s (List.mem_append_left _ hs), fun s hs e he =>
    h.agree s (List.mem_append_left _ hs) e (List.mem_append_left _ he)⟩

end Consistent

section Tables

variable {b : Bucket} {ss : List Sighting} {t : ResourceTable} {s : Sighting}

theorem FirstSeen.entry (h : FirstSeen b ss t) (hs : s ∈ ss) :
    ∃ r ∈ t.entries, r.name = s.name ∧ s.binding.element = .ok r.layout := by
  obtain ⟨r, hr, hn⟩ := h.exists_entry (List.mem_map_of_mem hs)
  exact ⟨r, hr, hn, (h.described r hr).layout s hs hn.symm⟩

theorem FirstSeen.sighting (h : FirstSeen b ss t) {r : Resource} (hr : r ∈ t.entries) :
    ∃ s ∈ ss, s.name = r.name ∧ s.binding.element = .ok r.layout := by
  obtain ⟨s, hs, -⟩ := (h.described r hr).first
  have hmem := List.mem_of_find?_eq_some hs
  have hn : s.name = r.name := by simpa using List.find?_some hs
  exact ⟨s, hmem, hn, (h.described r hr).layout s hmem hn⟩

/-- In a table that ids can number, a sighting is taken that agrees with those before it. -/
theorem FirstSeen.insert_of_agree (h : FirstSeen b ss t) (hb : t.size ≤ UInt32.size)
    {layout : Option BufferLayout} (hl : s.binding.element = .ok layout)
    (hagree : ∀ e ∈ ss, e.name = s.name → e.binding.element = .ok layout) :
    ∃ id t', s.insert t = .ok (id, t') := by
  simp only [Sighting.insert, ResourceTable.insert, hl, bind_ok_iff]
  cases hid : t.idOf? s.binding.name with
  | none => exact ⟨_, _, _, rfl, rfl⟩
  | some id =>
    obtain ⟨r, hr⟩ := h.get?_isSome hid
    have hfind : t.find? s.binding.name = some r := by
      rw [ResourceTable.find?, hid]
      exact hr
    obtain ⟨hmem, hname⟩ := (h.find?_eq hb).1 hfind
    obtain ⟨e, he, hen, hel⟩ := h.sighting hmem
    have hlayout : r.layout = layout :=
      Option.some.inj (congrArg Except.toOption (hel.symm.trans (hagree e he (hen.trans hname))))
    refine ⟨id, t.mark id (.ofStage s.stage), layout, rfl, ?_⟩
    simp only [hfind, hlayout, if_true]
    rfl

end Tables

namespace Registry

section Run

variable {ss : List Sighting} {tables : Bucket → ResourceTable}

theorem run_consistent (h : ss.foldlM record ResourceTable.empty = .ok tables)
    (hn : ∀ b, ((seenIn b ss).map Sighting.name).eraseDups.length < UInt32.size) :
    Consistent ss := by
  have hseen := run_firstSeen h hn
  have hentry : ∀ s ∈ ss, ∃ r ∈ (tables s.binding.bucket).entries, r.name = s.name ∧
      s.binding.element = .ok r.layout := fun s hs => (hseen _).entry (mem_seenIn.2 ⟨hs, rfl⟩)
  refine ⟨fun s hs => ?_, fun s hs e he hb hname => ?_⟩
  · obtain ⟨r, -, -, hr⟩ := hentry s hs
    exact ⟨_, hr⟩
  · obtain ⟨r, hmem, hrn, hr⟩ := hentry s hs
    have hd := (hseen s.binding.bucket).described r hmem
    exact hr.trans (hd.layout e (mem_seenIn.2 ⟨he, hb.symm⟩) (hrn.trans hname).symm).symm

theorem run_of_consistent (h : Consistent ss)
    (hn : ∀ b, ((seenIn b ss).map Sighting.name).eraseDups.length < UInt32.size) :
    ∃ tables, ss.foldlM record ResourceTable.empty = .ok tables := by
  induction ss using List.reverseRecOn with
  | nil => exact ⟨_, rfl⟩
  | append_singleton ss s ih =>
    have hlt b : ((seenIn b ss).map Sighting.name).eraseDups.length < UInt32.size :=
      Nat.lt_of_le_of_lt (names_le b ss [s]) (hn b)
    obtain ⟨mid, hm⟩ := ih h.left hlt
    have hs : s ∈ ss ++ [s] := List.mem_append_right _ (List.mem_singleton_self s)
    obtain ⟨layout, hl⟩ := h.element s hs
    -- the tables so far hold the first sightings, with which the next one agrees
    have hf := run_firstSeen hm hlt s.binding.bucket
    obtain ⟨id, t, hi⟩ := hf.insert_of_agree (hf.size_eq ▸ Nat.le_of_lt (hlt _)) hl
      fun e he hen => by
        obtain ⟨he, hb⟩ := mem_seenIn.1 he
        exact (h.agree e (List.mem_append_left _ he) s hs hb hen).trans hl
    refine ⟨fun k => if k = s.binding.bucket then t else mid k, ?_⟩
    simp only [List.foldlM_append, List.foldlM_cons, List.foldlM_nil, bind_ok_iff, pure_ok_iff]
    refine ⟨mid, hm, _, ?_, rfl⟩
    simp only [record, addBinding, bind_ok_iff, pure_ok_iff]
    exact ⟨(id, t), hi, rfl⟩

/-- Registrations go through exactly when all pairs of bindings agree. -/
theorem run_ok_iff
    (hn : ∀ b, ((seenIn b ss).map Sighting.name).eraseDups.length < UInt32.size) :
    (∃ tables, ss.foldlM record ResourceTable.empty = .ok tables) ↔ Consistent ss :=
  ⟨fun ⟨_, h⟩ => run_consistent h hn, fun h => run_of_consistent h hn⟩

end Run

/-- What a registry asks of a reflection. -/
structure Admits (g : Registry) (x : Reflection) : Prop where
  valid : ∀ s ∈ x.stages, s.Valid
  sized : ∀ b ∈ x.bindings, ∀ l, b.layout = some l → ∀ f : LayoutError, l.element ≠ .error f.toError
  agree : ∀ a ∈ x.bindings, ∀ b ∈ x.bindings, a.bucket = b.bucket → a.name = b.name →
    a.element = b.element
  known : ∀ a ∈ x.bindings, ∀ r ∈ (g.table a.bucket).entries, r.name = a.name →
    a.element = .ok r.layout

theorem element_ok_iff {b : Binding} : (∃ l, b.element = .ok l) ↔
    ∀ l, b.layout = some l → ∀ f : LayoutError, l.element ≠ .error f.toError := by
  cases hb : b.layout with
  | none => simp [Binding.element, hb]
  | some l =>
    simp only [Binding.element, hb, Option.some.injEq, forall_eq', Option.mapM_some]
    cases hl : l.element with
    | ok e => simp
    | error e =>
      obtain ⟨f, rfl⟩ := element_onlyOverflows l e hl
      simp only [Functor.map, Except.map, reduceCtorEq, exists_false, false_iff, not_forall,
        not_not]
      exact ⟨f, rfl⟩

section Registration

variable {g g' : Registry} {x : Reflection}

theorem add_eq (g : Registry) (x : Reflection) : g.add x = (do
    x.validate
    let tables ← x.sightings.foldlM record g.table
    return ⟨tables, g.shaders + 1⟩) := by
  simp only [add, addStages_eq]
  rfl

theorem add_ok_iff : (∃ g', g.add x = .ok g') ↔
    (∀ s ∈ x.stages, s.Valid) ∧ ∃ tables, x.sightings.foldlM record g.table = .ok tables := by
  simp only [add_eq, bind_ok_iff, pure_ok_iff, ← Reflection.validate_ok_iff]
  constructor
  · rintro ⟨_, ⟨⟩, hv, tables, ht, -⟩
    exact ⟨hv, tables, ht⟩
  · rintro ⟨hv, tables, ht⟩
    exact ⟨_, (), hv, tables, ht, rfl⟩

/-- What the bindings of a reflection must agree with is in the tables. -/
theorem admits_iff {ss : List Sighting} (hg : ∀ b, FirstSeen b (seenIn b ss) (g.table b))
    (hss : Consistent ss) :
    g.Admits x ↔ (∀ s ∈ x.stages, s.Valid) ∧ Consistent (ss ++ x.sightings) := by
  constructor
  · intro h
    have hmem : ∀ {s}, s ∈ x.sightings → s.binding ∈ x.bindings := fun hs =>
      Reflection.mem_bindings.2 ⟨_, hs, rfl⟩
    have hknown : ∀ s ∈ ss, ∀ e ∈ x.sightings, s.binding.bucket = e.binding.bucket →
        s.name = e.name → s.binding.element = e.binding.element := by
      intro s hs e he hb hn
      obtain ⟨r, hr, hrn, hrl⟩ := (hg e.binding.bucket).entry (mem_seenIn.2 ⟨hs, hb⟩)
      exact hrl.trans (h.known _ (hmem he) r hr (hrn.trans hn)).symm
    refine ⟨h.valid, fun s hs => ?_, fun s hs e he hb hn => ?_⟩
    · rcases List.mem_append.1 hs with hs | hs
      · exact hss.element s hs
      · exact element_ok_iff.2 (h.sized _ (hmem hs))
    · -- of two sightings each may be known or new; known ones are met through their entry
      rcases List.mem_append.1 hs with hs | hs <;> rcases List.mem_append.1 he with he | he
      · exact hss.agree s hs e he hb hn
      · exact hknown s hs e he hb hn
      · exact (hknown e he s hs hb.symm hn.symm).symm
      · exact h.agree _ (hmem hs) _ (hmem he) hb hn
  · rintro ⟨hv, h⟩
    refine ⟨hv, fun b hb => ?_, fun a ha b hb hab hn => ?_, fun a ha r hr hn => ?_⟩
    · obtain ⟨s, hs, rfl⟩ := Reflection.mem_bindings.1 hb
      exact element_ok_iff.1 (h.element s (List.mem_append_right _ hs))
    · obtain ⟨s, hs, rfl⟩ := Reflection.mem_bindings.1 ha
      obtain ⟨e, he, rfl⟩ := Reflection.mem_bindings.1 hb
      exact h.agree s (List.mem_append_right _ hs) e (List.mem_append_right _ he) hab hn
    · obtain ⟨s, hs, rfl⟩ := Reflection.mem_bindings.1 ha
      obtain ⟨e, he, hen, hel⟩ := (hg s.binding.bucket).sighting hr
      obtain ⟨he, hb⟩ := mem_seenIn.1 he
      exact (h.agree s (List.mem_append_right _ hs) e (List.mem_append_left _ he) hb.symm
        (hen.trans hn).symm).trans hel

end Registration

/-- A registration under way changes tables in place, and what it changed before a fault stays. -/
abbrev Staging := ExceptT Error (StateM (Bucket → ResourceTable))

def stage (s : Sighting) : Staging Unit := do
  let (_, t) ← s.insert ((← get) s.binding.bucket)
  modify fun tables k => if k = s.binding.bucket then t else tables k

/-- Register in place: the tables are worked on aside, and put in place when all bindings are in. -/
def register (x : Reflection) : ExceptT Error (StateM Registry) Unit := do
  x.validate
  let g ← get
  let (result, tables) := (x.sightings.forM stage).run.run g.table
  result
  set (Registry.mk tables (g.shaders + 1))

theorem record_eq (tables : Bucket → ResourceTable) (s : Sighting) : record tables s =
    (s.insert (tables s.binding.bucket)).map
      fun p k => if k = s.binding.bucket then p.2 else tables k := by
  show (s.insert (tables s.binding.bucket) >>= fun p =>
    .ok fun k => if k = s.binding.bucket then p.2 else tables k) = _
  cases s.insert (tables s.binding.bucket) <;> rfl

theorem stage_run (s : Sighting) (tables : Bucket → ResourceTable) :
    (stage s).run.run tables = match record tables s with
      | .ok tables' => (.ok (), tables')
      | .error e => (.error e, tables) := by
  simp only [stage, run_bind, run_get, run_lift, run_modify, record_eq]
  cases s.insert (tables s.binding.bucket) <;> rfl

theorem forM_stage_run (ss : List Sighting) (tables : Bucket → ResourceTable) :
    ∃ half, (ss.forM stage).run.run tables = match ss.foldlM record tables with
      | .ok tables' => (.ok (), tables')
      | .error e => (.error e, half) := by
  induction ss generalizing tables with
  | nil => exact ⟨tables, rfl⟩
  | cons s r ih =>
    simp only [List.forM, run_bind, stage_run, List.foldlM_cons]
    cases record tables s with
    | ok mid => exact ih mid
    | error e => exact ⟨tables, rfl⟩

theorem register_run (g : Registry) (x : Reflection) :
    (register x).run.run g = match g.add x with
      | .ok g' => (.ok (), g')
      | .error e => (.error e, g) := by
  obtain ⟨half, hs⟩ := forM_stage_run x.sightings g.table
  simp only [register, add_eq, run_bind, run_get, run_lift]
  cases x.validate with
  | error e => rfl
  | ok u =>
    simp only [hs]
    cases x.sightings.foldlM record g.table <;> rfl

theorem register_ok_iff {g g' : Registry} {x : Reflection} :
    (register x).run.run g = (.ok (), g') ↔ g.add x = .ok g' := by
  rw [register_run]
  cases g.add x with
  | ok g'' => exact ⟨fun h => congrArg Except.ok (Prod.mk.inj h).2, fun h => by cases h; rfl⟩
  | error e => exact ⟨fun h => (nomatch (Prod.mk.inj h).1), nofun⟩

theorem register_error {g g' : Registry} {x : Reflection} {e : Error}
    (h : (register x).run.run g = (.error e, g')) : g.add x = .error e ∧ g' = g := by
  rw [register_run] at h
  cases ha : g.add x with
  | ok g'' =>
    rw [ha] at h
    exact nomatch (Prod.mk.inj h).1
  | error e' =>
    rw [ha] at h
    obtain ⟨he, hg⟩ := Prod.mk.inj h
    exact ⟨congrArg Except.error (Except.error.inj he), hg.symm⟩

end Registry

/-- A registry that has come about by registrations takes a reflection exactly when it admits it, as
long as ids tell its names apart, and stays as it was, of whatever size, when it does not take it. -/
theorem registers_whole_or_not_at_all {xs : List Reflection} {g : Registry}
    (h : xs.foldlM Registry.add .empty = .ok g) (x : Reflection) :
    ((∀ b, ((sightings b (xs ++ [x])).map Sighting.name).eraseDups.length < UInt32.size) →
      ((∃ g', (Registry.register x).run.run g = (.ok (), g') ∧ g.add x = .ok g') ↔ g.Admits x)) ∧
      ∀ e g', (Registry.register x).run.run g = (.error e, g') → g.add x = .error e ∧ g' = g := by
  refine ⟨fun hn => ?_, fun e g' => Registry.register_error⟩
  obtain ⟨ht, -⟩ := Registry.run_ok h
  simp only [sightings, List.flatMap_append, List.flatMap_singleton] at hn
  have hlt := fun b => Nat.lt_of_le_of_lt (Registry.names_le b _ x.sightings) (hn b)
  have hseen := Registry.run_firstSeen ht hlt
  have hrun : (∃ tables, x.sightings.foldlM Registry.record g.table = .ok tables) ↔
      Consistent (xs.flatMap Reflection.sightings ++ x.sightings) := by
    have hmid : (xs.flatMap Reflection.sightings).foldlM Registry.record ResourceTable.empty =
        .ok g.table := ht
    rw [← Registry.run_ok_iff hn, List.foldlM_append, hmid]
    rfl
  simp only [Registry.register_ok_iff, and_self]
  rw [Registry.add_ok_iff, hrun, Registry.admits_iff hseen (Registry.run_consistent ht hlt)]

/-- A shader that names something new before it contradicts what is known: its lights are as long,
but further apart. -/
def contradiction : Reflection :=
  ⟨.hlsl, [⟨.pixel, "main", [⟨"Fog", none, .texture, 0, 2, none⟩, lightList "LightBlock" 32]⟩]⟩

theorem contradiction_is_refused :
    (∀ b, ((sightings b (twoShaders ++ [contradiction])).map Sighting.name).eraseDups.length <
      UInt32.size) ∧
    ∃ g, twoShaders.foldlM Registry.add .empty = .ok g ∧ ¬g.Admits contradiction ∧
      ∃ e, (Registry.register contradiction).run.run g = (.error e, g) := by
  have hn : ∀ b, ((sightings b (twoShaders ++ [contradiction])).map
      Sighting.name).eraseDups.length < UInt32.size := by
    intro b
    cases b <;> decide
  refine ⟨hn, ?_⟩
  have ha : (twoShaders.foldlM Registry.add .empty).toOption.any
      (fun g => !(g.add contradiction).toOption.isSome) := by decide +kernel
  obtain ⟨g, hg, ha⟩ := exists_of_toOption_any ha
  have hrefused : ∀ g', g.add contradiction ≠ .ok g' := by
    intro g' hg'
    simp [Except.toOption, hg'] at ha
  obtain ⟨hiff, herror⟩ := registers_whole_or_not_at_all hg contradiction
  refine ⟨g, hg, fun h => ?_, ?_⟩
  · obtain ⟨g', -, hg'⟩ := (hiff hn).2 h
    exact hrefused g' hg'
  · rcases hr : (Registry.register contradiction).run.run g with ⟨e | u, g'⟩
    · obtain ⟨-, rfl⟩ := herror e g' hr
      exact ⟨e, rfl⟩
    · exact absurd (Registry.register_ok_iff.1 hr) (hrefused g')

end ShaderBuild
