import ShaderBuild.Proofs.Metadata.FirstSeen

namespace ShaderBuild

def Reflection.sightings (x : Reflection) : List Sighting :=
  x.stages.flatMap fun s => s.bindings.map (Sighting.mk x.language s.stage)

def seenIn (b : Bucket) (ss : List Sighting) : List Sighting := ss.filter (·.binding.bucket == b)

/-- What is seen in a bucket while shaders are registered. -/
def sightings (b : Bucket) (xs : List Reflection) : List Sighting :=
  seenIn b (xs.flatMap Reflection.sightings)

namespace Registry

def record (tables : Bucket → ResourceTable) (s : Sighting) :
    Except Error (Bucket → ResourceTable) :=
  addBinding (.ofStage s.stage) s.language tables s.binding

theorem record_ok {tables tables' : Bucket → ResourceTable} {s : Sighting}
    (h : record tables s = .ok tables') : ∃ id t, s.insert (tables s.binding.bucket) = .ok (id, t) ∧
      tables' = fun k => if k = s.binding.bucket then t else tables k := by
  simp only [record, addBinding, bind_ok_iff, pure_ok_iff, Prod.exists] at h
  obtain ⟨id, t, hi, rfl⟩ := h
  exact ⟨id, t, hi, rfl⟩

theorem addStages_eq (language : SourceLanguage) (stages : List StageReflection)
    (tables : Bucket → ResourceTable) :
    stages.foldlM (addStage language) tables =
      (stages.flatMap fun s => s.bindings.map (Sighting.mk language s.stage)).foldlM record
        tables := by
  induction stages generalizing tables with
  | nil => rfl
  | cons s r ih =>
    simp only [List.foldlM_cons, List.flatMap_cons, List.foldlM_append, List.foldlM_map, ih]
    rfl

theorem add_ok {g g' : Registry} {x : Reflection} (h : g.add x = .ok g') :
    x.sightings.foldlM record g.table = .ok g'.table ∧ g'.shaders = g.shaders + 1 := by
  simp only [add, bind_ok_iff, pure_ok_iff, addStages_eq] at h
  obtain ⟨_, -, tables, ht, rfl⟩ := h
  exact ⟨ht, rfl⟩

/-- A run over shaders is a run over what they show. -/
theorem run_ok {g g' : Registry} {xs : List Reflection} (h : xs.foldlM add g = .ok g') :
    (xs.flatMap Reflection.sightings).foldlM record g.table = .ok g'.table ∧
      g'.shaders = g.shaders + xs.length := by
  induction xs generalizing g with
  | nil =>
    cases h
    exact ⟨rfl, rfl⟩
  | cons x r ih =>
    simp only [List.foldlM_cons, bind_ok_iff] at h
    obtain ⟨g₁, hx, hr⟩ := h
    obtain ⟨htable, hcount⟩ := add_ok hx
    obtain ⟨htables, hcounts⟩ := ih hr
    refine ⟨?_, by rw [hcounts, hcount, List.length_cons]; omega⟩
    rw [List.flatMap_cons, List.foldlM_append, htable]
    exact htables

section Run

variable {ss : List Sighting} {s : Sighting} {tables tables' : Bucket → ResourceTable}

/-- One step changes the table of one bucket, and each table keeps up with what is seen in its own. -/
theorem record_keeps {P : Bucket → List Sighting → ResourceTable → Prop}
    (hstep : ∀ id t, P s.binding.bucket (seenIn s.binding.bucket ss) (tables s.binding.bucket) →
      s.insert (tables s.binding.bucket) = .ok (id, t) →
        P s.binding.bucket (seenIn s.binding.bucket ss ++ [s]) t)
    (h : ∀ b, P b (seenIn b ss) (tables b)) (hr : record tables s = .ok tables') (b : Bucket) :
    P b (seenIn b (ss ++ [s])) (tables' b) := by
  obtain ⟨id, t, hi, rfl⟩ := record_ok hr
  by_cases hb : b = s.binding.bucket
  · subst hb
    simpa [seenIn, List.filter_append] using hstep id t (h _) hi
  · have hskip : seenIn b (ss ++ [s]) = seenIn b ss := by
      simp [seenIn, List.filter_append, Ne.symm hb]
    simpa [hskip, hb] using h b

theorem run_snoc (h : (ss ++ [s]).foldlM record tables = .ok tables') :
    ∃ mid, ss.foldlM record tables = .ok mid ∧ record mid s = .ok tables' := by
  simpa [List.foldlM_append] using h

theorem run_numbered (h : ss.foldlM record ResourceTable.empty = .ok tables) (b : Bucket) :
    Numbered b (seenIn b ss) (tables b) := by
  induction ss using List.reverseRecOn generalizing tables b with
  | nil =>
    cases h
    exact (FirstSeen.empty b).toNumbered
  | append_singleton ss s ih =>
    obtain ⟨mid, hm, hs⟩ := run_snoc h
    exact record_keeps (fun _ _ hn hi => hn.insert hi) (fun b => ih hm b) hs b

theorem names_le (b : Bucket) (ss es : List Sighting) :
    ((seenIn b ss).map Sighting.name).eraseDups.length ≤
      ((seenIn b (ss ++ es)).map Sighting.name).eraseDups.length := by
  rw [seenIn, seenIn, List.filter_append, List.map_append, List.eraseDups_append]
  simp

theorem run_firstSeen (h : ss.foldlM record ResourceTable.empty = .ok tables)
    (hn : ∀ b, ((seenIn b ss).map Sighting.name).eraseDups.length < UInt32.size) (b : Bucket) :
    FirstSeen b (seenIn b ss) (tables b) := by
  induction ss using List.reverseRecOn generalizing tables b with
  | nil =>
    cases h
    exact .empty b
  | append_singleton ss s ih =>
    obtain ⟨mid, hm, hs⟩ := run_snoc h
    -- the bound holds all along, since names are only added
    have hlt b : ((seenIn b ss).map Sighting.name).eraseDups.length < UInt32.size :=
      Nat.lt_of_le_of_lt (names_le b ss [s]) (hn b)
    refine record_keeps (fun id t hf hi => ?_) (fun b => ih hm hlt b) hs b
    exact hf.insert (hf.size_eq ▸ Nat.le_of_lt (hlt _)) hi

end Run

end Registry

/-- The entries of a table are found by their positions and by their names, and nothing else is. -/
structure Indexed (t : ResourceTable) : Prop where
  id : ∀ i (r : Resource), t.entries[i]? = some r → r.id.toNat = i
  get? : ∀ id r, t.get? id = some r ↔ r ∈ t.entries ∧ r.id = id
  get?_none : ∀ id, t.get? id = none ↔ t.size ≤ id.toNat
  find? : ∀ n r, t.find? n = some r ↔ r ∈ t.entries ∧ r.name = n
  find?_none : ∀ n, t.find? n = none ↔ ∀ r ∈ t.entries, r.name ≠ n

theorem Numbered.indexed {b : Bucket} {ss : List Sighting} {t : ResourceTable}
    (h : Numbered b ss t) (hb : t.size ≤ UInt32.size) : Indexed t := by
  have hid : ∀ i (r : Resource), t.entries[i]? = some r → r.id.toNat = i := fun i r hr =>
    (congrArg _ (h.number i r hr).1).trans (toNat_ofNat hb hr)
  refine ⟨hid, fun id r => ⟨fun hr => ?_, fun ⟨hr, he⟩ => ?_⟩, fun id => List.getElem?_eq_none_iff,
    fun n r => h.find?_eq hb, fun n => h.find?_none⟩
  · exact ⟨List.mem_of_getElem? hr, UInt32.toNat_inj.1 (hid _ r hr)⟩
  · obtain ⟨i, hi⟩ := List.mem_iff_getElem?.1 hr
    rw [ResourceTable.get?, ← he, hid i r hi, hi]

/-- After any run that accepts every shader, each table lists what was seen in its bucket: each name
where it was first seen, numbered in that order, found by number and by name and by no others. -/
theorem registry_lists_first_seen {xs : List Reflection} {g : Registry}
    (h : xs.foldlM Registry.add .empty = .ok g)
    (hn : ∀ b, ((sightings b xs).map Sighting.name).eraseDups.length < UInt32.size) :
    g.shaders = xs.length ∧
      ∀ b, FirstSeen b (sightings b xs) (g.table b) ∧ Indexed (g.table b) := by
  obtain ⟨ht, hc⟩ := Registry.run_ok h
  refine ⟨by simpa [Registry.empty] using hc, fun b => ?_⟩
  have hf := Registry.run_firstSeen ht hn b
  exact ⟨hf, hf.indexed (hf.size_eq ▸ Nat.le_of_lt (hn b))⟩

def lightList (typeName : String) (stride : UInt32) : Binding :=
  ⟨"Lights", some typeName, .storageBuffer, 0, 3, some ⟨typeName, stride,
    [⟨"items", 0, .array (.struct "Light" [⟨"color", 0, .vector .float 3⟩]) none (some stride)⟩]⟩⟩

/-- Two shaders that share a texture, a constant buffer and a runtime array. -/
def twoShaders : List Reflection :=
  let camera : Binding := ⟨"Camera", some "Camera", .constantBuffer, 0, 0,
    some ⟨"Camera", 16, [⟨"eye", 0, .vector .float 4⟩]⟩⟩
  let albedo : Binding := ⟨"Albedo", none, .texture, 0, 1, none⟩
  let noise : Binding := ⟨"Noise", none, .texture, 1, 0, none⟩
  [⟨.hlsl, [⟨.vertex, "main", [camera]⟩,
      ⟨.pixel, "main", [camera, albedo, lightList "StructuredBuffer" 16]⟩]⟩,
    ⟨.glsl, [⟨.compute, "main", [noise, albedo, camera, lightList "LightBlock" 16]⟩]⟩]

theorem twoShaders_first_seen :
    (∀ b, ((sightings b twoShaders).map Sighting.name).eraseDups.length < UInt32.size) ∧
      ∃ g, twoShaders.foldlM Registry.add .empty = .ok g ∧ g.shaders = 2 ∧
        (g.table .texture).entries.map (·.name) = ["Albedo", "Noise"] ∧
        (∃ r, (g.table .constantBuffer).find? "Camera" = some r ∧ r.id = 0 ∧ r.stages = ⟨35⟩) ∧
        ∃ r, (g.table .storageBuffer).find? "Lights" = some r ∧
          r.layout = some ⟨"Light", 16, [⟨"color", 0, .vector .float 3⟩]⟩ := by
  have hn : ∀ b, ((sightings b twoShaders).map Sighting.name).eraseDups.length < UInt32.size := by
    intro b
    cases b <;> decide
  refine ⟨hn, ?_⟩
  have ha : (twoShaders.foldlM Registry.add .empty).toOption.isSome := by decide +kernel
  obtain ⟨g, hg⟩ := exists_of_toOption_isSome ha
  obtain ⟨hc, hall⟩ := registry_lists_first_seen hg hn
  obtain ⟨htex, -⟩ := hall .texture
  refine ⟨g, hg, hc, htex.names.trans (by decide), ?_, ?_⟩
  · obtain ⟨hcb, hx⟩ := hall .constantBuffer
    obtain ⟨r, hr, hname⟩ := hcb.exists_entry (n := "Camera") (by decide)
    obtain ⟨i, hi⟩ := List.mem_iff_getElem?.1 hr
    have hlen : (g.table .constantBuffer).size = 1 := hcb.size_eq.trans (by decide)
    obtain ⟨hlt, -⟩ := List.getElem?_eq_some_iff.1 hi
    obtain rfl : i = 0 := Nat.lt_one_iff.1 (hlen ▸ hlt)
    refine ⟨r, (hx.find? _ _).2 ⟨hr, hname⟩, (hcb.number 0 r hi).1, ?_⟩
    rw [(hcb.described r hr).stages, hname]
    decide
  · obtain ⟨hsb, hx⟩ := hall .storageBuffer
    obtain ⟨r, hr, hname⟩ := hsb.exists_entry (n := "Lights") (by decide)
    refine ⟨r, (hx.find? _ _).2 ⟨hr, hname⟩, ?_⟩
    have hlayout := (hsb.described r hr).layout
      ⟨.hlsl, .pixel, lightList "StructuredBuffer" 16⟩ List.mem_cons_self hname.symm
    exact (Except.ok.inj hlayout).symm

end ShaderBuild
