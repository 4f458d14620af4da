import ShaderBuild.Proofs.Code.Lookup
import ShaderBuild.Proofs.Metadata.Generated
import ShaderBuild.Proofs.Metadata.RegistryRun

namespace ShaderBuild.Metadata

open Code

theorem instanceName_inj {b : Bucket} {m n : String} (h : instanceName b m = instanceName b n) :
    m = n := by
  simpa [instanceName] using h

theorem instanceName_ne_invalid (b : Bucket) (n : String) : instanceName b n ≠ invalidName b := by
  intro h
  have hl := congrArg String.toList h
  simp [instanceName, invalidName] at hl

section BucketFile

variable (t : ResourceTable) (ds : List StructDecl)

theorem bucketFile_flat : flattenItems (bucketFile t ds).items = (bucketFile t ds).items := by
  refine flattenItems_of_flat fun i hi => ?_
  cases i with
  | module n is => cases hb : t.bucket.isStructured <;> simp [bucketFile, hb] at hi
  | _ => rfl

theorem bucketFile_enum? : (bucketFile t ds).enum? (enumName t.bucket) =
    some ⟨enumName t.bucket, t.entries.map (·.name)⟩ := by
  rw [File.enum?, bucketFile_flat]
  simp [bucketFile, Item.enum?]

theorem bucketFile_tables :
    (bucketFile t ds).items.filterMap Item.table? = [idTable t, nameTable t] := by
  cases h : t.bucket.isStructured <;>
    simp [bucketFile, h, List.filterMap_cons, List.filterMap_append, List.filterMap_flatMap,
      List.filterMap_map, Function.comp_def, Item.table?]

theorem bucketFile_idTable :
    (bucketFile t ds).table? (idTableName t.bucket) = some (idTable t) := by
  rw [File.table?, bucketFile_flat, bucketFile_tables]
  simp [idTable]

theorem bucketFile_nameTable :
    (bucketFile t ds).table? (nameTableName t.bucket) = some (nameTable t) := by
  have hne : (idTable t).name ≠ nameTableName t.bucket := by
    simp only [idTable, idTableName, nameTableName]
    cases t.bucket <;> decide
  rw [File.table?, bucketFile_flat, bucketFile_tables]
  simp [hne, nameTable]

theorem bucketFile_instances : (bucketFile t ds).items.filterMap Item.instance? =
    t.entries.map (resourceInstance t.bucket) ++ [invalidInstance t.bucket] := by
  cases h : t.bucket.isStructured <;>
    simp [bucketFile, h, List.filterMap_cons, List.filterMap_append, List.filterMap_flatMap,
      List.filterMap_map, Function.comp_def, Item.instance?, ← List.map_eq_flatMap]

theorem bucketFile_instance? (hn : (t.entries.map (·.name)).Nodup) {r : Resource}
    (hr : r ∈ t.entries) : (bucketFile t ds).instance? (instanceName t.bucket r.name) =
      some (resourceInstance t.bucket r) := by
  rw [File.instance?, bucketFile_flat, bucketFile_instances]
  refine find?_of_unique (List.mem_append_left _ (List.mem_map_of_mem hr))
    (by simp [resourceInstance]) fun d hd he => ?_
  rcases List.mem_append.1 hd with hd | hd
  · obtain ⟨e, hmem, rfl⟩ := List.mem_map.1 hd
    rw [List.inj_on_of_nodup_map hn hmem hr (instanceName_inj (eq_of_beq he))]
  · obtain rfl := List.mem_singleton.1 hd
    exact absurd (eq_of_beq he).symm (instanceName_ne_invalid t.bucket r.name)

theorem bucketFile_invalid :
    (bucketFile t ds).instance? (invalidName t.bucket) = some (invalidInstance t.bucket) := by
  rw [File.instance?, bucketFile_flat, bucketFile_instances]
  refine find?_of_unique (by simp) (by simp [invalidInstance]) fun d hd he => ?_
  rcases List.mem_append.1 hd with hd | hd
  · obtain ⟨e, -, rfl⟩ := List.mem_map.1 hd
    exact absurd (eq_of_beq he) (instanceName_ne_invalid t.bucket e.name)
  · exact List.mem_singleton.1 hd

end BucketFile

theorem kindName_inj {a b : Bucket} (h : kindName a = kindName b) : a = b := by
  have hall : ∀ a ∈ Bucket.all, ∀ b ∈ Bucket.all, kindName a = kindName b → a = b := by decide
  exact hall a a.mem_all b b.mem_all h

theorem find?_zipWith {table : Bucket → ResourceTable} (hbucket : ∀ b, (table b).bucket = b)
    {b : Bucket} {bs : List Bucket} (hb : b ∈ bs) {outs : List (List StructDecl)}
    (hl : bs.length = outs.length) :
    ∃ ds, (List.zipWith bucketFile (bs.map table) outs).find? (·.name == kindName b) =
      some (bucketFile (table b) ds) := by
  induction bs generalizing outs with
  | nil => simp at hb
  | cons a rest ih =>
    cases outs with
    | nil => simp at hl
    | cons ds outs =>
      have hname : (bucketFile (table a) ds).name = kindName a := congrArg kindName (hbucket a)
      by_cases hab : a = b
      · subst hab
        exact ⟨ds, List.find?_cons_of_pos (by simpa using hname)⟩
      · have hne : kindName a ≠ kindName b := fun h => hab (kindName_inj h)
        obtain ⟨es, hes⟩ := ih (by simpa [Ne.symm hab] using hb) (by simpa using hl)
        exact ⟨es, by simpa [hname, hne] using hes⟩

theorem Generated.bucket_file {g : Registry} {nested : List StructDecl}
    {outs : List (List StructDecl)} {fs : List File} (h : Generated g nested outs fs)
    (hbucket : ∀ b, (g.table b).bucket = b) (b : Bucket) :
    ∃ ds, fs.find? (·.name == kindName b) = some (bucketFile (g.table b) ds) := by
  have hl := (tableStructs_ok .nil h.structs).2.2.length_eq
  obtain ⟨ds, hds⟩ := find?_zipWith hbucket b.mem_all (by simpa [Registry.tables] using hl)
  have hne : (typesFileOf nested).name ≠ kindName b := by
    simp only [typesFileOf]
    cases b <;> decide
  refine ⟨ds, ?_⟩
  rw [h.files, List.cons_append, List.find?_cons_of_neg (by simpa using hne), List.find?_append,
    Registry.tables, hds, Option.some_or]

/-- The instance for a miss: no id, and no size where there are sizes. -/
structure IsMiss (b : Bucket) (f : File) (d : InstanceDecl) : Prop where
  id : d.number? f "id" = some 0xFFFFFFFF
  sizes : b.isStructured → d.number? f "size" = some 0 ∧ d.number? f "stride" = some 0

/-- A file answers for a table: its enum numbers the names, looking up an id leads to the instance
with that id, and looking up a name to the instance of its id. -/
structure Answers (b : Bucket) (t : ResourceTable) (f : File) (e : EnumDecl)
    (ids names : TableDecl) : Prop where
  enum : f.enum? (enumName b) = some e
  cardinality : e.cardinality = 1 + t.size
  value : ∀ r ∈ t.entries, e.valueOf? r.name = some r.id
  idTable : f.table? (idTableName b) = some ids ∧ ids.kind = .byId
  nameTable : f.table? (nameTableName b) = some names ∧ names.kind = .byName
  byId : ∀ k : UInt32, ∃ d, f.instance? (ids.instanceAt k) = some d ∧
    (k.toNat < t.size → d.number? f "id" = some k) ∧ (t.size ≤ k.toNat → IsMiss b f d)
  byName : t.size ≤ UInt32.size → ∀ n r, t.find? n = some r →
    names.instanceNamed n = ids.instanceAt r.id
  noName : ∀ n, t.find? n = none → ∃ d, f.instance? (names.instanceNamed n) = some d ∧ IsMiss b f d

theorem invalidInstance_isMiss (b : Bucket) (f : File) : IsMiss b f (invalidInstance b) := by
  refine ⟨rfl, fun hb => ?_⟩
  simp only [InstanceDecl.number?, invalidInstance, hb, if_true]
  exact ⟨rfl, rfl⟩

theorem idTable_instanceAt (t : ResourceTable) (k : UInt32) : (idTable t).instanceAt k =
    (t.entries[k.toNat]?.map fun r => instanceName t.bucket r.name).getD (invalidName t.bucket) := by
  simp [TableDecl.instanceAt, idTable, tableEntries, Function.comp_def]

theorem nameTable_instanceNamed (t : ResourceTable) (n : String) : (nameTable t).instanceNamed n =
    ((t.entries.find? (·.name == n)).map fun r => instanceName t.bucket r.name).getD
      (invalidName t.bucket) := by
  rw [TableDecl.instanceNamed, nameTable, tableEntries, lookup_map (fun r => Resource.name r)]

theorem resourceInstance_id (b : Bucket) (r : Resource) (f : File) :
    (resourceInstance b r).number? f "id" = (f.enum? (enumName b)).bind (·.valueOf? r.name) := by
  have hid : (resourceInstance b r).values.lookup "id" = some (.enumIndex (enumName b) r.name) := rfl
  rw [InstanceDecl.number?, hid, Option.bind_some, Value.number?]

section Numbered

variable {b : Bucket} {ss : List Sighting} {t : ResourceTable} (h : Numbered b ss t)

include h

/-- The variant of an entry has the position of the entry as its value. -/
theorem valueOf?_entry {i : Nat} {r : Resource} (hr : t.entries[i]? = some r)
    (hres : isReserved r.name = false) :
    (EnumDecl.mk (enumName t.bucket) (t.entries.map (·.name))).valueOf? r.name =
      some (.ofNat i) := by
  have hcount : r.name ≠ countVariant := by
    simp only [isReserved, Bool.or_eq_false_iff, beq_eq_false_iff_ne] at hres
    exact hres.1
  rw [EnumDecl.valueOf?, if_neg hcount, (findIdx?_of_nodup h.nodup (i := i)).2 (by simp [hr])]
  rfl

theorem bucketFile_byId (hres : ∀ r ∈ t.entries, isReserved r.name = false)
    (ds : List StructDecl) (k : UInt32) :
    ∃ d, (bucketFile t ds).instance? ((idTable t).instanceAt k) = some d ∧
      (k.toNat < t.size → d.number? (bucketFile t ds) "id" = some k) ∧
      (t.size ≤ k.toNat → IsMiss t.bucket (bucketFile t ds) d) := by
  rw [idTable_instanceAt]
  cases hk : t.entries[k.toNat]? with
  | some r =>
    obtain ⟨hlt, -⟩ := List.getElem?_eq_some_iff.1 hk
    have hmem := List.mem_of_getElem? hk
    refine ⟨_, bucketFile_instance? t ds h.nodup hmem, fun _ => ?_, fun hle =>
      absurd hlt (Nat.not_lt.2 hle)⟩
    rw [resourceInstance_id, bucketFile_enum?, Option.bind_some, valueOf?_entry h hk (hres r hmem),
      UInt32.ofNat_toNat]
  | none =>
    have hle := List.getElem?_eq_none_iff.1 hk
    exact ⟨_, bucketFile_invalid t ds, fun hlt => absurd hlt (Nat.not_lt.2 hle), fun _ =>
      invalidInstance_isMiss ..⟩

/-- In a table that ids can number, a name and its id lead to the same instance. -/
theorem instanceNamed_eq_instanceAt (hb : t.size ≤ UInt32.size) {n : String} {r : Resource}
    (hr : t.find? n = some r) : (nameTable t).instanceNamed n = (idTable t).instanceAt r.id := by
  obtain ⟨hmem, hname⟩ := (h.find?_eq hb).1 hr
  have hfind : t.entries.find? (·.name == n) = some r := by
    refine find?_of_unique hmem (by simp [hname]) fun e he hn => ?_
    exact List.inj_on_of_nodup_map h.nodup he hmem ((eq_of_beq hn).trans hname.symm)
  have hget : t.entries[r.id.toNat]? = some r := ((h.indexed hb).get? _ _).2 ⟨hmem, rfl⟩
  rw [nameTable_instanceNamed, idTable_instanceAt, hfind, hget]

theorem instanceNamed_of_find?_none {n : String} (hn : t.find? n = none) :
    (nameTable t).instanceNamed n = invalidName t.bucket := by
  have hfind : t.entries.find? (·.name == n) = none :=
    List.find?_eq_none.2 fun r hr he => h.find?_none.1 hn r hr (eq_of_beq he)
  rw [nameTable_instanceNamed, hfind]
  rfl

theorem bucketFile_answers (hres : ∀ r ∈ t.entries, isReserved r.name = false)
    (ds : List StructDecl) : Answers b t (bucketFile t ds)
      ⟨enumName b, t.entries.map (·.name)⟩ (idTable t) (nameTable t) := by
  obtain rfl := h.bucket
  refine ⟨bucketFile_enum? t ds, ?_, fun r hr => ?_, ⟨bucketFile_idTable t ds, rfl⟩,
    ⟨bucketFile_nameTable t ds, rfl⟩, bucketFile_byId h hres ds, fun hb n r hr =>
      instanceNamed_eq_instanceAt h hb hr, fun n hn => ?_⟩
  · simp [EnumDecl.cardinality, ResourceTable.size, Nat.add_comm]
  · obtain ⟨i, hi⟩ := List.mem_iff_getElem?.1 hr
    rw [valueOf?_entry h hi (hres r hr), (h.number i r hi).1]
  · rw [instanceNamed_of_find?_none h hn]
    exact ⟨_, bucketFile_invalid t ds, invalidInstance_isMiss ..⟩

end Numbered

/-- After any run that accepts every shader, the generated file of each bucket answers for its
table. -/
theorem generated_lookups_answer {xs : List Reflection} {g : Registry} {fs : List File}
    (h : xs.foldlM Registry.add .empty = .ok g) (hf : files g = .ok fs) (b : Bucket) :
    ∃ f e ids names, fs.find? (·.name == kindName b) = some f ∧
      Answers b (g.table b) f e ids names := by
  obtain ⟨ht, -⟩ := Registry.run_ok h
  have hnum := Registry.run_numbered ht
  obtain ⟨nested, outs, hg⟩ := files_ok hf
  obtain ⟨ds, hds⟩ := hg.bucket_file (fun b => (hnum b).bucket) b
  have hres := (checkNames_ok hg.names).1 (g.table b) (List.mem_map_of_mem b.mem_all)
  exact ⟨_, _, _, _, hds, bucketFile_answers (hnum b) hres ds⟩

/-- The second texture has number 1 wherever it is looked up, and a third one is a miss. -/
theorem twoShaders_answer : ∃ g fs, twoShaders.foldlM Registry.add .empty = .ok g ∧
    files g = .ok fs ∧ ∃ f e ids names, fs.find? (·.name == "TextureMetadata") = some f ∧
      Answers .texture (g.table .texture) f e ids names ∧
      e.cardinality = 3 ∧ e.valueOf? "Noise" = some 1 ∧
      names.instanceNamed "Noise" = ids.instanceAt 1 ∧
      (∃ d, f.instance? (ids.instanceAt 1) = some d ∧ d.number? f "id" = some 1) ∧
      (∃ d, f.instance? (ids.instanceAt 2) = some d ∧ IsMiss .texture f d) ∧
      ∃ d, f.instance? (names.instanceNamed "Fog") = some d ∧ IsMiss .texture f d := by
  obtain ⟨g, hg, hg'⟩ := exists_of_toOption_any (p := fun g => (files g).toOption.isSome ∧
    (g.table .texture).size = 2 ∧ ((g.table .texture).find? "Noise").map (·.id) = some 1 ∧
    (g.table .texture).find? "Fog" = none) (x := twoShaders.foldlM Registry.add .empty)
    (by decide +kernel)
  obtain ⟨hok, hsize, hnoise, hfog⟩ := of_decide_eq_true hg'
  obtain ⟨fs, hf⟩ := exists_of_toOption_isSome hok
  obtain ⟨f, e, ids, names, hfile, h⟩ :=
    generated_lookups_answer hg hf .texture
  obtain ⟨r, hr, hid⟩ := Option.map_eq_some_iff.1 hnoise
  have hfits : (g.table .texture).size ≤ UInt32.size := by rw [hsize]; decide
  have hx := (Registry.run_numbered (Registry.run_ok hg).1 .texture).indexed hfits
  obtain ⟨hmem, hname⟩ := (hx.find? _ _).1 hr
  have hvalue := h.value r hmem
  have hbyName := h.byName hfits _ r hr
  rw [hname] at hvalue
  rw [hid] at hvalue hbyName
  obtain ⟨second, hsecond, hnumber, -⟩ := h.byId 1
  obtain ⟨third, hthird, -, hmiss⟩ := h.byId 2
  exact ⟨g, fs, hg, hf, f, e, ids, names, hfile, h, by rw [h.cardinality, hsize],
    hvalue, hbyName, ⟨second, hsecond, hnumber (by rw [hsize]; decide)⟩,
    ⟨third, hthird, hmiss (Nat.le_of_eq hsize)⟩, h.noName _ hfog⟩

end ShaderBuild.Metadata
