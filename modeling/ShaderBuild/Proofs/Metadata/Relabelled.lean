import ShaderBuild.Metadata.Files
import ShaderBuild.Proofs.Metadata.Transposed

namespace ShaderBuild

def Resource.relabelled (r : Resource) : Resource := { r with language := r.language.other }

def ResourceTable.relabelled (t : ResourceTable) : ResourceTable :=
  { t with entries := t.entries.map Resource.relabelled }

/-- The same registry with every resource from a shader of the other language. -/
def Registry.relabelled (g : Registry) : Registry := ⟨fun b => (g.table b).relabelled, g.shaders⟩

@[simp]
theorem Resource.relabelled_name (r : Resource) : r.relabelled.name = r.name := rfl

namespace Metadata

open Code

section Tables

theorem fieldsOf_other {language : SourceLanguage} {owner : String} {ms : List Member}
    {size : UInt32} {ds : List StructDecl} (hds : ∀ d ∈ ds, d.Shaped) :
    fieldsOf language.other owner ms size (ds.map StructDecl.transposed) =
      transposedPair <$> fieldsOf language owner ms size ds :=
  bind_eq_map (placeAll_other (p := ⟨[], 0, ds⟩) hds ms) fun p _ => finish_transposed size p

theorem dataStruct_relabelled {r : Resource} {ds : List StructDecl} (hds : ∀ d ∈ ds, d.Shaped) :
    dataStruct r.relabelled (ds.map StructDecl.transposed) =
      Prod.map StructDecl.transposed (List.map StructDecl.transposed) <$> dataStruct r ds :=
  bind_eq_map (fieldsOf_other hds) fun _ _ => rfl

theorem dataStruct_nested_shaped {r : Resource} {ds es : List StructDecl} {d : StructDecl}
    (h : dataStruct r ds = .ok (d, es)) (hds : ∀ d ∈ ds, d.Shaped) : ∀ d ∈ es, d.Shaped := by
  simp only [dataStruct, bind_ok_iff, pure_ok_iff, Prod.exists, Prod.mk.injEq] at h
  obtain ⟨fields, es, hf, rfl, rfl⟩ := h
  exact fieldsOf_nested_shaped hf hds

theorem dataStructs_nested_shaped {rs : List Resource} {ds es out : List StructDecl}
    (h : dataStructs rs ds = .ok (out, es)) (hds : ∀ d ∈ ds, d.Shaped) : ∀ d ∈ es, d.Shaped := by
  induction rs generalizing ds out with
  | nil =>
    cases h
    exact hds
  | cons r rest ih =>
    simp only [dataStructs, bind_ok_iff, pure_ok_iff, Prod.exists, Prod.mk.injEq] at h
    obtain ⟨d, ds', hd, out, es, hr, rfl, rfl⟩ := h
    exact ih hr (dataStruct_nested_shaped hd hds)

theorem dataStructs_relabelled {rs : List Resource} {ds : List StructDecl}
    (hds : ∀ d ∈ ds, d.Shaped) :
    dataStructs (rs.map Resource.relabelled) (ds.map StructDecl.transposed) =
      Prod.map (List.map StructDecl.transposed) (List.map StructDecl.transposed) <$>
        dataStructs rs ds := by
  induction rs generalizing ds with
  | nil => rfl
  | cons r rest ih =>
    simp only [List.map_cons, dataStructs]
    refine bind_eq_map (dataStruct_relabelled hds) fun x hx => ?_
    refine bind_eq_map (ih (dataStruct_nested_shaped hx hds)) fun _ _ => rfl

theorem ownStructs_relabelled {t : ResourceTable} {ds : List StructDecl}
    (hds : ∀ d ∈ ds, d.Shaped) :
    ownStructs t.relabelled (ds.map StructDecl.transposed) =
      Prod.map (List.map StructDecl.transposed) (List.map StructDecl.transposed) <$>
        ownStructs t ds := by
  unfold ownStructs ResourceTable.relabelled
  dsimp only
  split
  · exact dataStructs_relabelled hds
  · rfl

theorem tableStructs_relabelled {ts : List ResourceTable} {ds : List StructDecl}
    (hds : ∀ d ∈ ds, d.Shaped) :
    tableStructs (ts.map ResourceTable.relabelled) (ds.map StructDecl.transposed) =
      Prod.map (List.map (List.map StructDecl.transposed)) (List.map StructDecl.transposed) <$>
        tableStructs ts ds := by
  induction ts generalizing ds with
  | nil => rfl
  | cons t rest ih =>
    simp only [List.map_cons, tableStructs]
    refine bind_eq_map (ownStructs_relabelled hds) fun x hx => ?_
    have hes := dataStructs_nested_shaped (ownStructs_flat hx) hds
    exact bind_eq_map (ih hes) fun _ _ => rfl

theorem nameFault?_relabelled (seen : List Resource) (rs : List (Bool × Resource)) :
    nameFault? (seen.map Resource.relabelled) (rs.map (Prod.map id Resource.relabelled)) =
      nameFault? seen rs := by
  induction rs generalizing seen with
  | nil => rfl
  | cons x rest ih =>
    obtain ⟨structured, r⟩ := x
    have hs : seen.map Resource.relabelled ++ [r.relabelled] =
      (seen ++ [r]).map Resource.relabelled := by simp
    have hfind : (seen.map Resource.relabelled).find? (·.name == r.relabelled.name) =
        (seen.find? (·.name == r.name)).map Resource.relabelled := by
      rw [List.find?_map]
      rfl
    simp only [List.map_cons, Prod.map, id, nameFault?, hfind, hs, ih]
    cases seen.find? (·.name == r.name) <;> rfl

theorem tables_relabelled (g : Registry) :
    g.relabelled.tables = g.tables.map ResourceTable.relabelled := by
  simp [Registry.tables, Registry.relabelled]

theorem checkNames_relabelled (g : Registry) : checkNames g.relabelled = checkNames g := by
  have hrows : (g.relabelled.tables.flatMap fun t => t.entries.map (t.bucket.isStructured, ·)) =
      (g.tables.flatMap fun t => t.entries.map (t.bucket.isStructured, ·)).map
        (Prod.map id Resource.relabelled) := by
    simp only [tables_relabelled, List.flatMap_map, List.map_flatMap, List.map_map,
      ResourceTable.relabelled]
    rfl
  have hn := nameFault?_relabelled []
    (g.tables.flatMap fun t => t.entries.map (t.bucket.isStructured, ·))
  rw [checkNames, hrows]
  rw [List.map_nil] at hn
  rw [hn]
  rfl

end Tables

section Files

theorem kindStruct_transposed (b : Bucket) : (kindStruct b).transposed = kindStruct b := by
  simp [kindStruct, StructDecl.transposed, Field.transposed, Field.plain]

theorem typesFile_transposed (nested : List StructDecl) :
    typesFileOf (nested.map StructDecl.transposed) = (typesFileOf nested).transposed := by
  simp [typesFileOf, File.transposed, Item.transposed, Function.comp_def]

theorem summary_relabelled (r : Resource) : summary r.relabelled = summary r := rfl

theorem wrapper_relabelled (r : Resource) : wrapper r.relabelled = wrapper r := rfl

theorem resourceInstance_relabelled (b : Bucket) (r : Resource) :
    resourceInstance b r.relabelled = resourceInstance b r := rfl

theorem bucketFile_relabelled (t : ResourceTable) (ds : List StructDecl) :
    bucketFile t.relabelled (ds.map StructDecl.transposed) = (bucketFile t ds).transposed := by
  have hentries : tableEntries t.relabelled = tableEntries t := by
    simp [tableEntries, ResourceTable.relabelled, Function.comp_def]
  have hid : idTable t.relabelled = idTable t := by rw [idTable, hentries]; rfl
  have hname : nameTable t.relabelled = nameTable t := by rw [nameTable, hentries]; rfl
  simp only [bucketFile, File.transposed, hid, hname]
  cases hb : t.bucket.isStructured <;>
    simp [ResourceTable.relabelled, hb, Item.transposed, kindStruct_transposed, summary_relabelled,
      wrapper_relabelled, resourceInstance_relabelled, Function.comp_def, List.map_flatMap,
      List.flatMap_map]

theorem umbrella_relabelled (g : Registry) : umbrella g.relabelled = (umbrella g).transposed := by
  have hcount : g.relabelled.resourceCount = g.resourceCount := by
    simp [Registry.resourceCount, tables_relabelled, List.length_flatMap, Function.comp_def,
      ResourceTable.relabelled]
  rw [umbrella, hcount]
  rfl

theorem files_relabelled (g : Registry) :
    files g.relabelled = List.map File.transposed <$> files g := by
  unfold files
  rw [checkNames_relabelled, tables_relabelled]
  refine same_bind_eq_map fun _ _ => ?_
  refine bind_eq_map (@tableStructs_relabelled g.tables [] nofun) fun x _ => ?_
  obtain ⟨structs, nested⟩ := x
  have hfind : (structs.map (List.map StructDecl.transposed)).flatten.find?
        (fun d => (nested.map StructDecl.transposed).any (·.name == d.name)) =
      (structs.flatten.find? fun d => nested.any (·.name == d.name)).map
        StructDecl.transposed := by
    rw [← List.map_flatten, List.find?_map]
    simp only [List.any_map]
    rfl
  simp only [Prod.map, hfind]
  cases structs.flatten.find? fun d => nested.any (·.name == d.name) with
  | some d => rfl
  | none =>
    have hbuckets : List.zipWith bucketFile (g.tables.map ResourceTable.relabelled)
          (structs.map (List.map StructDecl.transposed)) =
        (List.zipWith bucketFile g.tables structs).map File.transposed := by
      simp only [List.zipWith_map, bucketFile_relabelled, List.map_zipWith]
    refine congrArg Except.ok ?_
    rw [typesFile_transposed, hbuckets, umbrella_relabelled]
    simp

end Files

end Metadata

section Registering

theorem ResourceTable.find?_relabelled (t : ResourceTable) (name : String) :
    t.relabelled.find? name = (t.find? name).map Resource.relabelled := by
  have hget (id : UInt32) : t.relabelled.get? id = (t.get? id).map Resource.relabelled :=
    List.getElem?_map ..
  simp only [ResourceTable.find?, Option.map_bind, Function.comp_def, hget]
  rfl

theorem ResourceTable.mark_relabelled (t : ResourceTable) (id : UInt32) (stages : StageMask) :
    t.relabelled.mark id stages = (t.mark id stages).relabelled := by
  have he : (t.entries.map Resource.relabelled).modify id.toNat
        (fun r => { r with stages := r.stages.union stages }) =
      (t.entries.modify id.toNat fun r => { r with stages := r.stages.union stages }).map
        Resource.relabelled := by
    refine List.ext_getElem? fun i => ?_
    simp only [List.getElem?_modify, List.getElem?_map]
    cases t.entries[i]? with
    | none => rfl
    | some r => by_cases h : id.toNat = i <;> simp [h, Resource.relabelled]
  simp only [ResourceTable.mark, ResourceTable.relabelled, he]

theorem ResourceTable.append_relabelled (t : ResourceTable) (b : Binding)
    (layout : Option BufferLayout) (stages : StageMask) (language : SourceLanguage) :
    t.relabelled.append b layout stages language.other =
      Prod.map id ResourceTable.relabelled (t.append b layout stages language) := by
  simp [ResourceTable.append, ResourceTable.relabelled, ResourceTable.size, Resource.relabelled]

theorem ResourceTable.insert_relabelled (t : ResourceTable) (b : Binding) (stages : StageMask)
    (language : SourceLanguage) : t.relabelled.insert b stages language.other =
      Prod.map id ResourceTable.relabelled <$> t.insert b stages language := by
  refine same_bind_eq_map fun layout _ => ?_
  have hid : t.relabelled.idOf? b.name = t.idOf? b.name := rfl
  rw [ResourceTable.find?_relabelled, ResourceTable.append_relabelled, hid]
  cases t.idOf? b.name with
  | none => rfl
  | some n =>
    cases t.find? b.name with
    | none => rfl
    | some r =>
      simp only [Option.map_some, ResourceTable.mark_relabelled]
      show (if r.layout = layout then _ else _) = _ <$> (if r.layout = layout then _ else _)
      split <;> rfl

theorem Registry.addBinding_relabelled (stages : StageMask) (language : SourceLanguage)
    (tables : Bucket → ResourceTable) (b : Binding) :
    addBinding stages language.other (fun k => (tables k).relabelled) b =
      (fun tables k => (tables k).relabelled) <$> addBinding stages language tables b := by
  refine bind_eq_map ((tables b.bucket).insert_relabelled b stages language) fun x _ => ?_
  refine congrArg Except.ok (funext fun k => ?_)
  dsimp only
  split <;> rfl

theorem Registry.add_relabelled (g : Registry) (language : SourceLanguage)
    (stages : List StageReflection) :
    g.relabelled.add ⟨language.other, stages⟩ = relabelled <$> g.add ⟨language, stages⟩ := by
  have hstage (tables : Bucket → ResourceTable) (s : StageReflection) :
      addStage language.other (fun k => (tables k).relabelled) s =
        (fun tables k => (tables k).relabelled) <$> addStage language tables s :=
    foldlM_eq_map (addBinding_relabelled _ language) s.bindings tables
  refine same_bind_eq_map fun _ _ => ?_
  exact bind_eq_map (foldlM_eq_map hstage stages g.table) fun _ _ => rfl

end Registering

namespace Metadata

open Code

/-- A reflection labelled with the other language gives the same files but for the shapes of
matrices, or else the same error. -/
theorem language_turns_matrices_about (language : SourceLanguage) (stages : List StageReflection) :
    filesOfReflection ⟨language.other, stages⟩ =
      List.map File.transposed <$> filesOfReflection ⟨language, stages⟩ := by
  have hempty : Registry.empty.relabelled = .empty := rfl
  refine bind_eq_map ?_ fun g _ => files_relabelled g
  rw [← Registry.add_relabelled, hempty]

def viewStages : List StageReflection :=
  [⟨.vertex, "main", [⟨"View", some "View", .constantBuffer, 0, 0,
    some ⟨"View", 48, [⟨"pose", 0, .matrix .float 3 4⟩]⟩⟩]⟩]

theorem viewStages_turned : ∃ fs, filesOfReflection ⟨.hlsl, viewStages⟩ = .ok fs ∧
    filesOfReflection ⟨.glsl, viewStages⟩ = .ok (fs.map File.transposed) ∧
    struct? fs "View" = some ⟨"View", [⟨"pose", .matrix .float 3 4, [], some "float3x4"⟩]⟩ ∧
    struct? (fs.map File.transposed) "View" =
      some ⟨"View", [⟨"pose", .matrix .float 4 3, [], some "float4x3"⟩]⟩ := by
  obtain ⟨fs, hfs, h⟩ := exists_of_toOption_any (x := filesOfReflection ⟨.hlsl, viewStages⟩)
    (p := fun fs =>
      struct? fs "View" = some ⟨"View", [⟨"pose", .matrix .float 3 4, [], some "float3x4"⟩]⟩ ∧
      struct? (fs.map File.transposed) "View" =
        some ⟨"View", [⟨"pose", .matrix .float 4 3, [], some "float4x3"⟩]⟩) (by decide +kernel)
  have hother : filesOfReflection ⟨.glsl, viewStages⟩ =
      List.map File.transposed <$> filesOfReflection ⟨.hlsl, viewStages⟩ :=
    language_turns_matrices_about .hlsl viewStages
  rw [hfs] at hother
  exact ⟨fs, hfs, hother, of_decide_eq_true h⟩

end Metadata

end ShaderBuild
