import ShaderBuild.Proofs.Builtin.Embedded
import ShaderBuild.Proofs.Code.HeaderSource

namespace ShaderBuild

namespace Code.Cpp

open Declaration

def readAll? [Standard] (out : List EmittedFile) : Option (List Declaration) :=
  (out.mapM fun e => read? e.contents).map List.flatten

/-- What a text declares or defines for other files. -/
def Declaration.introduced? : Declaration → Option Entity
  | declares e | defines _ e => some e
  | _ => none

/-- The enumerators in a namespace: those of its enums, which open no scope of their own. -/
def enumeratorsIn (path : List String) (ds : List Declaration) : List String :=
  (ds.filterMap enumeration?).flatMap fun (p, _, es) => if p = path then es else []

/-- The name of an enum denotes the type, since no enumerator beside it has the same name. -/
def DenotesType (ds : List Declaration) (path : List String) (name : String) : Prop :=
  (∃ es, (path, name, es) ∈ ds.filterMap enumeration?) ∧ name ∉ enumeratorsIn path ds

theorem readAll?_append [Standard] {xs ys : List EmittedFile} {ds es : List Declaration}
    (hx : readAll? xs = some ds) (hy : readAll? ys = some es) :
    readAll? (xs ++ ys) = some (ds ++ es) := by
  obtain ⟨dss, hdss, rfl⟩ := Option.map_eq_some_iff.1 hx
  obtain ⟨ess, hess, rfl⟩ := Option.map_eq_some_iff.1 hy
  rw [readAll?, List.mapM_append, hdss, hess]
  simp

theorem mem_introduced {ds : List Declaration} {e : Entity} : e ∈ ds.filterMap introduced? ↔
    e ∈ ds.filterMap declared? ∨ ∃ b, (b, e) ∈ ds.filterMap defined? := by
  simp only [List.mem_filterMap]
  constructor
  · rintro ⟨d, hd, he⟩
    cases d with
    | declares f => exact .inl ⟨_, hd, he⟩
    | defines b f => exact .inr ⟨b, _, hd, by rw [← Option.some.inj he]; rfl⟩
    | enumeration | struct | table => cases he
  · rintro (⟨d, hd, he⟩ | ⟨b, d, hd, he⟩)
    · cases d with
      | declares f => exact ⟨_, hd, he⟩
      | enumeration | struct | table | defines => cases he
    · cases d with
      | defines b f => exact ⟨_, hd, congrArg _ (congrArg Prod.snd (Option.some.inj he))⟩
      | enumeration | struct | table | declares => cases he

theorem readAll?_emit [Standard] {f : File} {out : List EmittedFile}
    (hn : ∀ n ∈ f.names, Text.isIdentifier n) (hc : ∀ t ∈ f.comments, OneLine t)
    (hout : emit f = .ok out) : ∃ ds, readAll? out = some ds ∧
      ds.filterMap enumeration? = f.enumerations ∧
      ∀ e, e ∈ ds.filterMap introduced? ↔ e ∈ f.entities := by
  obtain ⟨hs, ss, hagree, hread⟩ := reads_emit hn hc hout
  refine ⟨hs ++ ss, ?_, ?_, fun e => ?_⟩
  · split at hread
    · obtain ⟨header, rfl, -, hheader, rfl⟩ := hread
      simp [readAll?, hheader]
    · obtain ⟨header, source, rfl, -, -, hheader, hsource⟩ := hread
      simp [readAll?, hheader, hsource]
  · rw [List.filterMap_append, hagree.enums, hagree.untyped, List.append_nil]
  · rw [mem_introduced, List.filterMap_append, List.filterMap_append, hagree.declared,
      hagree.undeclared, hagree.inHeader, hagree.inSource]
    cases f.headerOnly <;> simp

/-- All that is read of several files. -/
theorem readAll?_emitAll [Standard] {fs : List File} {out : List EmittedFile}
    (hn : ∀ f ∈ fs, ∀ n ∈ f.names, Text.isIdentifier n)
    (hc : ∀ f ∈ fs, ∀ t ∈ f.comments, OneLine t) (hout : OutputLanguage.cpp.emitAll fs = .ok out) :
    ∃ ds, readAll? out = some ds ∧ ds.filterMap enumeration? = fs.flatMap (·.enumerations) ∧
      ∀ e, e ∈ ds.filterMap introduced? ↔ ∃ f ∈ fs, e ∈ f.entities := by
  obtain ⟨outs, houts, h⟩ := (bind_ok_iff ..).1 hout
  obtain rfl := (pure_ok_iff ..).1 h
  rw [mapM_ok_iff] at houts
  clear hout h
  induction houts with
  | nil => exact ⟨[], rfl, rfl, by simp⟩
  | @cons f own fs outs hf _ ih =>
    obtain ⟨hnf, hnfs⟩ := List.forall_mem_cons.1 hn
    obtain ⟨hcf, hcfs⟩ := List.forall_mem_cons.1 hc
    obtain ⟨ds, hds, henums, hentities⟩ := readAll?_emit hnf hcf hf
    obtain ⟨es, hes, henums', hentities'⟩ := ih hnfs hcfs
    refine ⟨ds ++ es, readAll?_append hds hes, ?_, fun e => ?_⟩
    · rw [List.filterMap_append, henums, henums', List.flatMap_cons]
    · rw [List.filterMap_append, List.mem_append, hentities, hentities']
      simp

end Code.Cpp

namespace Builtin

open Code Code.Cpp

section Items

/-- Names are identifiers, there are no comments and no enums. -/
structure IsPlain (path : List String) (i : Item) : Prop where
  names : ∀ n ∈ i.names, Text.isIdentifier n
  comments : i.comments = []
  enums : i.enumerations path = []

/-- A function takes a key of the type behind the shader enum. -/
def Keyed (e : Entity) : Prop :=
  ∀ r ps, e.shape = .function r ps →
    ∃ more, ps = enumTypeTokens Names.shaderEnum ++ Token.of "key" :: more

variable {v : Variant} {i : Item} {path : List String}

theorem isIdentifier_behind {b n : String} (hb : Text.isIdentifier b) (hn : Text.isIdentifier n) :
    Text.isIdentifier (b ++ n) := Text.isIdentifier_append hb (Text.wordy_of_isIdentifier hn)

theorem record_plain {name type entryPoint binaryName stage : String} {bytecode size : Code.Value}
    (hn : Text.isIdentifier name) (hs : Text.isIdentifier stage)
    (hb : ∀ n ∈ bytecode.names ++ size.names, Text.isIdentifier n) :
    IsPlain path (.instance_ (recordOf name type entryPoint binaryName stage bytecode size)) where
  names := by
    have hvalues := List.forall_mem_append.1 hb
    have hlist : (Item.instance_ (recordOf name type entryPoint binaryName stage bytecode size)).names =
        [name, Names.record, "name", "entryPoint", "uniqueBinaryName", "shaderStage",
          Names.stageEnum, stage] ++ "bytecode" :: bytecode.names ++ "bytecodeSize" :: size.names := by
      simp [Item.names, recordOf, Value.names]
    rw [hlist]
    simp only [List.forall_mem_append, List.forall_mem_cons]
    exact ⟨⟨⟨hn, by decide, by decide, by decide, by decide, by decide, by decide, hs, by simp⟩,
      by decide, hvalues.1⟩, by decide, hvalues.2⟩
  comments := rfl
  enums := rfl

theorem variantItems_plain (hv : Text.isIdentifier v.name) (h : i ∈ variantItems v) :
    IsPlain path i ∧ ∀ e ∈ i.entities path, Keyed e := by
  have hblob : Text.isIdentifier (Names.blob v.name) := isIdentifier_behind (by decide) hv
  have hrecord : Text.isIdentifier (Names.instance_ v.name) :=
    isIdentifier_behind (b := Names.record ++ "_") (by decide) hv
  have hstage : Text.isIdentifier v.stage.name := by cases v.stage <;> decide
  have hconstant (d : InstanceDecl) : ∀ e ∈ (Item.instance_ d).entities path, Keyed e := by
    intro e he r ps hs
    obtain rfl := List.mem_singleton.1 he
    cases hs
  unfold variantItems at h
  dsimp only at h
  split at h
  · rcases List.mem_pair.1 h with rfl | rfl
    · refine ⟨⟨by simpa [Item.names] using hblob, rfl, rfl⟩, fun e he r ps hs => ?_⟩
      obtain rfl := List.mem_singleton.1 he
      cases hs
    · exact ⟨record_plain hrecord hstage (by simpa [Value.names] using hblob), hconstant _⟩
  · obtain rfl := List.mem_singleton.1 h
    exact ⟨record_plain hrecord hstage (by simp [Value.names]), hconstant _⟩

theorem table_plain {names : List String} (hn : ∀ n ∈ names, Text.isIdentifier n) :
    IsPlain path (.table (shaderTable names)) ∧
      ∀ e ∈ (Item.table (shaderTable names)).entities path, Keyed e := by
  refine ⟨⟨?_, rfl, rfl⟩, fun e he r ps hs => ?_⟩
  · have hlist : (Item.table (shaderTable names)).names =
        [Names.table, Names.record, Names.lookup, Names.missing, Names.shaderEnum] ++
          (names.map fun n => (n, Names.instance_ n)).map (·.2) := rfl
    rw [hlist]
    simp only [List.forall_mem_append, List.map_map, List.forall_mem_map]
    exact ⟨by decide, fun n h =>
      isIdentifier_behind (b := Names.record ++ "_") (by decide) (hn n h)⟩
  · obtain rfl := List.mem_singleton.1 he
    cases hs
    exact ⟨[], rfl⟩

theorem module_plain {n : String} {is : List Item} (hn : Text.isIdentifier n)
    (h : ∀ i ∈ is, IsPlain (path ++ [n]) i ∧ ∀ e ∈ i.entities (path ++ [n]), Keyed e) :
    IsPlain path (.module n is) ∧ ∀ e ∈ (Item.module n is).entities path, Keyed e := by
  refine ⟨⟨?_, ?_, ?_⟩, ?_⟩
  · show ∀ m ∈ n :: itemsNames is, Text.isIdentifier m
    rw [itemsNames_eq, List.forall_mem_cons, List.forall_mem_flatMap]
    exact ⟨hn, fun i hi => (h i hi).1.names⟩
  · show itemsComments is = []
    rw [itemsComments_eq, List.flatMap_eq_nil_iff]
    exact fun i hi => (h i hi).1.comments
  · show itemsEnumerations (path ++ [n]) is = []
    rw [itemsEnumerations_eq, List.flatMap_eq_nil_iff]
    exact fun i hi => (h i hi).1.enums
  · show ∀ e ∈ itemsEntities (path ++ [n]) is, Keyed e
    rw [itemsEntities_eq, List.forall_mem_flatMap]
    exact fun i hi => (h i hi).2

end Items

section Files

/-- All names in a file are identifiers, its functions take keys of the shader enum, and it has no
comments. -/
structure Fits (f : File) (enums : List (List String × String × List String)) : Prop where
  names : ∀ n ∈ f.names, Text.isIdentifier n
  comments : f.comments = []
  enums : f.enumerations = enums
  keyed : ∀ e ∈ f.entities, Keyed e

variable {vs : List Variant} {names : List String} {apis : List Api} {a : Api} {f : File}

theorem api_names (a : Api) : Text.isIdentifier a.name ∧ Text.isIdentifier (Names.apiFile a) := by
  cases a <;> decide

def lookupEntity (a : Api) : Entity :=
  ⟨[a.name], Names.lookup,
    .function Names.record (enumTypeTokens Names.shaderEnum ++ [Token.of "key"])⟩

def dispatcherEntity : Entity :=
  ⟨[], Names.lookup, .function Names.record (enumTypeTokens Names.shaderEnum ++
    [Token.of "key", .mark ','] ++ enumTypeTokens Names.apiEnum ++ [Token.of "selector"])⟩

theorem typesFile_fits (hn : ∀ n ∈ names, Text.isIdentifier n) : Fits (typesFile names)
    [([Names.shaderEnum], "Type", names ++ [countVariant]),
      ([Names.stageEnum], "Type", Stage.all.map (·.name) ++ [countVariant])] where
  names := by
    have hlist : (typesFile names).names = [Names.typesFile, "cstdint", Names.shaderEnum] ++
        (names ++ itemsNames (typesFile []).items.tail) := rfl
    rw [hlist]
    simp only [List.forall_mem_append]
    exact ⟨by decide, hn, by decide⟩
  comments := rfl
  enums := rfl
  keyed := by
    intro e he r ps hs
    obtain rfl := List.mem_singleton.1 he
    cases hs

theorem dispatcherFile_fits : Fits (dispatcherFile apis)
      [([Names.apiEnum], "Type", Api.all.map (·.name) ++ [countVariant])] ∧
    (dispatcherFile apis).entities = [dispatcherEntity] := by
  refine ⟨⟨?_, rfl, rfl, ?_⟩, rfl⟩
  · have hlist : (dispatcherFile apis).names = [Names.dispatcherFile, "cstdint", Names.typesFile] ++
        (apis.map fun a => Dependency.sibling (Names.apiFile a)).map (·.name) ++
          (Names.apiEnum :: Api.all.map (·.name) ++ ([Names.lookup, Names.record, Names.shaderEnum,
            Names.apiEnum, Names.missing] ++
              (apis.map fun a => (a.name, a.name)).flatMap (fun r => [r.1, r.2]) ++ [])) := rfl
    rw [hlist]
    simp only [List.forall_mem_append, List.map_map, List.forall_mem_map, List.flatMap_map,
      List.forall_mem_flatMap]
    exact ⟨⟨by decide, fun a _ => (api_names a).2⟩, by decide, ⟨by decide, fun a _ => by
      simpa using (api_names a).1⟩, by simp⟩
  · intro e he r ps hs
    obtain rfl := List.mem_singleton.1 he
    cases hs
    exact ⟨_, rfl⟩

theorem apiFile_fits (hv : ∀ v ∈ vs, Text.isIdentifier v.name)
    (hn : ∀ n ∈ names, Text.isIdentifier n) (h : apiFile vs names a = .ok f) :
    Fits f [] ∧ lookupEntity a ∈ f.entities := by
  obtain ⟨is, his, rfl⟩ := apiFile_ok h
  have hvariants : ∀ i ∈ is, IsPlain ([] ++ [a.name]) i ∧
      ∀ e ∈ i.entities ([] ++ [a.name]), Keyed e := by
    intro i hi
    obtain ⟨v, hmem, hi⟩ := his i hi
    exact variantItems_plain (hv v hmem) hi
  let m := Item.module a.name (is ++ [.table (shaderTable names)])
  obtain ⟨hplain, hkeyed⟩ : IsPlain [] m ∧ ∀ e ∈ m.entities [], Keyed e :=
    module_plain (api_names a).1
      (List.forall_mem_append.2 ⟨hvariants, List.forall_mem_singleton.2 (table_plain hn)⟩)
  refine ⟨⟨?_, ?_, ?_, ?_⟩, ?_⟩
  · show ∀ n ∈ [Names.apiFile a, "cstdint", "array", Names.typesFile] ++ (m.names ++ []),
      Text.isIdentifier n
    rw [List.append_nil, List.forall_mem_append, List.forall_mem_cons]
    exact ⟨⟨(api_names a).2, by decide⟩, hplain.names⟩
  · show m.comments ++ [] = []
    rw [hplain.comments, List.append_nil]
  · show m.enumerations [] ++ [] = []
    rw [hplain.enums, List.append_nil]
  · show ∀ e ∈ m.entities [] ++ [], Keyed e
    rwa [List.append_nil]
  · show lookupEntity a ∈ itemsEntities [a.name] (is ++ [.table (shaderTable names)]) ++ []
    rw [List.append_nil, itemsEntities_eq, List.flatMap_append]
    exact List.mem_append_right _ (List.mem_singleton_self _)

/-- Read back from C++, the embedding of shaders has an enum over their names, and functions that
take keys of its type. -/
theorem embedding_read [Standard] {fs : List File} {out : List EmittedFile}
    (hv : ∀ v ∈ vs, Text.isIdentifier v.name) (hfs : embeddingFiles vs apis = .ok fs)
    (hout : OutputLanguage.cpp.emitAll fs = .ok out) : ∃ ds, readAll? out = some ds ∧
      ds.filterMap Declaration.enumeration? =
        [([Names.shaderEnum], "Type", shaderNames vs ++ [countVariant]),
          ([Names.stageEnum], "Type", Stage.all.map (·.name) ++ [countVariant]),
          ([Names.apiEnum], "Type", Api.all.map (·.name) ++ [countVariant])] ∧
      (∀ e ∈ ds.filterMap Declaration.introduced?, Keyed e) ∧
      (∀ a ∈ apis, lookupEntity a ∈ ds.filterMap Declaration.introduced?) ∧
      dispatcherEntity ∈ ds.filterMap Declaration.introduced? := by
  have hn : ∀ n ∈ shaderNames vs, Text.isIdentifier n := by
    intro n h
    obtain ⟨v, hmem, rfl⟩ := mem_shaderNames.1 h
    exact hv v hmem
  simp only [embeddingFiles, bind_ok_iff, pure_ok_iff] at hfs
  obtain ⟨apiFiles, hapis, rfl⟩ := hfs
  have hapi : ∀ f ∈ apiFiles, Fits f [] := by
    intro f hf
    obtain ⟨a, -, hfound⟩ := mem_of_mapM_ok hapis hf
    exact (apiFile_fits hv hn hfound).1
  have hfit : ∀ f ∈ typesFile (shaderNames vs) :: apiFiles ++ [dispatcherFile apis],
      ∃ enums, Fits f enums := by
    simp only [List.forall_mem_append, List.forall_mem_cons]
    exact ⟨⟨⟨_, typesFile_fits hn⟩, fun f hf => ⟨_, hapi f hf⟩⟩, ⟨_, dispatcherFile_fits.1⟩, by simp⟩
  obtain ⟨ds, hds, henums, hentities⟩ := readAll?_emitAll (fun f hf => (hfit f hf).choose_spec.names)
    (fun f hf => by simp [(hfit f hf).choose_spec.comments]) hout
  refine ⟨ds, hds, ?_, fun e he => ?_, fun a ha => ?_, ?_⟩
  · have hnone : apiFiles.flatMap (·.enumerations) = [] :=
      List.flatMap_eq_nil_iff.2 fun f hf => (hapi f hf).enums
    rw [henums, List.flatMap_append, List.flatMap_cons, List.flatMap_singleton, hnone,
      (typesFile_fits hn).enums, dispatcherFile_fits.1.enums]
    rfl
  · obtain ⟨f, hf, he⟩ := (hentities e).1 he
    exact (hfit f hf).choose_spec.keyed e he
  · obtain ⟨f, hf, hfound⟩ := exists_of_mapM_ok hapis ha
    exact (hentities _).2 ⟨f, by simp [hf], (apiFile_fits hv hn hfound).2⟩
  · refine (hentities _).2 ⟨dispatcherFile apis, by simp, ?_⟩
    rw [dispatcherFile_fits.2]
    exact List.mem_singleton_self _

end Files

section Keys

variable {ms : List Manifest} {apis : List Api} {directory : String} {platform : Platform}
  {jobs : List Job} {compiler : Compiler} {w w' : Workspace} {vs : List Variant} {fs : List File}
  {out : List EmittedFile}

/-- The enumerators beside the type of the shader enum are the shaders and the end, each once. The
name of the type denotes it, as every lookup of a shader has it, unless a shader has that name. -/
theorem shader_key_denotes_type_iff [Standard] (hms : Gathered ms)
    (hplan : planJobs ms apis directory platform = .ok jobs)
    (hrun : (compileJobs compiler jobs).run.run w = (.ok vs, w'))
    (hfs : embeddingFiles vs apis = .ok fs) (hout : OutputLanguage.cpp.emitAll fs = .ok out) :
    ∃ ds, readAll? out = some ds ∧
      enumeratorsIn [Names.shaderEnum] ds =
        (if apis = [] then [] else (shadersOf ms).map (·.name)) ++ [countVariant] ∧
      (enumeratorsIn [Names.shaderEnum] ds).Nodup ∧
      (∀ e ∈ ds.filterMap Declaration.introduced?, Keyed e) ∧
      (∀ a ∈ apis, lookupEntity a ∈ ds.filterMap Declaration.introduced?) ∧
      dispatcherEntity ∈ ds.filterMap Declaration.introduced? ∧
      (DenotesType ds [Names.shaderEnum] "Type" ↔
        apis = [] ∨ ∀ s ∈ shadersOf ms, s.name ≠ "Type") := by
  have hof := compileJobs_variants (mapM_ok_iff.1 hplan) hrun
  have hv : ∀ v ∈ vs, Text.isIdentifier v.name := by
    intro v hmem
    obtain ⟨p, hp, hvp⟩ := exists_of_forall₂ hof.flip hmem
    rw [hvp.name]
    exact hms.isIdentifier (mem_shadersOf_of_pair hp)
  obtain ⟨ds, hds, henums, hkeyed, hlookups, hdispatcher⟩ := embedding_read hv hfs hout
  have hnames := shaderNames_eq hms.nodup hof
  have hin : enumeratorsIn [Names.shaderEnum] ds =
      (if apis = [] then [] else (shadersOf ms).map (·.name)) ++ [countVariant] := by
    rw [enumeratorsIn, henums, ← hnames]
    simp [Names.shaderEnum, Names.stageEnum, Names.apiEnum]
  have htype : "Type" ≠ countVariant := by decide
  refine ⟨ds, hds, hin, ?_, hkeyed, hlookups, hdispatcher, ?_⟩
  · rw [hin]
    split
    · exact List.nodup_singleton _
    · rw [← List.concat_eq_append, List.nodup_concat]
      refine ⟨fun hm => ?_, hms.nodup⟩
      obtain ⟨s, hs, hname⟩ := List.mem_map.1 hm
      exact hms.not_count hs hname
  · have hdeclared : ∃ es, ([Names.shaderEnum], "Type", es) ∈ ds.filterMap Declaration.enumeration? :=
      ⟨_, henums ▸ List.mem_cons_self⟩
    rw [DenotesType, and_iff_right hdeclared, hin]
    split
    next h => simp [h, htype]
    next h => simp [h, htype]

end Keys

section Compiled

/-- Whether shaders can be planned, compiled to the same two bytes each, embedded and rendered, and
what their names are then. -/
def renderedNames? (ms : List Manifest) : Option (List String) := do
  let jobs ← (planJobs ms [.vulkan] "out" .linux).toOption
  let vs ← ((compileJobs fixedCompiler jobs).run.run default).1.toOption
  let fs ← (embeddingFiles vs [.vulkan]).toOption
  let _ ← (OutputLanguage.cpp.emitAll fs).toOption
  return shaderNames vs

theorem exists_of_renderedNames? {ms : List Manifest} {names : List String}
    (h : renderedNames? ms = some names) : ∃ jobs vs fs out w,
      planJobs ms [.vulkan] "out" .linux = .ok jobs ∧
      (compileJobs fixedCompiler jobs).run.run default = (.ok vs, w) ∧
      embeddingFiles vs [.vulkan] = .ok fs ∧ OutputLanguage.cpp.emitAll fs = .ok out ∧
      shaderNames vs = names := by
  simp only [renderedNames?, Option.bind_eq_bind, Option.bind_eq_some_iff, Option.pure_def,
    Option.some.injEq] at h
  obtain ⟨jobs, hjobs, vs, hvs, fs, hfs, out, hout, hnames⟩ := h
  exact ⟨jobs, vs, fs, out, _, ok_of_toOption hjobs, Prod.ext (ok_of_toOption hvs) rfl,
    ok_of_toOption hfs, ok_of_toOption hout, hnames⟩

theorem blits_keys : ∃ jobs vs fs out w, Gathered [blits] ∧
    planJobs [blits] [.vulkan] "out" .linux = .ok jobs ∧
    (compileJobs fixedCompiler jobs).run.run default = (.ok vs, w) ∧
    embeddingFiles vs [.vulkan] = .ok fs ∧ OutputLanguage.cpp.emitAll fs = .ok out ∧
    ∀ _ : Standard, ∃ ds, readAll? out = some ds ∧
      enumeratorsIn [Names.shaderEnum] ds = ["Blit", "Blit_fast", "Count"] ∧
      DenotesType ds [Names.shaderEnum] "Type" := by
  have hrendered : renderedNames? [blits] = some ["Blit", "Blit_fast"] := by decide +kernel
  obtain ⟨jobs, vs, fs, out, w, hplan, hrun, hfs, hout, -⟩ := exists_of_renderedNames? hrendered
  refine ⟨jobs, vs, fs, out, w, blits_gathered, hplan, hrun, hfs, hout, fun _ => ?_⟩
  obtain ⟨ds, hds, hin, -, -, -, -, htype⟩ :=
    shader_key_denotes_type_iff blits_gathered hplan hrun hfs hout
  exact ⟨ds, hds, hin, htype.2 (.inr (by decide))⟩

def typed : Manifest := ⟨"a.shaders", "a.hlsl", [⟨"Type", "main", .pixel, [], "a.hlsl"⟩]⟩

theorem typed_gathered : Gathered [typed] where
  read := by
    intro m hm
    obtain rfl := List.mem_singleton.1 hm
    have hread : (Manifest.parse "a.shaders" "Type:\n  entrypoint: main\n  stage: Pixel\n").toOption =
        some typed := by
      decide +kernel
    exact ⟨_, _, ok_of_toOption hread⟩
  unique := rfl

/-- An accepted shader takes the name of the key type away from the type. -/
theorem typed_hides_key_type : ∃ jobs vs fs out w, Gathered [typed] ∧
    planJobs [typed] [.vulkan] "out" .linux = .ok jobs ∧
    (compileJobs fixedCompiler jobs).run.run default = (.ok vs, w) ∧
    embeddingFiles vs [.vulkan] = .ok fs ∧ OutputLanguage.cpp.emitAll fs = .ok out ∧
    ∀ _ : Standard, ∃ ds, readAll? out = some ds ∧ "Type" ∈ enumeratorsIn [Names.shaderEnum] ds ∧
      ¬DenotesType ds [Names.shaderEnum] "Type" := by
  have hrendered : renderedNames? [typed] = some ["Type"] := by decide +kernel
  obtain ⟨jobs, vs, fs, out, w, hplan, hrun, hfs, hout, hnames⟩ :=
    exists_of_renderedNames? hrendered
  have hv : ∀ v ∈ vs, Text.isIdentifier v.name := by
    intro v hmem
    have hname : v.name ∈ shaderNames vs := mem_shaderNames.2 ⟨v, hmem, rfl⟩
    rw [hnames, List.mem_singleton] at hname
    rw [hname]
    decide
  refine ⟨jobs, vs, fs, out, w, typed_gathered, hplan, hrun, hfs, hout, fun _ => ?_⟩
  obtain ⟨ds, hds, henums, -⟩ := embedding_read hv hfs hout
  have hin : "Type" ∈ enumeratorsIn [Names.shaderEnum] ds := by
    rw [enumeratorsIn, henums, hnames]
    decide
  exact ⟨ds, hds, hin, fun h => h.2 hin⟩

end Compiled

end Builtin

end ShaderBuild
