import ShaderBuild.Builtin.Batch
import ShaderBuild.Proofs.Builtin.Binaries
import ShaderBuild.Proofs.Code.Dispatch
import ShaderBuild.Proofs.Code.Nesting
import ShaderBuild.Proofs.Metadata.FirstSeen

namespace ShaderBuild.Builtin

open Code

structure WellNamed (ms : List Manifest) : Prop where
  valid : ∀ m ∈ ms, ∀ s ∈ m.shaders, checkName m.path s.name = .ok ()
  unique : checkUniqueNames ms = .ok ()

theorem WellNamed.not_count {ms : List Manifest} (h : WellNamed ms) {s : Shader}
    (hs : s ∈ shadersOf ms) : s.name ≠ countVariant := by
  obtain ⟨m, hm, hs⟩ := List.mem_flatMap.1 hs
  have hres := (checkName_ok (h.valid m hm s hs)).2
  simp only [isReserved, Bool.or_eq_false_iff, beq_eq_false_iff_ne] at hres
  exact hres.1

section Compiled

variable {ms : List Manifest} {apis : List Api} {directory : String} {platform : Platform}
  {jobs : List Job} {compiler : Compiler} {w w' : Workspace} {vs : List Variant}

/-- What became of a shader for an API: there is bytecode where the API has the stage. -/
structure Variant.Of (v : Variant) (s : Shader) (a : Api) : Prop where
  name : v.name = s.name
  entryPoint : v.entryPoint = s.entryPoint
  stage : v.stage = s.stage
  api : v.api = a
  binaryName : v.binaryName = s.binaryName a
  bytecode : v.bytecode.isSome = s.stage.runsOn a

theorem plan_descriptor {s : Shader} {a : Api} {j : Job}
    (h : Job.plan directory platform s a = .ok j) : j.descriptor.isSome = s.stage.runsOn a := by
  unfold Job.plan at h
  split at h
  next hr =>
    simp only [bind_ok_iff, map_ok_iff, pure_ok_iff] at h
    obtain ⟨_, ⟨d, -, rfl⟩, rfl⟩ := h
    exact hr.symm
  next hr =>
    simp only [bind_ok_iff, pure_ok_iff] at h
    obtain ⟨_, rfl, rfl⟩ := h
    simpa using hr

theorem compileJob_ok {j : Job} {v : Variant}
    (h : (compileJob compiler j).run.run w = (.ok v, w')) :
    ∃ code, v = j.variant code ∧ code.isSome = j.descriptor.isSome := by
  obtain ⟨code, u, hcode, hv⟩ := run_bind_ok h
  obtain ⟨rfl, -⟩ := run_pure_ok_iff.1 hv
  refine ⟨code, rfl, ?_⟩
  cases hd : j.descriptor with
  | none =>
    rw [hd, Option.mapM_none] at hcode
    obtain ⟨rfl, -⟩ := run_pure_ok_iff.1 hcode
    rfl
  | some d =>
    rw [hd, Option.mapM_some, map_eq_pure_bind] at hcode
    obtain ⟨c, _, -, hc⟩ := run_bind_ok hcode
    obtain ⟨rfl, -⟩ := run_pure_ok_iff.1 hc
    rfl

/-- A successful compilation has a variant for each shader and API, in the order of the plan. -/
theorem compileJobs_variants {ps : List (Shader × Api)}
    (hp : List.Forall₂ (fun p j => Job.plan directory platform p.1 p.2 = .ok j) ps jobs)
    (h : (compileJobs compiler jobs).run.run w = (.ok vs, w')) :
    List.Forall₂ (fun p v => v.Of p.1 p.2) ps vs := by
  unfold compileJobs at h
  induction hp generalizing w w' vs with
  | nil =>
    obtain ⟨rfl, -⟩ := run_pure_ok_iff.1 h
    exact .nil
  | @cons p j _ _ hplan _ ih =>
    rw [List.mapM_cons] at h
    obtain ⟨v, u, hv, h⟩ := run_bind_ok h
    obtain ⟨rest, u', hrest, h⟩ := run_bind_ok h
    obtain ⟨rfl, -⟩ := run_pure_ok_iff.1 h
    refine .cons ?_ (ih hrest)
    obtain ⟨code, rfl, hcode⟩ := compileJob_ok hv
    obtain ⟨hpair, hplanned⟩ := plan_ok hplan
    obtain ⟨s, a⟩ := p
    obtain ⟨rfl, rfl⟩ := Prod.mk.inj hpair
    exact ⟨rfl, rfl, rfl, rfl, hplanned.name, hcode.trans (plan_descriptor hplan)⟩

end Compiled

section Order

variable {ms : List Manifest} {apis : List Api} {vs : List Variant}

theorem eraseDups_blocks {α β : Type} {f : α → String} {xs : List α} {ys : List β}
    (hn : (xs.map f).Nodup) (hy : ys ≠ []) :
    (xs.flatMap fun x => ys.map fun _ => f x).eraseDups = xs.map f := by
  induction xs with
  | nil => rfl
  | cons x r ih =>
    obtain ⟨hx, hr⟩ := List.nodup_cons.1 hn
    obtain ⟨y, ys, rfl⟩ := List.exists_cons_of_ne_nil hy
    have hrest : (r.flatMap fun x => (y :: ys).map fun _ => f x).filter (fun n => !n == f x) =
        r.flatMap fun x => (y :: ys).map fun _ => f x := by
      refine List.filter_eq_self.2 fun n hmem => ?_
      obtain ⟨z, hz, hmem⟩ := List.mem_flatMap.1 hmem
      obtain ⟨_, -, rfl⟩ := List.mem_map.1 hmem
      have hne : f z ≠ f x := fun h => hx (h ▸ List.mem_map_of_mem hz)
      simpa using hne
    have hsame : (ys.map fun _ => f x).filter (fun n => !n == f x) = [] := by
      simp
    rw [List.flatMap_cons, List.map_cons, List.cons_append, List.eraseDups_cons,
      List.filter_append, hsame, hrest, List.nil_append, ih hr, List.map_cons]

theorem map_eq_of_forall₂ {α β γ : Type} {f : α → γ} {g : β → γ} {xs : List α} {ys : List β}
    (h : List.Forall₂ (fun x y => g y = f x) xs ys) : ys.map g = xs.map f := by
  induction h with
  | nil => rfl
  | cons hxy _ ih => rw [List.map_cons, List.map_cons, hxy, ih]

theorem mem_shaderNames {n : String} : n ∈ shaderNames vs ↔ ∃ v ∈ vs, v.name = n := by
  rw [shaderNames, List.mem_eraseDups, List.mem_map]

theorem shaderNames_eq (hn : ((shadersOf ms).map (·.name)).Nodup)
    (hv : List.Forall₂ (fun p v => v.Of p.1 p.2) (pairs ms apis) vs) :
    shaderNames vs = if apis = [] then [] else (shadersOf ms).map (·.name) := by
  have hnames : vs.map (·.name) = (shadersOf ms).flatMap fun s => apis.map fun _ => s.name := by
    rw [map_eq_of_forall₂ (f := fun p => p.1.name) (hv.imp fun _ _ h => h.name), pairs,
      List.map_flatMap]
    simp [shadersOf, Function.comp_def]
  rw [shaderNames, hnames]
  split
  next h => simp [h, List.flatMap_eq_nil_iff.2]
  next h => exact eraseDups_blocks hn h

theorem variants_for (ha : apis.Nodup) {a : Api} (hmem : a ∈ apis)
    (hv : List.Forall₂ (fun p v => v.Of p.1 p.2) (pairs ms apis) vs) :
    List.Forall₂ (fun s v => v.Of s a) (shadersOf ms) (vs.filter (·.api == a)) := by
  have hpairs : (pairs ms apis).filter (·.2 == a) = (shadersOf ms).map (·, a) := by
    have hone (s : Shader) : (apis.map (s, ·)).filter (·.2 == a) = [(s, a)] := by
      rw [List.filter_map, Function.comp_def, List.filter_beq, List.count_eq_one_of_mem ha hmem]
      rfl
    rw [pairs, List.filter_flatMap, List.map_eq_flatMap]
    exact List.flatMap_congr fun s _ => hone s
  have hsame : Relator.LiftFun (fun (p : Shader × Api) (v : Variant) => v.Of p.1 p.2) (· ↔ ·)
      (fun p => (p.2 == a) = true) (fun v => (v.api == a) = true) := by
    intro p v h
    simp only [h.api]
  have hfilter := List.rel_filter hsame hv
  rwa [hpairs, List.forall₂_map_left_iff] at hfilter

theorem variants_nodup (hn : ((shadersOf ms).map (·.name)).Nodup) (ha : apis.Nodup)
    (hv : List.Forall₂ (fun p v => v.Of p.1 p.2) (pairs ms apis) vs) :
    (vs.map fun v => (v.name, v.api)).Nodup := by
  have hkeys : List.Forall₂ (fun (p : Shader × Api) (v : Variant) =>
      (v.name, v.api) = (p.1.name, p.2)) (pairs ms apis) vs :=
    hv.imp fun _ _ h => by rw [h.name, h.api]
  rw [map_eq_of_forall₂ hkeys, List.Nodup, List.pairwise_map]
  refine (pairs_differ hn ha).imp fun hne he => ?_
  obtain ⟨hname, hapi⟩ := Prod.mk.inj he
  exact hne hname hapi

theorem find?_variant (hd : (vs.map fun v => (v.name, v.api)).Nodup) {v : Variant} (h : v ∈ vs) :
    vs.find? (fun u => u.name == v.name && u.api == v.api) = some v := by
  refine find?_of_unique h (by simp) fun u hu he => ?_
  rw [Bool.and_eq_true, beq_iff_eq, beq_iff_eq] at he
  exact List.inj_on_of_nodup_map hd hu h (Prod.ext he.1 he.2)

end Order

section Files

variable {ms : List Manifest} {apis : List Api} {vs : List Variant} {names : List String}

def shaderTable (names : List String) : TableDecl :=
  ⟨Names.table, Names.record, .byEnum Names.shaderEnum, names.map fun n => (n, Names.instance_ n),
    Names.lookup, Names.missing⟩

def moduleItems (vs : List Variant) (names : List String) (a : Api) : List Item :=
  (vs.filter (·.api == a)).flatMap variantItems ++ [.table (shaderTable names)]

def embeddingFile (vs : List Variant) (names : List String) (a : Api) : File :=
  ⟨Names.apiFile a, false, [.std "cstdint", .std "array", .sibling Names.typesFile],
    [.module a.name (moduleItems vs names a)]⟩

theorem apiFile_eq (hd : (vs.map fun v => (v.name, v.api)).Nodup) {a : Api}
    (hn : (vs.filter (·.api == a)).map (·.name) = names) :
    apiFile vs names a = .ok (embeddingFile vs names a) := by
  simp only [apiFile, bind_ok_iff, pure_ok_iff]
  refine ⟨(vs.filter (·.api == a)).map variantItems, mapM_ok_iff.2 ?_, rfl⟩
  rw [← hn, List.forall₂_map_left_iff, List.forall₂_map_right_iff, List.forall₂_same]
  intro v hv
  obtain ⟨hmem, hapi⟩ := List.mem_filter.1 hv
  obtain rfl := eq_of_beq hapi
  rw [find?_variant hd hmem]

/-- What the file of an API is, and that its module holds declarations of variants before the
table. -/
theorem apiFile_ok {a : Api} {f : File} (h : apiFile vs names a = .ok f) :
    ∃ is, (∀ i ∈ is, ∃ v ∈ vs, i ∈ variantItems v) ∧
      f = ⟨Names.apiFile a, false, [.std "cstdint", .std "array", .sibling Names.typesFile],
        [.module a.name (is ++ [.table (shaderTable names)])]⟩ := by
  simp only [apiFile, bind_ok_iff, pure_ok_iff] at h
  obtain ⟨iss, hiss, rfl⟩ := h
  refine ⟨iss.flatten, fun i hi => ?_, rfl⟩
  obtain ⟨is, his, hi⟩ := List.mem_flatten.1 hi
  obtain ⟨n, -, hfound⟩ := mem_of_mapM_ok hiss his
  split at hfound
  next v hv =>
    obtain rfl := Except.ok.inj hfound
    exact ⟨v, List.mem_of_find?_eq_some hv, hi⟩
  next => simp at hfound

theorem embeddingFiles_eq (hd : (vs.map fun v => (v.name, v.api)).Nodup)
    (hn : ∀ a ∈ apis, (vs.filter (·.api == a)).map (·.name) = shaderNames vs) :
    embeddingFiles vs apis = .ok (typesFile (shaderNames vs) ::
      apis.map (embeddingFile vs (shaderNames vs)) ++ [dispatcherFile apis]) := by
  have hfiles : apis.mapM (apiFile vs (shaderNames vs)) =
      .ok (apis.map (embeddingFile vs (shaderNames vs))) := by
    rw [mapM_ok_iff, List.forall₂_map_right_iff, List.forall₂_same]
    exact fun a ha => apiFile_eq hd (hn a ha)
  rw [embeddingFiles, hfiles]
  rfl

end Files

section Calls

variable {apis : List Api} {vs : List Variant} {names : List String} {a : Api}

def Variant.record (v : Variant) : InstanceDecl :=
  let blob := Names.blob v.name
  recordOf (Names.instance_ v.name) v.name v.entryPoint v.binaryName v.stage.name
    (if v.bytecode.isSome then .blob blob else .noBlob)
    (v.bytecode.elim (.uint 0) fun code => .blobLength blob (.ofNat code.size))

def recordData (name entryPoint binaryName : String) (stage : Nat) (code : Option (List UInt8)) :
    List (String × Datum) :=
  [("name", .text name), ("entryPoint", .text entryPoint), ("uniqueBinaryName", .text binaryName),
    ("shaderStage", .number stage), ("bytecode", .bytes code),
    ("bytecodeSize", .number (code.elim 0 List.length))]

def surroundings (vs : List Variant) (names : List String) (apis : List Api) : Scope :=
  (typesFile names :: apis.map (embeddingFile vs names) ++ [dispatcherFile apis]).flatMap (·.items)

theorem variantItems_instances (v : Variant) :
    (variantItems v).filterMap Item.instance? = [v.record] := by
  cases h : v.bytecode <;>
  simp [variantItems, h, Item.instance?, Variant.record, List.filterMap_cons]

theorem variantItems_blobs (v : Variant) : (variantItems v).filterMap Item.blob? =
    (v.bytecode.map fun c => ⟨Names.blob v.name, c.bytes⟩).toList := by
  cases h : v.bytecode <;> simp [variantItems, h, Item.blob?]

theorem variantItems_enums (v : Variant) : (variantItems v).filterMap Item.enum? = [] := by
  cases h : v.bytecode <;> simp [variantItems, h, Item.enum?]

theorem variantItems_tables (v : Variant) : (variantItems v).filterMap Item.table? = [] := by
  cases h : v.bytecode <;> simp [variantItems, h, Item.table?]

theorem moduleItems_enums : (moduleItems vs names a).filterMap Item.enum? = [] := by
  simp [moduleItems, List.filterMap_append, List.filterMap_flatMap, variantItems_enums, Item.enum?]

theorem moduleItems_table? :
    Scope.table? (moduleItems vs names a) Names.lookup = some (shaderTable names) := by
  have htables : (moduleItems vs names a).filterMap Item.table? = [shaderTable names] := by
    simp [moduleItems, List.filterMap_append, List.filterMap_flatMap, variantItems_tables,
      Item.table?]
  rw [Scope.table?, htables]
  rfl

theorem moduleItems_instances : (moduleItems vs names a).filterMap Item.instance? =
    (vs.filter (·.api == a)).map Variant.record := by
  simp [moduleItems, List.filterMap_append, List.filterMap_flatMap, variantItems_instances,
    Item.instance?, ← List.map_eq_flatMap]

theorem moduleItems_blobs : (moduleItems vs names a).filterMap Item.blob? =
    (vs.filter (·.api == a)).flatMap fun v =>
      (v.bytecode.map fun c => BlobDecl.mk (Names.blob v.name) c.bytes).toList := by
  simp [moduleItems, List.filterMap_append, List.filterMap_flatMap, variantItems_blobs, Item.blob?]

theorem surroundings_enums : (surroundings vs names apis).filterMap Item.enum? =
    [⟨Names.shaderEnum, names⟩, ⟨Names.stageEnum, Stage.all.map (·.name)⟩,
      ⟨Names.apiEnum, Api.all.map (·.name)⟩] := by
  simp [surroundings, typesFile, dispatcherFile, List.filterMap_append, List.filterMap_flatMap,
    List.filterMap_cons, List.flatMap_map, embeddingFile, Item.enum?]

theorem surroundings_instances : (surroundings vs names apis).filterMap Item.instance? =
    [recordOf Names.missing "" "" "" countVariant .noBlob (.uint 0)] := by
  simp [surroundings, typesFile, dispatcherFile, List.filterMap_append, List.filterMap_flatMap,
    List.filterMap_cons, List.flatMap_map, embeddingFile, Item.instance?]

theorem stage_position (s : Stage) :
    (EnumDecl.mk Names.stageEnum (Stage.all.map (·.name))).position? s.name = some s.index := by
  cases s <;> decide

theorem stageEnum_found :
    Scope.enum? (surroundings vs names apis) Names.stageEnum =
        some ⟨Names.stageEnum, Stage.all.map (·.name)⟩ ∧
      Scope.enum? (moduleItems vs names a ++ surroundings vs names apis) Names.stageEnum =
        some ⟨Names.stageEnum, Stage.all.map (·.name)⟩ := by
  simp only [Scope.enum?, List.filterMap_append, moduleItems_enums, surroundings_enums,
    List.nil_append, and_self]
  rfl

theorem blob_inj {m n : String} (h : Names.blob m = Names.blob n) : m = n := by
  have heq : "Bytecode_" ++ m = "Bytecode_" ++ n := h
  simpa using heq

theorem instance_inj {m n : String} (h : Names.instance_ m = Names.instance_ n) : m = n := by
  have heq : Names.record ++ "_" ++ m = Names.record ++ "_" ++ n := h
  simpa using heq

section Module

variable (hn : ((vs.filter (·.api == a)).map (·.name)).Nodup)

include hn

theorem instance?_record {s : Scope} {v : Variant} (hv : v ∈ vs.filter (·.api == a)) :
    Scope.instance? (moduleItems vs names a ++ s) (Names.instance_ v.name) = some v.record := by
  rw [Scope.instance?, List.filterMap_append, moduleItems_instances, List.find?_append,
    find?_of_unique (List.mem_map_of_mem hv) (by simp [Variant.record, recordOf]), Option.some_or]
  intro d hd he
  obtain ⟨u, hu, rfl⟩ := List.mem_map.1 hd
  have hname : u.name = v.name := instance_inj (eq_of_beq he)
  rw [List.inj_on_of_nodup_map hn hu hv hname]

theorem blob?_code (names : List String) (s : Scope) {v : Variant}
    (hv : v ∈ vs.filter (·.api == a)) {c : Bytecode} (hc : v.bytecode = some c) :
    Scope.blob? (moduleItems vs names a ++ s) (Names.blob v.name) =
      some ⟨Names.blob v.name, c.bytes⟩ := by
  rw [Scope.blob?, List.filterMap_append, moduleItems_blobs, List.find?_append,
    find?_of_unique (a := ⟨Names.blob v.name, c.bytes⟩), Option.some_or]
  · exact List.mem_flatMap.2 ⟨v, hv, by simp [hc]⟩
  · simp
  · intro d hd he
    obtain ⟨u, hu, hd⟩ := List.mem_flatMap.1 hd
    obtain ⟨e, he', rfl⟩ := Option.map_eq_some_iff.1 (Option.mem_toList.1 hd)
    have hname : u.name = v.name := blob_inj (eq_of_beq he)
    obtain rfl := List.inj_on_of_nodup_map hn hu hv hname
    obtain rfl := Option.some.inj (hc.symm.trans he')
    rfl

theorem record_data? (language : OutputLanguage) {v : Variant} (hv : v ∈ vs.filter (·.api == a))
    (hsize : ∀ c ∈ v.bytecode, c.size < UInt32.size) :
    v.record.data? language (moduleItems vs names a ++ surroundings vs names apis) =
      some (recordData v.name v.entryPoint v.binaryName v.stage.index
        (v.bytecode.map (·.bytes))) := by
  have hstage : Scope.enum? (moduleItems vs names a ++ surroundings vs names apis)
      Names.stageEnum = some ⟨Names.stageEnum, Stage.all.map (·.name)⟩ := stageEnum_found.2
  cases hc : v.bytecode with
  | none =>
    simp [InstanceDecl.data?, Variant.record, recordOf, hc, Value.datum?, hstage, stage_position,
      recordData]
  | some c =>
    have hblob := blob?_code hn names (surroundings vs names apis) hv hc
    have hlen : c.bytes.length % UInt32.size = c.bytes.length := Nat.mod_eq_of_lt (hsize c hc)
    cases language <;>
    simp [InstanceDecl.data?, Variant.record, recordOf, hc, Value.datum?, hstage, stage_position,
      recordData, hblob, hlen, Bytecode.size]

end Module

def shaderDispatcher (apis : List Api) : DispatcherDecl :=
  ⟨Names.lookup, Names.record, Names.shaderEnum, Names.apiEnum,
    apis.map fun a => (a.name, a.name), Names.missing⟩

theorem dispatcher?_surroundings :
    Scope.dispatcher? (surroundings vs names apis) Names.lookup = some (shaderDispatcher apis) := by
  have hall : (surroundings vs names apis).filterMap Item.dispatcher? =
      [shaderDispatcher apis] := by
    simp [surroundings, typesFile, dispatcherFile, List.filterMap_append, List.filterMap_flatMap,
      List.filterMap_cons, List.flatMap_map, embeddingFile, Item.dispatcher?, shaderDispatcher]
  rw [Scope.dispatcher?, hall]
  rfl

theorem api_name_inj {a b : Api} (h : a.name = b.name) : a = b := by
  revert h
  cases a <;> cases b <;> decide

theorem module?_surroundings (ha : a ∈ apis) :
    Scope.module? (surroundings vs names apis) a.name = some (moduleItems vs names a) := by
  have hmodules : (apis.map fun b => Item.module b.name (moduleItems vs names b)).findSome?
      (Item.module? a.name) = some (moduleItems vs names a) := by
    induction apis with
    | nil => cases ha
    | cons b r ih =>
      rw [List.map_cons, List.findSome?_cons, Item.module?]
      by_cases hb : b.name = a.name
      · rw [if_pos hb, api_name_inj hb]
      · rw [if_neg hb]
        exact ih ((List.mem_cons.1 ha).resolve_left fun h => hb (h ▸ rfl))
  have hsplit : surroundings vs names apis = (typesFile names).items ++
      ((apis.map fun b => Item.module b.name (moduleItems vs names b)) ++
        (dispatcherFile apis).items) := by
    simp [surroundings, List.flatMap_map, embeddingFile, ← List.map_eq_flatMap]
  rw [Scope.module?, hsplit, List.findSome?_append, List.findSome?_append, hmodules]
  rfl

theorem keyEnum_found : Scope.enum? (surroundings vs names apis) Names.shaderEnum =
    some ⟨Names.shaderEnum, names⟩ := by
  rw [Scope.enum?, surroundings_enums]
  rfl

theorem selectorEnum_found : Scope.enum? (surroundings vs names apis) Names.apiEnum =
    some ⟨Names.apiEnum, Api.all.map (·.name)⟩ := by
  rw [Scope.enum?, surroundings_enums]
  rfl

theorem api_position (a : Api) :
    ∃ i, (EnumDecl.mk Names.apiEnum (Api.all.map (·.name))).position? a.name = some i := by
  cases a <;> exact ⟨_, rfl⟩

theorem not_mem_names (h : a ∉ apis) : a.name ∉ apis.map (·.name) := by
  intro hmem
  obtain ⟨b, hb, hname⟩ := List.mem_map.1 hmem
  exact h (api_name_inj hname ▸ hb)

theorem target?_routed (ha : a ∈ apis) {key : String} {k : Nat}
    (hk : (EnumDecl.mk Names.shaderEnum names).position? key = some k) :
    (shaderDispatcher apis).target? (surroundings vs names apis) key a.name =
      some (moduleItems vs names a ++ surroundings vs names apis,
        (shaderTable names).instanceAtPosition k) := by
  obtain ⟨i, hi⟩ := api_position a
  have hroute : (shaderDispatcher apis).routes.lookup a.name = some a.name := by
    rw [shaderDispatcher, lookup_map (fun a : Api => a.name)]
    cases hf : apis.find? (·.name == a.name) with
    | none => exact absurd (beq_self_eq_true _) (List.find?_eq_none.1 hf a ha)
    | some b => simpa using List.find?_some hf
  rw [DispatcherDecl.target?, hroute]
  simp [shaderDispatcher, keyEnum_found, selectorEnum_found, hk, hi, module?_surroundings ha,
    moduleItems_table?, shaderTable]

theorem target?_unrouted {key selector : String} {k i : Nat} (hs : selector ∉ apis.map (·.name))
    (hk : (EnumDecl.mk Names.shaderEnum names).position? key = some k)
    (hi : (EnumDecl.mk Names.apiEnum (Api.all.map (·.name))).position? selector = some i) :
    (shaderDispatcher apis).target? (surroundings vs names apis) key selector =
      some (surroundings vs names apis, Names.missing) := by
  have hroute : (shaderDispatcher apis).routes.lookup selector = none := by
    rw [shaderDispatcher, lookup_map (fun a : Api => a.name), Option.map_eq_none_iff,
      List.find?_eq_none]
    exact fun b hb he => hs (List.mem_map.2 ⟨b, hb, eq_of_beq he⟩)
  rw [DispatcherDecl.target?, hroute]
  simp [shaderDispatcher, keyEnum_found, selectorEnum_found, hk, hi]

theorem instance?_missing {is : List Item}
    (h : ∀ d ∈ is.filterMap Item.instance?, d.name ≠ Names.missing) :
    Scope.instance? (is ++ surroundings vs names apis) Names.missing =
      some (recordOf Names.missing "" "" "" countVariant .noBlob (.uint 0)) := by
  have hnone : (is.filterMap Item.instance?).find? (·.name == Names.missing) = none :=
    List.find?_eq_none.2 fun d hd he => h d hd (eq_of_beq he)
  rw [Scope.instance?, List.filterMap_append, List.find?_append, hnone, surroundings_instances]
  rfl

/-- The record for a miss, which has the number behind all stages as its stage. -/
def missingData : List (String × Datum) := recordData "" "" "" Stage.all.length none

theorem missing_data? (language : OutputLanguage) {s : Scope}
    (h : s.enum? Names.stageEnum = some ⟨Names.stageEnum, Stage.all.map (·.name)⟩) :
    (recordOf Names.missing "" "" "" countVariant .noBlob (.uint 0)).data? language s =
      some missingData := by
  simp [InstanceDecl.data?, recordOf, Value.datum?, h, missingData, recordData,
    EnumDecl.position?]

theorem moduleItems_missing (d : InstanceDecl)
    (h : d ∈ (moduleItems vs names a).filterMap Item.instance?) : d.name ≠ Names.missing := by
  rw [moduleItems_instances] at h
  obtain ⟨v, -, rfl⟩ := List.mem_map.1 h
  intro hname
  have hchars := congrArg String.toList
    (show Names.record ++ "_" ++ v.name = Names.record ++ "Invalid" from hname)
  simp at hchars

variable (language : OutputLanguage)

abbrev filesFor (vs : List Variant) (names : List String) (apis : List Api) : List File :=
  typesFile names :: apis.map (embeddingFile vs names) ++ [dispatcherFile apis]

theorem call?_routed (ha : a ∈ apis) {key : String} {k : Nat}
    (hk : (EnumDecl.mk Names.shaderEnum names).position? key = some k) :
    call? language (filesFor vs names apis) Names.lookup key a.name =
      (Scope.instance? (moduleItems vs names a ++ surroundings vs names apis)
        ((shaderTable names).instanceAtPosition k)).bind
          (·.data? language (moduleItems vs names a ++ surroundings vs names apis)) := by
  rw [call?, ← surroundings, dispatcher?_surroundings, Option.bind_eq_bind, Option.bind_some,
    target?_routed ha hk]
  rfl

/-- Past the last shader, the table of each API leads to the record for a miss. -/
theorem call?_count (ha : a ∈ apis) :
    call? language (filesFor vs names apis) Names.lookup countVariant a.name =
      some missingData := by
  have hk : (EnumDecl.mk Names.shaderEnum names).position? countVariant = some names.length :=
    if_pos rfl
  have hmiss : (shaderTable names).instanceAtPosition names.length = Names.missing := by
    simp [TableDecl.instanceAtPosition, shaderTable]
  rw [call?_routed language ha hk, hmiss, instance?_missing moduleItems_missing, Option.bind_some,
    missing_data? language stageEnum_found.2]

theorem call?_unrouted {key selector : String} {k i : Nat} (hs : selector ∉ apis.map (·.name))
    (hk : (EnumDecl.mk Names.shaderEnum names).position? key = some k)
    (hi : (EnumDecl.mk Names.apiEnum (Api.all.map (·.name))).position? selector = some i) :
    call? language (filesFor vs names apis) Names.lookup key selector = some missingData := by
  have hmiss : Scope.instance? ([] ++ surroundings vs names apis) Names.missing = _ :=
    instance?_missing (by simp)
  rw [List.nil_append] at hmiss
  rw [call?, ← surroundings, dispatcher?_surroundings, Option.bind_eq_bind, Option.bind_some,
    target?_unrouted hs hk hi]
  show (Scope.instance? (surroundings vs names apis) Names.missing).bind
    (·.data? language (surroundings vs names apis)) = _
  rw [hmiss, Option.bind_some, missing_data? language (stageEnum_found (a := .vulkan)).1]

theorem position?_of_mem (hn : names.Nodup) {n : String} (h : n ∈ names) (hc : n ≠ countVariant) :
    ∃ k, (EnumDecl.mk Names.shaderEnum names).position? n = some k ∧
      (shaderTable names).instanceAtPosition k = Names.instance_ n := by
  obtain ⟨k, hk⟩ := List.mem_iff_getElem?.1 h
  refine ⟨k, ?_, by simp [TableDecl.instanceAtPosition, shaderTable, hk]⟩
  rw [EnumDecl.position?, if_neg hc]
  exact (findIdx?_of_nodup hn).2 hk

theorem call?_variant (hn : names.Nodup) (hv : (vs.filter (·.api == a)).map (·.name) = names)
    (ha : a ∈ apis) {v : Variant} (hmem : v ∈ vs.filter (·.api == a)) (hc : v.name ≠ countVariant)
    (hsize : ∀ c ∈ v.bytecode, c.size < UInt32.size) :
    call? language (filesFor vs names apis) Names.lookup v.name a.name =
      some (recordData v.name v.entryPoint v.binaryName v.stage.index
        (v.bytecode.map (·.bytes))) := by
  obtain ⟨k, hk, hat⟩ := position?_of_mem hn (hv ▸ List.mem_map_of_mem hmem) hc
  rw [call?_routed language ha hk, hat, instance?_record (hv ▸ hn) hmem, Option.bind_some,
    record_data? (hv ▸ hn) language hmem hsize]

end Calls

section Rendered

theorem embeddingFile_blobs {vs : List Variant} {names : List String} {a : Api}
    (h : ∀ v ∈ vs, ∀ c ∈ v.bytecode, c.bytes ≠ []) :
    Cpp.emptyBlobs? (embeddingFile vs names a).items = none := by
  have hinner : Cpp.emptyBlobs? (moduleItems vs names a) = none := by
    refine Cpp.emptyBlobs?_eq_none fun i hi => ?_
    rcases List.mem_append.1 hi with hi | hi
    · obtain ⟨v, hv, hi⟩ := List.mem_flatMap.1 hi
      have hcode := h v (List.mem_filter.1 hv).1
      cases hc : v.bytecode with
      | none =>
        obtain rfl : i = _ := by simpa [variantItems, hc] using hi
        rfl
      | some c =>
        rw [variantItems, hc] at hi
        rcases List.mem_pair.1 hi with rfl | rfl
        · simp [Cpp.emptyBlob?, hcode c hc]
        · rfl
    · obtain rfl := List.mem_singleton.1 hi
      rfl
  simp [embeddingFile, Cpp.emptyBlobs?, Cpp.emptyBlob?, hinner]

/-- Without empty blobs, every file can be written in either language. -/
theorem emitAll_total (language : OutputLanguage) {fs : List File}
    (h : ∀ f ∈ fs, Cpp.emptyBlobs? f.items = none) : ∃ out, language.emitAll fs = .ok out := by
  have hemit : ∀ f ∈ fs, ∃ e, language.emit f = .ok e := by
    intro f hf
    cases language with
    | cpp =>
      obtain ⟨header, more, he, -⟩ := Cpp.writesInOrder (h f hf)
      exact ⟨_, he⟩
    | rust => exact ⟨_, rfl⟩
  obtain ⟨out, hout⟩ := exists_mapM_ok_iff.2 hemit
  exact ⟨out.flatten, by rw [OutputLanguage.emitAll, hout]; rfl⟩

end Rendered

/-- Files that embed the variants of shaders: the enum lists the shaders, a call gives what was
compiled for the shader and the API, or the record for a miss, and the files can be written. -/
structure Embeds (ms : List Manifest) (apis : List Api) (vs : List Variant) (fs : List File) :
    Prop where
  enum : ∃ e, Scope.enum? (fs.flatMap (·.items)) Names.shaderEnum = some e ∧
    e.variants = if apis = [] then [] else (shadersOf ms).map (·.name)
  found : ∀ language, ∀ s ∈ shadersOf ms, ∀ a ∈ apis, ∃ v : Variant, v.Of s a ∧
    (∀ u, u ∈ vs ∧ u.name = s.name ∧ u.api = a ↔ u = v) ∧
    call? language fs Names.lookup s.name a.name =
      some (recordData s.name s.entryPoint (s.binaryName a) s.stage.index
        (v.bytecode.map (·.bytes)))
  countKey : ∀ language, ∀ a : Api,
    call? language fs Names.lookup countVariant a.name = some missingData
  otherApi : ∀ language, ∀ a ∉ apis, apis ≠ [] → ∀ s ∈ shadersOf ms,
    call? language fs Names.lookup s.name a.name = some missingData
  written : ∀ language : OutputLanguage, ∃ out, language.emitAll fs = .ok out

/-- Whatever bytecode was compiled for the jobs of a batch, it can be embedded completely and
faithfully. -/
theorem compiled_shaders_are_embedded {ms : List Manifest} {apis : List Api} {directory : String}
    {platform : Platform} {jobs : List Job} {compiler : Compiler} {w w' : Workspace}
    {vs : List Variant} (hms : WellNamed ms) (ha : apis.Nodup)
    (hplan : planJobs ms apis directory platform = .ok jobs)
    (hrun : (compileJobs compiler jobs).run.run w = (.ok vs, w'))
    (hcode : ∀ v ∈ vs, ∀ c ∈ v.bytecode, c.bytes ≠ [] ∧ c.size < UInt32.size) :
    ∃ fs, embeddingFiles vs apis = .ok fs ∧ Embeds ms apis vs fs := by
  have hv := compileJobs_variants (mapM_ok_iff.1 hplan) hrun
  have hunique := names_nodup hms.unique
  have hdist := variants_nodup hunique ha hv
  have hnames := shaderNames_eq hunique hv
  have hnodup : (shaderNames vs).Nodup := by
    rw [hnames]
    split
    · exact List.nodup_nil
    · exact hunique
  have hne {a : Api} (hmem : a ∈ apis) : shaderNames vs = (shadersOf ms).map (·.name) := by
    rw [hnames, if_neg (List.ne_nil_of_mem hmem)]
  have hfor {a : Api} (hmem : a ∈ apis) :
      (vs.filter (·.api == a)).map (·.name) = shaderNames vs := by
    rw [hne hmem]
    exact map_eq_of_forall₂ ((variants_for ha hmem hv).imp fun _ _ h => h.name)
  refine ⟨_, embeddingFiles_eq hdist fun a hmem => hfor hmem,
    ⟨⟨_, keyEnum_found, hnames⟩, fun language s hs a hmem => ?_, fun language a => ?_,
      fun language a hmem hsome s hs => ?_, fun language => emitAll_total language fun f hf => ?_⟩⟩
  · obtain ⟨v, hmemv, hof⟩ := exists_of_forall₂ (variants_for ha hmem hv) hs
    have hvs := (List.mem_filter.1 hmemv).1
    refine ⟨v, hof, fun u => ⟨fun ⟨hu, hname, hapi⟩ => ?_, fun h => ?_⟩, ?_⟩
    · refine List.inj_on_of_nodup_map hdist hu hvs ?_
      rw [hname, hapi, hof.name, hof.api]
    · exact h ▸ ⟨hvs, hof.name, hof.api⟩
    · have hcall := call?_variant language hnodup (hfor hmem) hmem hmemv
        (hof.name ▸ hms.not_count hs) fun c hc => (hcode v hvs c hc).2
      rwa [hof.name, hof.entryPoint, hof.binaryName, hof.stage] at hcall
  · by_cases hmem : a ∈ apis
    · exact call?_count language hmem
    · obtain ⟨i, hi⟩ := api_position a
      exact call?_unrouted language (not_mem_names hmem) (if_pos rfl) hi
  · obtain ⟨b, hb⟩ := List.exists_mem_of_ne_nil _ hsome
    have hkey : s.name ∈ shaderNames vs := hne hb ▸ List.mem_map_of_mem hs
    obtain ⟨k, hk, -⟩ := position?_of_mem hnodup hkey (hms.not_count hs)
    obtain ⟨i, hi⟩ := api_position a
    exact call?_unrouted language (not_mem_names hmem) hk hi
  · rcases List.mem_append.1 hf with hf | hf
    · rcases List.mem_cons.1 hf with rfl | hf
      · rfl
      · obtain ⟨a, -, rfl⟩ := List.mem_map.1 hf
        exact embeddingFile_blobs fun v hvs c hc => (hcode v hvs c hc).1
    · obtain rfl := List.mem_singleton.1 hf
      rfl

def quad : Manifest :=
  ⟨"a.shaders", "a.hlsl", [⟨"Quad", "main", .pixel, [], "a.hlsl"⟩,
    ⟨"Layout", "root", .rootSignature, [], "a.hlsl"⟩]⟩

def fixedCompiler : Compiler := fun d => return ⟨[7, 9], d.entryPoint, d.stage⟩

theorem quad_wellNamed : WellNamed [quad] where
  valid := by
    have hcheck : ∀ m ∈ [quad], ∀ s ∈ m.shaders, (checkName m.path s.name).toOption = some () := by
      decide +kernel
    exact fun m hm s hs => ok_of_toOption (hcheck m hm s hs)
  unique := rfl

theorem quad_embedded : ∃ jobs vs fs w, WellNamed [quad] ∧ [Api.vulkan, .d3d12].Nodup ∧
    planJobs [quad] [.vulkan, .d3d12] "out" .linux = .ok jobs ∧
    (compileJobs fixedCompiler jobs).run.run default = (.ok vs, w) ∧
    (∀ v ∈ vs, ∀ c ∈ v.bytecode, c.bytes ≠ [] ∧ c.size < UInt32.size) ∧
    embeddingFiles vs [.vulkan, .d3d12] = .ok fs ∧ Embeds [quad] [.vulkan, .d3d12] vs fs := by
  have hcompiled : (planJobs [quad] [.vulkan, .d3d12] "out" .linux).toOption.any fun jobs =>
      ((compileJobs fixedCompiler jobs).run.run default).1.toOption.any fun vs =>
        ∀ v ∈ vs, ∀ c ∈ v.bytecode, c.bytes ≠ [] ∧ c.size < UInt32.size := by decide +kernel
  obtain ⟨jobs, hjobs, hcompiled⟩ := exists_of_toOption_any hcompiled
  obtain ⟨vs, hvs, hcode⟩ := exists_of_toOption_any hcompiled
  have hrun : (compileJobs fixedCompiler jobs).run.run default = (.ok vs, _) := Prod.ext hvs rfl
  have hcode := of_decide_eq_true hcode
  have hapis : [Api.vulkan, .d3d12].Nodup := by decide
  obtain ⟨fs, hfs, hembeds⟩ := compiled_shaders_are_embedded quad_wellNamed hapis hjobs hrun hcode
  exact ⟨jobs, vs, fs, _, quad_wellNamed, hapis, hjobs, hrun, hcode, hfs, hembeds⟩

/-- Without an API nothing is compiled, and the enum has no shaders whatever was declared. -/
theorem quad_without_api : ∃ jobs vs fs w, WellNamed [quad] ∧ ([] : List Api).Nodup ∧
    planJobs [quad] [] "out" .linux = .ok jobs ∧
    (compileJobs fixedCompiler jobs).run.run default = (.ok vs, w) ∧
    embeddingFiles vs [] = .ok fs ∧
    ∀ e, Scope.enum? (fs.flatMap (·.items)) Names.shaderEnum = some e →
      e.variants ≠ (shadersOf [quad]).map (·.name) := by
  refine ⟨[], [], _, default, quad_wellNamed, .nil, rfl, rfl, rfl, fun e he => ?_⟩
  obtain rfl := Option.some.inj he
  decide

end ShaderBuild.Builtin
