import Mathlib.Data.List.Perm.Lattice
import ShaderBuild.Proofs.Metadata.DeclarationOrder
import ShaderBuild.Proofs.Metadata.Lookups

namespace ShaderBuild

namespace Code

/-- The names that an item declares where it stands. -/
def Item.globals : Item → List String
  | .comment _ => []
  | .enum d => [d.name]
  | .struct d => [d.name]
  | .wrapper d => [d.name]
  | .instance_ d => [d.name]
  | .table d => [d.name, d.lookup]
  | .blob d => [d.name]
  | .module name _ => [name]
  | .dispatcher d => [d.name]

def File.globals (f : File) : List String := f.items.flatMap Item.globals

end Code

namespace Metadata

open Code

/-- What every generated file of a bucket declares, whatever its resources are. -/
def bucketNames (b : Bucket) : List String :=
  [enumName b, kindName b, invalidName b, idTableName b, "Get" ++ kindName b, nameTableName b,
    "Get" ++ kindName b ++ "ByName"]

def instanceNames (t : ResourceTable) : List String :=
  t.entries.map fun r => instanceName t.bucket r.name

/-- The names of shared structs and of structured resources keep clear of each other's wrappers and
of the names that are made of buckets. -/
structure NamesClear (g : Registry) (shared : List String) : Prop where
  structs : ∀ n ∈ shared ++ g.structured.map (·.name), ∀ b, n ∉ bucketNames b
  structInstances : ∀ n ∈ shared ++ g.structured.map (·.name), ∀ t ∈ g.tables, n ∉ instanceNames t
  structWrappers : ∀ n ∈ shared ++ g.structured.map (·.name), ∀ r ∈ g.structured,
    n ≠ wrapperName r.name
  wrappers : ∀ r ∈ g.structured, ∀ b : Bucket, r.name ≠ b.name ∧ r.name ≠ "Get" ++ b.name
  wrapperInstances : ∀ r ∈ g.structured, ∀ t ∈ g.tables, wrapperName r.name ∉ instanceNames t

section Naming

theorem bucketNames_nodup : (Bucket.all.flatMap bucketNames).Nodup := by decide +kernel

theorem toList_instanceName (b : Bucket) (n : String) :
    (instanceName b n).toList = (kindName b).toList ++ '_' :: n.toList := by
  simp [instanceName, kindName]

theorem bucketNames_plain {b : Bucket} {n : String} (h : n ∈ bucketNames b) : '_' ∉ n.toList := by
  have hall : ∀ b ∈ Bucket.all, ∀ n ∈ bucketNames b, '_' ∉ n.toList := by decide +kernel
  exact hall b b.mem_all n h

theorem takeWhile_instanceName (b : Bucket) (n : String) :
    (instanceName b n).toList.takeWhile (· != '_') = (kindName b).toList := by
  have hplain : ∀ c ∈ (kindName b).toList, (c != '_') = true := by
    intro c hc
    have hne : c ≠ '_' := fun h =>
      bucketNames_plain (b := b) (n := kindName b) (by simp [bucketNames]) (h ▸ hc)
    simpa using hne
  rw [toList_instanceName, List.takeWhile_append_of_pos hplain]
  simp

/-- What stands before the underscore tells the buckets apart. -/
theorem bucket_of_instanceName {a b : Bucket} {m n : String}
    (h : instanceName a m = instanceName b n) : a = b := by
  have hk := takeWhile_instanceName a m
  rw [h, takeWhile_instanceName] at hk
  exact kindName_inj (String.toList_injective hk.symm)

theorem wrapperName_inj {m n : String} (h : wrapperName m = wrapperName n) : m = n := by
  simpa [wrapperName] using h

theorem wrapperName_mem_bucketNames {n : String} {b : Bucket} :
    wrapperName n ∈ bucketNames b ↔ n = b.name ∨ n = "Get" ++ b.name := by
  have hlast : ∀ m : String, m.toList.getLast? ≠ some 'a' → wrapperName n ≠ m := by
    rintro _ hm rfl
    simp [wrapperName] at hm
  have hend : ∀ p s : String, s.toList.getLast? ≠ none → s.toList.getLast? ≠ some 'a' →
      (p ++ s).toList.getLast? ≠ some 'a' := by
    intro p s hn hs
    rw [String.toList_append, List.getLast?_append,
      Option.or_of_isSome (Option.isSome_iff_ne_none.2 hn)]
    exact hs
  have hkind : wrapperName n = kindName b ↔ n = b.name := by simp [wrapperName, kindName]
  have hget : wrapperName n = "Get" ++ kindName b ↔ n = "Get" ++ b.name := by
    simp [wrapperName, kindName, ← String.append_assoc]
  have henum := hlast _ (hend b.name "s" (by decide) (by decide))
  have hinvalid := hlast _ (hend b.name "MetadataInvalid" (by decide) (by decide))
  have hid := hlast _ (hend b.name "MetadataTable" (by decide) (by decide))
  have hname := hlast _ (hend b.name "MetadataByName" (by decide) (by decide))
  have hby := hlast _ (hend ("Get" ++ kindName b) "ByName" (by decide) (by decide))
  simp only [bucketNames, List.mem_cons, List.not_mem_nil, or_false, hkind, hget]
  simp only [enumName, invalidName, idTableName, nameTableName, henum, hinvalid, hid, hname, hby,
    false_or, or_false]

end Naming

section Files

variable {g : Registry} {nested : List StructDecl} {outs : List (List StructDecl)} {fs : List File}

/-- What the file of a bucket declares, told from its table. -/
def tableGlobals (t : ResourceTable) : List String :=
  (structuredIn [t]).map (·.name) ++ ((structuredIn [t]).map (wrapperName ·.name) ++
    (bucketNames t.bucket ++ instanceNames t))

theorem bucketFile_globals {t : ResourceTable} {ds : List StructDecl}
    (hn : ds.map (·.name) = (structuredIn [t]).map (·.name)) :
    (bucketFile t ds).globals.Perm (tableGlobals t) := by
  have hstructs : (if t.bucket.isStructured then
      ds.map Item.struct ++ t.entries.map fun r => .wrapper (wrapper r) else []).flatMap
        Item.globals =
      (structuredIn [t]).map (·.name) ++ (structuredIn [t]).map (wrapperName ·.name) := by
    rw [← hn]
    cases hb : t.bucket.isStructured with
    | true =>
      simp [structuredIn, hb, List.flatMap_map, Item.globals, wrapper, ← List.map_eq_flatMap]
    | false => simpa [structuredIn, hb] using hn.symm
  have hinst : (t.entries.flatMap fun r => [Item.comment (summary r),
      .instance_ (resourceInstance t.bucket r)]).flatMap Item.globals = instanceNames t := by
    simp [instanceNames, List.flatMap_assoc, Item.globals, resourceInstance, ← List.map_eq_flatMap]
  have heq : (bucketFile t ds).globals = (bucketNames t.bucket).take 2 ++
      ((structuredIn [t]).map (·.name) ++ (structuredIn [t]).map (wrapperName ·.name) ++
        instanceNames t ++ (bucketNames t.bucket).drop 2) := by
    simp only [File.globals, bucketFile, List.cons_append, List.flatMap_cons, List.flatMap_append,
      hstructs, hinst]
    simp [bucketNames, Item.globals, kindStruct, invalidInstance, idTable, nameTable]
  rw [heq, tableGlobals]
  nth_rewrite 3 [← List.take_append_drop 2 (bucketNames t.bucket)]
  refine List.perm_iff_count.2 fun n => ?_
  simp only [List.count_append]
  omega

theorem zipWith_globals {ts : List ResourceTable}
    (h : List.Forall₂ (fun t out => List.Forall₂ (DataOf nested) (structuredIn [t]) out) ts outs) :
    ((List.zipWith bucketFile ts outs).flatMap File.globals).Perm (ts.flatMap tableGlobals) := by
  induction h with
  | nil => exact .nil
  | cons hout _ ih => exact (bucketFile_globals (dataNames hout)).append ih

theorem structuredIn_eq_flatMap (ts : List ResourceTable) :
    structuredIn ts = ts.flatMap fun t => structuredIn [t] := by
  simp [structuredIn]

theorem Generated.globals (h : Generated g nested outs fs) :
    (fs.flatMap File.globals).Perm (nested.map (·.name) ++ g.structured.map (·.name) ++
      (g.structured.map (wrapperName ·.name) ++
        (g.tables.flatMap (fun t => bucketNames t.bucket) ++ g.tables.flatMap instanceNames))) := by
  have htypes : (typesFileOf nested).globals = nested.map (·.name) := by
    simp [typesFileOf, File.globals, List.flatMap_map, Item.globals, ← List.map_eq_flatMap]
  have humbrella : (umbrella g).globals = [] := rfl
  obtain ⟨-, heach⟩ := tableStructs_each .nil h.structs
  have hbuckets := zipWith_globals heach
  rw [h.files, List.cons_append, List.flatMap_cons, List.flatMap_append, htypes,
    List.flatMap_singleton, humbrella, List.append_nil, List.append_assoc, Registry.structured,
    structuredIn_eq_flatMap, List.map_flatMap, List.map_flatMap]
  refine (hbuckets.trans ?_).append_left _
  refine .symm ((List.Perm.append_left _ ?_).trans (List.flatMap_append_perm ..))
  exact (List.Perm.append_left _ (List.flatMap_append_perm ..)).trans (List.flatMap_append_perm ..)

theorem instanceNames_nodup {ts : List ResourceTable}
    (hb : ts.Pairwise fun t u => t.bucket ≠ u.bucket)
    (hn : ∀ t ∈ ts, (t.entries.map (·.name)).Nodup) : (ts.flatMap instanceNames).Nodup := by
  refine List.nodup_flatMap.2 ⟨fun t ht => ?_, hb.imp fun hne => ?_⟩
  · rw [instanceNames, ← Function.comp_def, ← List.map_map]
    exact (hn t ht).map fun _ _ => instanceName_inj
  · simp only [Function.onFun, List.disjoint_left, instanceNames, List.mem_map]
    rintro _ ⟨r, -, rfl⟩ ⟨s, -, hs⟩
    exact hne (bucket_of_instanceName hs).symm

theorem not_mem_instanceNames {n : String} (h : '_' ∉ n.toList) (t : ResourceTable) :
    n ∉ instanceNames t := by
  intro hn
  obtain ⟨r, -, rfl⟩ := List.mem_map.1 hn
  exact h (toList_instanceName .. ▸ by simp)

theorem Generated.structNames_nodup (h : Generated g nested outs fs) :
    (nested.map (·.name) ++ g.structured.map (·.name)).Nodup := by
  refine List.Nodup.append h.grows.sound.distinct (checkNames_ok h.names).2 ?_
  rw [← dataNames h.data, List.disjoint_left]
  intro n hn hd
  obtain ⟨e, he, rfl⟩ := List.mem_map.1 hn
  obtain ⟨d, hd, hne⟩ := List.mem_map.1 hd
  exact h.apart d hd e he hne.symm

/-- Wrappers meet what is made of buckets only over the name of a bucket itself. -/
theorem disjoint_wrappers_iff :
    (g.structured.map (wrapperName ·.name)).Disjoint
        (Bucket.all.flatMap bucketNames ++ g.tables.flatMap instanceNames) ↔
      (∀ r ∈ g.structured, ∀ b : Bucket, r.name ≠ b.name ∧ r.name ≠ "Get" ++ b.name) ∧
        ∀ r ∈ g.structured, ∀ t ∈ g.tables, wrapperName r.name ∉ instanceNames t := by
  simp [List.disjoint_left, wrapperName_mem_bucketNames, Bucket.mem_all, imp_and, forall_and]

theorem disjoint_structs_iff {ns : List String} :
    ns.Disjoint (g.structured.map (wrapperName ·.name) ++
        (Bucket.all.flatMap bucketNames ++ g.tables.flatMap instanceNames)) ↔
      (∀ n ∈ ns, ∀ r ∈ g.structured, n ≠ wrapperName r.name) ∧
        (∀ n ∈ ns, ∀ b, n ∉ bucketNames b) ∧ ∀ n ∈ ns, ∀ t ∈ g.tables, n ∉ instanceNames t := by
  simp [List.disjoint_left, Bucket.mem_all, eq_comm, imp_and, forall_and]

theorem bucketNames_instances_nodup (hbucket : ∀ b, (g.table b).bucket = b)
    (hnames : ∀ b, ((g.table b).entries.map (·.name)).Nodup) :
    (Bucket.all.flatMap bucketNames ++ g.tables.flatMap instanceNames).Nodup := by
  have htables : g.tables.Pairwise fun t u => t.bucket ≠ u.bucket := by
    simp only [Registry.tables, List.pairwise_map, hbucket]
    decide
  have hinst : (g.tables.flatMap instanceNames).Nodup := by
    refine instanceNames_nodup htables fun t ht => ?_
    obtain ⟨b, -, rfl⟩ := List.mem_map.1 ht
    exact hnames b
  refine List.Nodup.append bucketNames_nodup hinst (List.disjoint_left.2 fun n hn hi => ?_)
  obtain ⟨b, -, hb⟩ := List.mem_flatMap.1 hn
  obtain ⟨t, -, ht⟩ := List.mem_flatMap.1 hi
  exact not_mem_instanceNames (bucketNames_plain hb) t ht

theorem Generated.globals_nodup_iff (h : Generated g nested outs fs)
    (hbucket : ∀ b, (g.table b).bucket = b)
    (hnames : ∀ b, ((g.table b).entries.map (·.name)).Nodup) :
    (fs.flatMap File.globals).Nodup ↔ NamesClear g (nested.map (·.name)) := by
  have hfixed : g.tables.flatMap (fun t => bucketNames t.bucket) =
      Bucket.all.flatMap bucketNames := by
    simp [Registry.tables, List.flatMap_map, hbucket]
  have hwrappers : (g.structured.map (wrapperName ·.name)).Nodup := by
    rw [← Function.comp_def, ← List.map_map]
    exact (checkNames_ok h.names).2.map fun _ _ => wrapperName_inj
  -- each of the three lists is free of repetitions, so only their meeting is left to tell
  rw [h.globals.nodup_iff, hfixed, List.nodup_append', and_iff_right h.structNames_nodup,
    List.nodup_append', and_iff_right hwrappers,
    and_iff_right (bucketNames_instances_nodup hbucket hnames), disjoint_wrappers_iff,
    disjoint_structs_iff]
  constructor
  · rintro ⟨⟨hw, hwi⟩, hsw, hs, hsi⟩
    exact ⟨hs, hsi, hsw, hw, hwi⟩
  · intro hc
    exact ⟨⟨hc.wrappers, hc.wrapperInstances⟩, hc.structWrappers, hc.structs, hc.structInstances⟩

/-- After any run that accepts every shader, the names in the generated files are distinct exactly if
shared structs and structured resources keep clear of the names that generation makes. -/
theorem generated_names_distinct_iff {xs : List Reflection}
    (h : xs.foldlM Registry.add .empty = .ok g) (hf : files g = .ok fs) :
    ∃ (types : File) (rest : List File), fs = types :: rest ∧ types.name = typesFile ∧
      ((fs.flatMap File.globals).Nodup ↔ NamesClear g (types.structs.map (·.name))) := by
  obtain ⟨ht, -⟩ := Registry.run_ok h
  have hnum := Registry.run_numbered ht
  obtain ⟨nested, outs, hg⟩ := files_ok hf
  have hiff := hg.globals_nodup_iff (fun b => (hnum b).bucket) fun b => (hnum b).nodup
  refine ⟨typesFileOf nested, _, hg.files, rfl, ?_⟩
  rwa [typesFile_structs]

theorem twoShaders_keep_clear : ∃ g fs shared, twoShaders.foldlM Registry.add .empty = .ok g ∧
    files g = .ok fs ∧ (fs.flatMap File.globals).Nodup ∧ NamesClear g shared := by
  have ha : (twoShaders.foldlM Registry.add .empty >>= files).toOption.any fun fs =>
      (fs.flatMap File.globals).Nodup := by decide +kernel
  obtain ⟨fs, hr, ha⟩ := exists_of_toOption_any ha
  have hnodup := of_decide_eq_true ha
  obtain ⟨g, hg, hf⟩ := (bind_ok_iff _ _ _).1 hr
  obtain ⟨types, rest, -, -, hiff⟩ := generated_names_distinct_iff hg hf
  exact ⟨g, fs, _, hg, hf, hnodup, hiff.1 hnodup⟩

def namedLikeBucket : Reflection :=
  ⟨.hlsl, [⟨.pixel, "main", [⟨"Texture", some "Texture", .constantBuffer, 0, 0,
    some ⟨"Texture", 4, [⟨"tint", 0, .scalar .float⟩]⟩⟩]⟩]⟩

/-- The wrapper of the constant buffer has the name of the kind struct of textures. -/
theorem namedLikeBucket_collides : ∃ g fs, [namedLikeBucket].foldlM Registry.add .empty = .ok g ∧
    files g = .ok fs ∧ (∀ t ∈ g.tables, ∀ r ∈ t.entries, Text.isIdentifier r.name) ∧
    ¬(fs.flatMap File.globals).Nodup := by
  have ha : ([namedLikeBucket].foldlM Registry.add .empty).toOption.any fun g =>
      (files g).toOption.any fun fs =>
        (∀ t ∈ g.tables, ∀ r ∈ t.entries, Text.isIdentifier r.name) ∧
          ¬(fs.flatMap File.globals).Nodup := by decide +kernel
  obtain ⟨g, hg, ha⟩ := exists_of_toOption_any ha
  obtain ⟨fs, hf, ha⟩ := exists_of_toOption_any ha
  exact ⟨g, fs, hg, hf, of_decide_eq_true ha⟩

end Files

end Metadata

end ShaderBuild
