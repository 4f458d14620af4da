import ShaderBuild.Proofs.Builtin.Embedded
import ShaderBuild.Proofs.Code.Escaping
import ShaderBuild.Proofs.Code.ItemLines
import ShaderBuild.Proofs.Metadata.FieldNames
import ShaderBuild.Proofs.Metadata.Lookups

namespace ShaderBuild

open Text (Wordy wordy_of_isIdentifier)

namespace Code

def File.enums (f : File) : List EnumDecl := (flattenItems f.items).filterMap Item.enum?

def File.allStructs (f : File) : List StructDecl := (flattenItems f.items).filterMap Item.struct?

/-- Files from either generator: metadata of resources that have identifiers for names, or an
embedding of shaders from manifests. -/
inductive Produced : List File → Prop
  | metadata {g : Registry} {fs : List File} (accepted : Metadata.files g = .ok fs)
    (named : ∀ t ∈ g.tables, ∀ r ∈ t.entries, Text.isIdentifier r.name) : Produced fs
  | embedding {ms : List Builtin.Manifest} {vs : List Builtin.Variant} {apis : List Api}
    {fs : List File} (gathered : Builtin.Gathered ms)
    (declared : ∀ v ∈ vs, ∃ s ∈ Builtin.shadersOf ms, s.name = v.name)
    (embedded : Builtin.embeddingFiles vs apis = .ok fs) : Produced fs

/-- Variants that stand apart from the end of their enum. -/
structure EnumDecl.Tame (d : EnumDecl) : Prop where
  wordy : ∀ v ∈ d.variants, Wordy v
  apart : countVariant ∉ d.variants

instance (d : EnumDecl) : Decidable d.Tame :=
  decidable_of_iff ((∀ v ∈ d.variants, Wordy v) ∧ countVariant ∉ d.variants)
    ⟨fun h => ⟨h.1, h.2⟩, fun h => ⟨h.wordy, h.apart⟩⟩

def StructDecl.Tame (d : StructDecl) : Prop := ∀ e ∈ d.fields, Wordy e.name

structure File.Tame (f : File) : Prop where
  enums : ∀ d ∈ f.enums, d.Tame
  structs : ∀ d ∈ f.allStructs, d.Tame

section Spelling

open Rust

/-- How the names of a declaration are written, with those that it always has behind them. -/
structure Spelled (names fixed out : List String) : Prop where
  written : out = names.map ident ++ fixed
  free : ∀ n ∈ out, n ∉ keywords
  apart : names.Nodup → (out.Nodup ↔ ¬Clash names)

theorem EnumDecl.Tame.spelled {d : EnumDecl} (h : d.Tame) :
    Spelled d.variants [countVariant] (writtenVariants (enumDecl d)) := by
  have hhash : ∀ v ∈ d.variants, '#' ∉ v.toList := fun v hv => (h.wordy v hv).plain (by decide)
  have hcount : countVariant ∉ d.variants.map ident := by
    intro hm
    obtain ⟨v, hv, he⟩ := List.mem_map.1 hm
    exact h.apart (ident_eq_count (hhash v hv) he ▸ hv)
  rw [writtenVariants_enumDecl fun v hv => (h.wordy v hv).plain (by decide)]
  refine ⟨rfl, fun n hn => ?_, fun hd => ?_⟩
  · rcases List.mem_append.1 hn with hn | hn
    · obtain ⟨v, -, rfl⟩ := List.mem_map.1 hn
      exact ident_not_keyword v
    · exact List.mem_singleton.1 hn ▸ by decide
  · rw [← List.concat_eq_append, List.nodup_concat, ← map_ident_nodup_iff hd hhash]
    exact and_iff_right hcount

theorem StructDecl.Tame.spelled {d : StructDecl} (h : d.Tame) :
    Spelled (d.fields.map (·.name)) [] (writtenFields (structDecl d)) := by
  have hnames : (d.fields.map fun f => ident f.name) = (d.fields.map (·.name)).map ident := by
    rw [List.map_map, Function.comp_def]
  rw [writtenFields_structDecl fun e he => (h e he).plain (by decide), hnames]
  refine ⟨(List.append_nil _).symm, fun n hn => ?_, fun hd => map_ident_nodup_iff hd fun n hn => ?_⟩
  · obtain ⟨v, -, rfl⟩ := List.mem_map.1 hn
    exact ident_not_keyword v
  · obtain ⟨e, he, rfl⟩ := List.mem_map.1 hn
    exact (h e he).plain (by decide)

theorem wrapper_spelled (d : WrapperDecl) :
    Spelled ["data"] [] (writtenFields (wrapperDecl d)) := by
  rw [writtenFields_wrapperDecl]
  exact ⟨by decide, by decide, fun hd => map_ident_nodup_iff hd (by decide)⟩

end Spelling

end Code

namespace Metadata

open Code

variable {g : Registry} {nested : List StructDecl} {outs : List (List StructDecl)} {fs : List File}

theorem mem_zipWith_bucketFile {ts : List ResourceTable} {f : File}
    (h : f ∈ List.zipWith bucketFile ts outs) : ∃ t ∈ ts, ∃ ds, f = bucketFile t ds := by
  obtain ⟨i, hi, rfl⟩ := List.mem_iff_getElem.1 h
  rw [List.getElem_zipWith]
  exact ⟨_, List.getElem_mem _, _, rfl⟩

theorem bucketFile_enums (t : ResourceTable) (ds : List StructDecl) :
    (bucketFile t ds).enums = [⟨enumName t.bucket, t.entries.map (·.name)⟩] := by
  rw [File.enums, bucketFile_flat]
  cases h : t.bucket.isStructured <;>
    simp [bucketFile, h, List.filterMap_cons, List.filterMap_append, List.filterMap_flatMap,
      List.filterMap_map, Function.comp_def, Item.enum?]

theorem Generated.flat (h : Generated g nested outs fs) {f : File} (hf : f ∈ fs) :
    flattenItems f.items = f.items ∧
      ∀ d ∈ f.enums, ∃ t ∈ g.tables, d = ⟨enumName t.bucket, t.entries.map (·.name)⟩ := by
  rw [h.files, List.cons_append, List.mem_cons, List.mem_append, List.mem_singleton] at hf
  rcases hf with rfl | hf | rfl
  · have hflat : flattenItems (typesFileOf nested).items = (typesFileOf nested).items :=
      flattenItems_of_flat fun i hi => by
        obtain ⟨d, -, rfl⟩ := List.mem_map.1 hi
        rfl
    refine ⟨hflat, fun d hd => ?_⟩
    rw [File.enums, hflat] at hd
    simp [typesFileOf, List.filterMap_map, Function.comp_def, Item.enum?] at hd
  · obtain ⟨t, ht, ds, rfl⟩ := mem_zipWith_bucketFile hf
    refine ⟨bucketFile_flat t ds, fun d hd => ⟨t, ht, ?_⟩⟩
    rw [bucketFile_enums] at hd
    exact List.mem_singleton.1 hd
  · exact ⟨rfl, List.forall_mem_nil _⟩

theorem Generated.tame (h : Generated g nested outs fs)
    (hid : ∀ t ∈ g.tables, ∀ r ∈ t.entries, Text.isIdentifier r.name) {f : File} (hf : f ∈ fs) :
    f.Tame := by
  constructor
  · intro d hd
    obtain ⟨t, ht, rfl⟩ := (h.flat hf).2 d hd
    constructor
    · intro v hv
      obtain ⟨r, hr, rfl⟩ := List.mem_map.1 hv
      exact wordy_of_isIdentifier (hid t ht r hr)
    · intro hv
      obtain ⟨r, hr, hname⟩ := List.mem_map.1 hv
      have hfree := (checkNames_ok h.names).1 t ht r hr
      rw [isReserved, hname] at hfree
      exact absurd hfree (by decide)
  · intro d hd e he
    have hmem : d ∈ declared fs := by
      rw [File.allStructs, (h.flat hf).1] at hd
      exact List.mem_flatMap.2 ⟨f, hf, hd⟩
    rcases (h.fields_usable hmem).2 e he with hu | ⟨hn, -⟩
    · exact wordy_of_isIdentifier hu.identifier
    · rw [hn]
      decide

end Metadata

namespace Builtin

open Code

variable {ms : List Manifest} {vs : List Variant} {names : List String} {apis : List Api}

structure IsData (i : Item) : Prop where
  flat : i.flatten = [i]
  enum : i.enum? = none
  struct : i.struct? = none

theorem variantItems_data {v : Variant} {i : Item} (h : i ∈ variantItems v) : IsData i := by
  unfold variantItems at h
  dsimp only at h
  split at h
  · rcases List.mem_pair.1 h with rfl | rfl <;> exact ⟨rfl, rfl, rfl⟩
  · obtain rfl := List.mem_singleton.1 h
    exact ⟨rfl, rfl, rfl⟩

theorem apiFile_data {a : Api} {f : File} (h : apiFile vs names a = .ok f) :
    f.enums = [] ∧ f.allStructs = [] := by
  obtain ⟨is, his, rfl⟩ := apiFile_ok h
  have hdata : ∀ i ∈ is ++ [Item.table (shaderTable names)], IsData i := by
    rw [List.forall_mem_append, List.forall_mem_singleton]
    refine ⟨fun i hi => ?_, ⟨rfl, rfl, rfl⟩⟩
    obtain ⟨v, -, hv⟩ := his i hi
    exact variantItems_data hv
  have hitems : flattenItems [Item.module a.name (is ++ [.table (shaderTable names)])] =
      .module a.name (is ++ [.table (shaderTable names)]) ::
        (is ++ [.table (shaderTable names)]) := by
    rw [flattenItems, Item.flatten, flattenItems_of_flat fun i hi => (hdata i hi).flat, flattenItems,
      List.append_nil]
  have hnone {α : Type} {p : Item → Option α} (hmodule : ∀ n is, p (.module n is) = none)
      (hp : ∀ i, IsData i → p i = none) : (flattenItems [Item.module a.name (is ++
        [.table (shaderTable names)])]).filterMap p = [] := by
    rw [hitems, List.filterMap_cons_none (hmodule ..), List.filterMap_eq_nil_iff]
    exact fun i hi => hp i (hdata i hi)
  exact ⟨hnone (fun _ _ => rfl) fun i hi => hi.enum, hnone (fun _ _ => rfl) fun i hi => hi.struct⟩

theorem shaderEnum_tame (hms : Gathered ms)
    (hv : ∀ v ∈ vs, ∃ s ∈ shadersOf ms, s.name = v.name) :
    (EnumDecl.mk Names.shaderEnum (shaderNames vs)).Tame := by
  have hname : ∀ n ∈ shaderNames vs, ∃ s ∈ shadersOf ms, s.name = n := by
    intro n hn
    obtain ⟨v, hmem, rfl⟩ := mem_shaderNames.1 hn
    exact hv v hmem
  constructor
  · intro n hn
    obtain ⟨s, hs, rfl⟩ := hname n hn
    exact wordy_of_isIdentifier (hms.isIdentifier hs)
  · intro hn
    obtain ⟨s, hs, hcount⟩ := hname _ hn
    exact hms.not_count hs hcount

theorem embedding_tame {fs : List File} (hms : Gathered ms)
    (hv : ∀ v ∈ vs, ∃ s ∈ shadersOf ms, s.name = v.name) (h : embeddingFiles vs apis = .ok fs)
    {f : File} (hf : f ∈ fs) : f.Tame := by
  have hstages : (EnumDecl.mk Names.stageEnum (Stage.all.map (·.name))).Tame := by decide
  have hapis : (EnumDecl.mk Names.apiEnum (Api.all.map (·.name))).Tame := by decide
  have hrecord : (StructDecl.mk Names.record
      [.plain "name" .str, .plain "entryPoint" .str, .plain "uniqueBinaryName" .str,
        .plain "shaderStage" (.enum Names.stageEnum), .plain "bytecode" .bytes,
        .plain "bytecodeSize" .uint32]).Tame := by
    unfold StructDecl.Tame
    decide
  simp only [embeddingFiles, bind_ok_iff, pure_ok_iff] at h
  obtain ⟨apiFiles, hapiFiles, rfl⟩ := h
  rcases List.mem_append.1 hf with hf | hf
  · rcases List.mem_cons.1 hf with rfl | hf
    · exact ⟨List.forall_mem_cons.2 ⟨shaderEnum_tame hms hv, List.forall_mem_singleton.2 hstages⟩,
        List.forall_mem_singleton.2 hrecord⟩
    · obtain ⟨a, -, ha⟩ := mem_of_mapM_ok hapiFiles hf
      constructor
      · rw [(apiFile_data ha).1]
        exact List.forall_mem_nil _
      · rw [(apiFile_data ha).2]
        exact List.forall_mem_nil _
  · obtain rfl := List.mem_singleton.1 hf
    refine ⟨fun d hd => ?_, List.forall_mem_nil _⟩
    obtain rfl := List.mem_singleton.1 hd
    exact hapis

end Builtin

namespace Code.Rust

variable {fs : List File} {f : File}

/-- Both generators keep the names of enums and structs in the Rust rendering free of keywords. Names
that differ are written apart unless one is a keyword that gets an underscore and another has that
underscore itself. -/
theorem declared_names_spelled (h : Produced fs) (hf : f ∈ fs) :
    (∀ d ∈ f.enums, enumDecl d <:+: fileLines f ∧
      Spelled d.variants [countVariant] (writtenVariants (enumDecl d))) ∧
    (∀ d ∈ f.allStructs, structDecl d <:+: fileLines f ∧
      Spelled (d.fields.map (·.name)) [] (writtenFields (structDecl d))) ∧
    ∀ d, Item.wrapper d ∈ flattenItems f.items → wrapperDecl d <:+: fileLines f ∧
      Spelled ["data"] [] (writtenFields (wrapperDecl d)) := by
  have htame : f.Tame := by
    cases h with
    | metadata accepted named =>
      obtain ⟨nested, outs, hg⟩ := Metadata.files_ok accepted
      exact hg.tame named hf
    | embedding gathered declared embedded =>
      exact Builtin.embedding_tame gathered declared embedded hf
  refine ⟨?_, ?_, ?_⟩
  · intro d hd
    obtain ⟨i, hi, hdecl⟩ := List.mem_filterMap.1 hd
    obtain rfl : i = .enum d := by cases i <;> simp_all [Item.enum?]
    exact ⟨itemLines_in_file hi, (htame.enums d hd).spelled⟩
  · intro d hd
    obtain ⟨i, hi, hdecl⟩ := List.mem_filterMap.1 hd
    obtain rfl : i = .struct d := by cases i <;> simp_all [Item.struct?]
    exact ⟨itemLines_in_file hi, (htame.structs d hd).spelled⟩
  · exact fun d hd => ⟨itemLines_in_file hd, wrapper_spelled d⟩

def textured (names : List String) : Reflection :=
  ⟨.hlsl, [⟨.pixel, "main", names.mapIdx fun i n => ⟨n, none, .texture, 0, .ofNat i, none⟩⟩]⟩

theorem exists_textured (names : List String) (p : EnumDecl → Prop) [DecidablePred p]
    (h : ([textured names].foldlM Registry.add .empty).toOption.any fun g =>
      (Metadata.files g).toOption.any fun fs =>
        (∀ t ∈ g.tables, ∀ r ∈ t.entries, Text.isIdentifier r.name) ∧
          ∃ f ∈ fs, ∃ d ∈ f.enums, p d) :
    ∃ g fs f d, [textured names].foldlM Registry.add .empty = .ok g ∧
      Metadata.files g = .ok fs ∧ Produced fs ∧ f ∈ fs ∧ d ∈ f.enums ∧ p d := by
  obtain ⟨g, hg, hfiles⟩ := exists_of_toOption_any h
  obtain ⟨fs, hfs, hp⟩ := exists_of_toOption_any hfiles
  obtain ⟨hid, f, hf, d, hd, hp⟩ := of_decide_eq_true hp
  exact ⟨g, fs, f, d, hg, hfs, .metadata hfs hid, hf, hd, hp⟩

/-- Keywords of both kinds are spelled apart. -/
theorem textured_keywords_spelled :
    ∃ g fs f d, [textured ["self", "type"]].foldlM Registry.add .empty = .ok g ∧
      Metadata.files g = .ok fs ∧ Produced fs ∧ f ∈ fs ∧ d ∈ f.enums ∧
      d.variants = ["self", "type"] ∧
      Spelled d.variants [countVariant] (writtenVariants (enumDecl d)) := by
  obtain ⟨g, fs, f, d, hg, hfs, hp, hf, hd, hv⟩ :=
    exists_textured ["self", "type"] (fun d => d.variants = ["self", "type"]) (by decide +kernel)
  exact ⟨g, fs, f, d, hg, hfs, hp, hf, hd, hv, ((declared_names_spelled hp hf).1 d hd).2⟩

/-- Names that differ in an underscore alone, the shorter one a keyword, are written alike. -/
theorem textured_twins_alike :
    ∃ g fs f d, [textured ["self", "self_"]].foldlM Registry.add .empty = .ok g ∧
      Metadata.files g = .ok fs ∧ Produced fs ∧ f ∈ fs ∧ d ∈ f.enums ∧
      d.variants = ["self", "self_"] ∧ d.variants.Nodup ∧
      ¬(writtenVariants (enumDecl d)).Nodup :=
  exists_textured ["self", "self_"] (fun d => d.variants = ["self", "self_"] ∧ d.variants.Nodup ∧
    ¬(writtenVariants (enumDecl d)).Nodup) (by decide +kernel)

end Code.Rust

end ShaderBuild
