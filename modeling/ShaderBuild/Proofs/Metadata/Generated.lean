import ShaderBuild.Metadata.Files
import ShaderBuild.Proofs.Metadata.Placing

namespace ShaderBuild

def structuredIn (ts : List ResourceTable) : List Resource :=
  ts.flatMap fun t => if t.bucket.isStructured then t.entries else []

def Registry.structured (g : Registry) : List Resource := structuredIn g.tables

namespace Metadata

open Code

def inner (r : Resource) : List Source := sourcesOf r.name r.members

def sources (r : Resource) : List Source := ⟨r.name, r.members⟩ :: inner r

structure DataOf (ds : List StructDecl) (r : Resource) (d : StructDecl) : Prop where
  named : d.name = r.name
  built : Built ds r.members r.size d.fields

theorem DataOf.mono {ds es : List StructDecl} (h : ds <+: es) {r : Resource} {d : StructDecl}
    (hd : DataOf ds r d) : DataOf es r d := ⟨hd.named, hd.built.mono h⟩

theorem dataNames {ds out : List StructDecl} {rs : List Resource}
    (h : List.Forall₂ (DataOf ds) rs out) : out.map (·.name) = rs.map (·.name) := by
  induction h with
  | nil => rfl
  | cons hd _ ih => simp [hd.named, ih]

theorem exists_dataOf {ds out : List StructDecl} {rs : List Resource}
    (h : List.Forall₂ (DataOf ds) rs out) :
    (∀ r ∈ rs, ∃ d ∈ out, DataOf ds r d) ∧ ∀ d ∈ out, ∃ r ∈ rs, DataOf ds r d := by
  induction h with
  | nil => simp
  | cons hd _ ih =>
    simp only [List.mem_cons, forall_eq_or_imp, exists_eq_or_imp]
    exact ⟨⟨.inl hd, fun r hr => .inr (ih.1 r hr)⟩, .inl hd, fun d hd => .inr (ih.2 d hd)⟩

theorem dataStruct_ok {r : Resource} {ds es : List StructDecl} {d : StructDecl} (hs : Sound ds)
    (h : dataStruct r ds = .ok (d, es)) : Grows ds (inner r) es ∧ DataOf es r d := by
  simp only [dataStruct, fieldsOf, bind_ok_iff, pure_ok_iff, Prod.exists, Prod.mk.injEq] at h
  obtain ⟨fields, es', ⟨p, hp, hf⟩, rfl, rfl⟩ := h
  have hc := placeAll_covers ⟨.refl hs, rfl, by simp, .nil⟩ hp
  obtain ⟨rfl, hb⟩ := finish_built hc hf
  exact ⟨hc.grows, rfl, hb⟩

theorem dataStructs_ok {rs : List Resource} {ds es out : List StructDecl} (hs : Sound ds)
    (h : dataStructs rs ds = .ok (out, es)) :
    Grows ds (rs.flatMap inner) es ∧ List.Forall₂ (DataOf es) rs out := by
  induction rs generalizing ds out with
  | nil =>
    cases h
    exact ⟨.refl hs, .nil⟩
  | cons r rest ih =>
    simp only [dataStructs, bind_ok_iff, pure_ok_iff, Prod.exists, Prod.mk.injEq] at h
    obtain ⟨d, ds', hd, out', es', hr, rfl, rfl⟩ := h
    obtain ⟨hg, hdata⟩ := dataStruct_ok hs hd
    obtain ⟨hg', hall⟩ := ih hg.sound hr
    exact ⟨hg.trans hg', .cons (hdata.mono hg'.kept) hall⟩

theorem ownStructs_ok {t : ResourceTable} {ds es out : List StructDecl} (hs : Sound ds)
    (h : ownStructs t ds = .ok (out, es)) :
    Grows ds ((structuredIn [t]).flatMap inner) es ∧
      List.Forall₂ (DataOf es) (structuredIn [t]) out ∧
      (t.bucket.isStructured = false → out = []) := by
  cases hb : t.bucket.isStructured with
  | true =>
    obtain ⟨hg, hf⟩ := dataStructs_ok hs (by simpa [ownStructs, hb] using h)
    simpa [structuredIn, hb] using ⟨hg, hf⟩
  | false =>
    obtain ⟨rfl, rfl⟩ : [] = out ∧ ds = es := by simpa [ownStructs, hb] using h
    simpa [structuredIn, hb] using Grows.refl hs

theorem tableStructs_ok {ts : List ResourceTable} {ds es : List StructDecl}
    {outs : List (List StructDecl)} (hs : Sound ds) (h : tableStructs ts ds = .ok (outs, es)) :
    Grows ds ((structuredIn ts).flatMap inner) es ∧
      List.Forall₂ (DataOf es) (structuredIn ts) outs.flatten ∧
      List.Forall₂ (fun t out => t.bucket.isStructured = false → out = []) ts outs := by
  induction ts generalizing ds outs with
  | nil =>
    cases h
    exact ⟨.refl hs, .nil, .nil⟩
  | cons t rest ih =>
    simp only [tableStructs, bind_ok_iff, pure_ok_iff, Prod.exists, Prod.mk.injEq] at h
    obtain ⟨out, ds', ht, outs', es', hr, rfl, rfl⟩ := h
    obtain ⟨hg, hf, hn⟩ := ownStructs_ok hs ht
    obtain ⟨hg', hf', hn'⟩ := ih hg.sound hr
    have he : structuredIn (t :: rest) = structuredIn [t] ++ structuredIn rest := by
      simp [structuredIn]
    rw [he, List.flatMap_append, List.flatten_cons]
    refine ⟨hg.trans hg', List.rel_append ?_ hf', .cons hn hn'⟩
    exact hf.imp fun _ _ hd => hd.mono hg'.kept

theorem nameFault?_none {seen : List Resource} {rs : List (Bool × Resource)}
    (hs : (seen.map (·.name)).Nodup) (h : nameFault? seen rs = none) :
    (∀ x ∈ rs, isReserved x.2.name = false) ∧
      ((seen ++ (rs.filter (·.1)).map (·.2)).map (·.name)).Nodup := by
  induction rs generalizing seen with
  | nil => simpa using hs
  | cons x rest ih =>
    obtain ⟨structured, r⟩ := x
    simp only [nameFault?] at h
    split at h
    · simp at h
    next hr =>
    cases structured with
    | false =>
      obtain ⟨hres, hd⟩ := ih hs (by simpa using h)
      exact ⟨List.forall_mem_cons.2 ⟨by simpa using hr, hres⟩, by simpa using hd⟩
    | true =>
      simp only [if_true] at h
      split at h
      · simp at h
      next hf =>
      have hn : r.name ∉ seen.map (·.name) := by simpa using hf
      have hs' : ((seen ++ [r]).map (·.name)).Nodup := by simpa using hs.concat hn
      obtain ⟨hres, hd⟩ := ih hs' h
      exact ⟨List.forall_mem_cons.2 ⟨by simpa using hr, hres⟩, by simpa using hd⟩

theorem filter_structured (ts : List ResourceTable) :
    ((ts.flatMap fun t => t.entries.map (t.bucket.isStructured, ·)).filter (·.1)).map (·.2) =
      structuredIn ts := by
  induction ts with
  | nil => rfl
  | cons t rest ih =>
    simp only [structuredIn, List.flatMap_cons, List.filter_append, List.map_append] at ih ⊢
    rw [ih]
    cases t.bucket.isStructured <;> simp [List.filter_map, Function.comp_def]

/-- Accepted names: no resource has a reserved one, and structured ones have names of their own. -/
theorem checkNames_ok {g : Registry} (h : checkNames g = .ok ()) :
    (∀ t ∈ g.tables, ∀ r ∈ t.entries, isReserved r.name = false) ∧
      (g.structured.map (·.name)).Nodup := by
  unfold checkNames at h
  split at h
  · simp at h
  next hn =>
  obtain ⟨hres, hd⟩ := nameFault?_none (by simp) hn
  rw [filter_structured] at hd
  refine ⟨fun t ht r hr => hres (t.bucket.isStructured, r) ?_, hd⟩
  exact List.mem_flatMap.2 ⟨t, ht, List.mem_map_of_mem hr⟩

/-- What generation went through to give some files. -/
structure Generated (g : Registry) (nested : List StructDecl) (outs : List (List StructDecl))
    (fs : List File) : Prop where
  names : checkNames g = .ok ()
  structs : tableStructs g.tables [] = .ok (outs, nested)
  apart : ∀ d ∈ outs.flatten, ∀ n ∈ nested, n.name ≠ d.name
  files : fs = typesFileOf nested :: List.zipWith bucketFile g.tables outs ++ [umbrella g]

theorem files_ok {g : Registry} {fs : List File} (h : files g = .ok fs) :
    ∃ nested outs, Generated g nested outs fs := by
  simp only [Metadata.files, bind_ok_iff, Prod.exists] at h
  obtain ⟨_, hn, outs, nested, hs, h⟩ := h
  split at h
  · simp at h
  next hf =>
  refine ⟨nested, outs, hn, hs, fun d hd n hm he => ?_, ((pure_ok_iff ..).1 h).symm⟩
  simp only [List.find?_eq_none] at hf
  exact hf d hd (List.any_eq_true.2 ⟨n, hm, by simp [he]⟩)

theorem Generated.accepted {g : Registry} {nested : List StructDecl} {outs : List (List StructDecl)}
    {fs : List File} (h : Generated g nested outs fs) : Metadata.files g = .ok fs := by
  have hf : outs.flatten.find? (fun d => nested.any (·.name == d.name)) = none := by
    rw [List.find?_eq_none]
    intro d hd hany
    obtain ⟨n, hn, he⟩ := List.any_eq_true.1 hany
    exact h.apart d hd n hn (by simpa using he)
  simp only [Metadata.files, bind_ok_iff, Prod.exists]
  refine ⟨(), h.names, outs, nested, h.structs, ?_⟩
  rw [hf, h.files]
  rfl

theorem typesFile_structs (nested : List StructDecl) : (typesFileOf nested).structs = nested := by
  simp [typesFileOf, File.structs, List.filterMap_map, Function.comp_def, Item.struct?]

theorem bucketFile_structs (t : ResourceTable) (ds : List StructDecl) :
    (bucketFile t ds).structs =
      kindStruct t.bucket :: if t.bucket.isStructured then ds else [] := by
  cases h : t.bucket.isStructured <;>
    simp [bucketFile, File.structs, h, List.filterMap_cons, List.filterMap_append,
      List.filterMap_flatMap, List.filterMap_map, Function.comp_def, Item.struct?]

theorem zipWith_structs {ts : List ResourceTable} {outs : List (List StructDecl)}
    (h : List.Forall₂ (fun t out => t.bucket.isStructured = false → out = []) ts outs) :
    (List.zipWith bucketFile ts outs).flatMap File.structs =
      (List.zipWith (fun t out => kindStruct t.bucket :: out) ts outs).flatten := by
  induction h with
  | nil => rfl
  | @cons t out _ _ ho _ ih =>
    have he : (bucketFile t out).structs = kindStruct t.bucket :: out := by
      rw [bucketFile_structs]
      cases hb : t.bucket.isStructured <;> simp [hb, ho]
    simpa [he] using ih

theorem mem_zipWith_kinds {ts : List ResourceTable} {outs : List (List StructDecl)}
    (hl : ts.length = outs.length) {d : StructDecl} :
    d ∈ (List.zipWith (fun t out => kindStruct t.bucket :: out) ts outs).flatten ↔
      (∃ t ∈ ts, d = kindStruct t.bucket) ∨ d ∈ outs.flatten := by
  induction ts generalizing outs with
  | nil =>
    obtain rfl := List.length_eq_zero_iff.1 hl.symm
    simp
  | cons t rest ih =>
    cases outs with
    | nil => simp at hl
    | cons out outs =>
      have hrest : rest.length = outs.length := by simpa using hl
      simp only [List.zipWith_cons_cons, List.flatten_cons, List.mem_append, List.mem_cons,
        ih hrest, exists_eq_or_imp]
      exact or_or_or_comm

section Declared

variable {g : Registry} {nested : List StructDecl} {outs : List (List StructDecl)} {fs : List File}
  (h : Generated g nested outs fs)

include h

theorem Generated.grows : Grows [] (g.structured.flatMap inner) nested :=
  (tableStructs_ok .nil h.structs).1

theorem Generated.data : List.Forall₂ (DataOf nested) g.structured outs.flatten :=
  (tableStructs_ok .nil h.structs).2.1

theorem Generated.declared_eq : declared fs = nested ++
    (List.zipWith (fun t out => kindStruct t.bucket :: out) g.tables outs).flatten := by
  have hz := zipWith_structs (tableStructs_ok .nil h.structs).2.2
  have hu : (umbrella g).structs = [] := rfl
  rw [h.files, declared, List.cons_append, List.flatMap_cons, List.flatMap_append,
    typesFile_structs, hz]
  simp [hu]

theorem Generated.prefix : nested <+: declared fs :=
  h.declared_eq ▸ List.prefix_append ..

theorem Generated.mem_declared {d : StructDecl} : d ∈ declared fs ↔
    d ∈ nested ∨ (∃ t ∈ g.tables, d = kindStruct t.bucket) ∨ d ∈ outs.flatten := by
  have hl := (tableStructs_ok .nil h.structs).2.2.length_eq
  rw [h.declared_eq, List.mem_append, mem_zipWith_kinds hl]

theorem Generated.lookup_nested {d : StructDecl} (hd : d ∈ nested) :
    lookup (declared fs) d.name = some d :=
  lookup_extends h.prefix _ _ (lookup_of_mem h.grows.sound.distinct hd)

theorem Generated.lookup_data {d : StructDecl} (hd : d ∈ outs.flatten)
    (hk : ∀ t ∈ g.tables, d.name ≠ kindName t.bucket) :
    lookup (declared fs) d.name = some d := by
  have hdist : (outs.flatten.map (·.name)).Nodup :=
    dataNames h.data ▸ (checkNames_ok h.names).2
  refine lookup_of_unique (h.mem_declared.2 (.inr (.inr hd))) fun e he hne => ?_
  rcases h.mem_declared.1 he with he | ⟨t, ht, rfl⟩ | he
  · exact absurd hne (h.apart d hd e he)
  · exact absurd hne.symm (hk t ht)
  · exact List.inj_on_of_nodup_map hdist he hd hne

end Declared

end Metadata

end ShaderBuild
