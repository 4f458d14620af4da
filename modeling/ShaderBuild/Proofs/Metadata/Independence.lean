import ShaderBuild.Code.Language
import ShaderBuild.Proofs.Metadata.Origin

namespace ShaderBuild.Metadata

open Code

section Placing

structure Placement.Alike (p q : Placement) : Prop where
  field : p.field = q.field
  size : p.size = q.size

structure Progress.Alike (p q : Progress) : Prop where
  fields : p.fields = q.fields
  stop : p.stop = q.stop

variable {language : SourceLanguage} {owner name : String}

theorem arrayField_alike {d e p q : Placement} {count stride : Option UInt32} (he : d.Alike e)
    (hp : arrayField owner d count stride = .ok p) (hq : arrayField owner e count stride = .ok q) :
    p.Alike q := by
  simp only [arrayField, bind_ok_iff, pure_ok_iff] at hp hq
  obtain ⟨r, hr, size, hs, rfl⟩ := hp
  obtain ⟨r', hr', size', hs', rfl⟩ := hq
  rw [← he.field, ← he.size, hr] at hr'
  obtain rfl := Except.ok.inj hr'
  rw [hs] at hs'
  obtain rfl := Except.ok.inj hs'
  exact ⟨rfl, rfl⟩

theorem place_alike {span : Option UInt32} {ds es : List StructDecl} {type : MemberType}
    {p q : Placement} (hp : place language owner name span ds type = .ok p)
    (hq : place language owner name span es type = .ok q) : p.Alike q := by
  cases type with
  | scalar k =>
    simp only [place, bind_ok_iff, pure_ok_iff] at hp hq
    obtain ⟨size, hs, rfl⟩ := hp
    obtain ⟨size', hs', rfl⟩ := hq
    exact ⟨rfl, Except.ok.inj (hs.symm.trans hs')⟩
  | vector k n =>
    simp only [place, bind_ok_iff, pure_ok_iff] at hp hq
    obtain ⟨size, hs, rfl⟩ := hp
    obtain ⟨size', hs', rfl⟩ := hq
    exact ⟨rfl, Except.ok.inj (hs.symm.trans hs')⟩
  | matrix k n m =>
    simp only [place, bind_ok_iff, pure_ok_iff] at hp hq
    obtain ⟨size, hs, rfl⟩ := hp
    obtain ⟨size', hs', rfl⟩ := hq
    exact ⟨rfl, Except.ok.inj (hs.symm.trans hs')⟩
  | array e count stride =>
    obtain ⟨d, hd, hp⟩ := (bind_ok_iff ..).1 hp
    obtain ⟨e, he, hq⟩ := (bind_ok_iff ..).1 hq
    exact arrayField_alike (place_alike hd he) hp hq
  | struct s ms =>
    simp only [place, structField, guard_ok_iff, bind_ok_iff, pure_ok_iff, Prod.exists] at hp hq
    obtain ⟨-, stop, hs, _, _, -, _, -, rfl⟩ := hp
    obtain ⟨-, stop', hs', _, _, -, _, -, rfl⟩ := hq
    obtain rfl : stop = stop' := Except.ok.inj (hs.symm.trans hs')
    exact ⟨rfl, rfl⟩

theorem placeAll_alike {ms : List Member} {p p' q q' : Progress} (h : p.Alike p')
    (hq : placeAll language owner p ms = .ok q) (hq' : placeAll language owner p' ms = .ok q') :
    q.Alike q' := by
  induction ms generalizing p p' with
  | nil =>
    cases hq
    cases hq'
    exact h
  | cons m r ih =>
    simp only [placeAll, guard_ok_iff, bind_ok_iff, need_ok_iff] at hq hq'
    obtain ⟨-, -, fields, hpad, placed, hplace, stop, hs, hq⟩ := hq
    obtain ⟨-, -, fields', hpad', placed', hplace', stop', hs', hq'⟩ := hq'
    -- fields and sizes do not depend on the structs that are known, so both go on alike
    have ha := place_alike hplace hplace'
    rw [← h.fields, ← h.stop, hpad] at hpad'
    rw [← ha.size, hs] at hs'
    obtain rfl := Except.ok.inj hpad'
    obtain rfl := Option.some.inj hs'
    have hnext : Progress.Alike ⟨fields ++ [placed.field], stop, placed.nested⟩
        ⟨fields ++ [placed'.field], stop, placed'.nested⟩ := ⟨by rw [ha.field], rfl⟩
    exact ih hnext hq hq'

theorem fieldsOf_alike {ms : List Member} {size : UInt32} {ds es ds' es' : List StructDecl}
    {fields fields' : List Field} (h : fieldsOf language owner ms size ds = .ok (fields, ds'))
    (h' : fieldsOf language owner ms size es = .ok (fields', es')) : fields = fields' := by
  obtain ⟨q, hq, hf⟩ := (bind_ok_iff ..).1 h
  obtain ⟨q', hq', hf'⟩ := (bind_ok_iff ..).1 h'
  have hstart : Progress.Alike ⟨[], 0, ds⟩ ⟨[], 0, es⟩ := ⟨rfl, rfl⟩
  have ha := placeAll_alike hstart hq hq'
  obtain ⟨-, -, hpad, -⟩ := finish_ok hf
  obtain ⟨-, -, hpad', -⟩ := finish_ok hf'
  rw [← ha.fields, ← ha.stop, hpad] at hpad'
  exact Except.ok.inj hpad'

end Placing

section Tables

theorem dataStructs_alike {rs : List Resource} {ds es ds' es' out out' : List StructDecl}
    (h : dataStructs rs ds = .ok (out, ds')) (h' : dataStructs rs es = .ok (out', es')) :
    out = out' := by
  induction rs generalizing ds es out out' with
  | nil =>
    cases h
    cases h'
    rfl
  | cons r rest ih =>
    simp only [dataStructs, dataStruct, bind_ok_iff, pure_ok_iff, Prod.exists, Prod.mk.injEq]
      at h h'
    obtain ⟨d, _, ⟨fields, _, hf, rfl, rfl⟩, out, _, hr, rfl, rfl⟩ := h
    obtain ⟨d', _, ⟨fields', _, hf', rfl, rfl⟩, out', _, hr', rfl, rfl⟩ := h'
    rw [fieldsOf_alike hf hf', ih hr hr']

theorem ownStructs_alike {t : ResourceTable} {ds es ds' es' out out' : List StructDecl}
    (h : ownStructs t ds = .ok (out, ds')) (h' : ownStructs t es = .ok (out', es')) :
    out = out' :=
  dataStructs_alike (ownStructs_flat h) (ownStructs_flat h')

theorem tableStructs_getElem? {ts : List ResourceTable} {ds es : List StructDecl}
    {outs : List (List StructDecl)} (h : tableStructs ts ds = .ok (outs, es)) {i : Nat}
    {t : ResourceTable} (ht : ts[i]? = some t) :
    ∃ out ds' es', outs[i]? = some out ∧ ownStructs t ds' = .ok (out, es') := by
  induction ts generalizing ds outs i with
  | nil => cases ht
  | cons u rest ih =>
    simp only [tableStructs, bind_ok_iff, pure_ok_iff, Prod.exists, Prod.mk.injEq] at h
    obtain ⟨out, ds', ho, outs, _, hr, rfl, rfl⟩ := h
    cases i with
    | zero =>
      obtain rfl := Option.some.inj ht
      exact ⟨out, ds, ds', rfl, ho⟩
    | succ i => exact ih hr ht

end Tables

section Files

/-- The file of a bucket: these stand in the order of the buckets, behind that of shared structs. -/
def bucketFile? (b : Bucket) (fs : List File) : Option File := fs.tail[Bucket.all.idxOf b]?

variable {g : Registry} {nested : List StructDecl} {outs : List (List StructDecl)} {fs : List File}

theorem Generated.bucketFile?_eq (h : Generated g nested outs fs) (b : Bucket) :
    ∃ out ds es, ownStructs (g.table b) ds = .ok (out, es) ∧
      bucketFile? b fs = some (bucketFile (g.table b) out) := by
  have hb : Bucket.all[Bucket.all.idxOf b]? = some b := List.getElem?_idxOf (Bucket.mem_all b)
  have ht : g.tables[Bucket.all.idxOf b]? = some (g.table b) := by
    rw [Registry.tables, List.getElem?_map, hb, Option.map_some]
  obtain ⟨out, ds, es, hout, hown⟩ := tableStructs_getElem? h.structs ht
  refine ⟨out, ds, es, hown, ?_⟩
  have hz : (List.zipWith bucketFile g.tables outs)[Bucket.all.idxOf b]? =
      some (bucketFile (g.table b) out) := by
    rw [List.getElem?_zipWith, ht, hout]
  rw [bucketFile?, h.files, List.cons_append, List.tail_cons,
    List.getElem?_append_left (List.getElem?_eq_some_iff.1 hz).1, hz]

theorem emitAll_of_mem {language : OutputLanguage} {fs : List File} {texts : List EmittedFile}
    (h : language.emitAll fs = .ok texts) {f : File} (hf : f ∈ fs) :
    ∃ own, language.emit f = .ok own ∧ own <:+: texts := by
  obtain ⟨owns, hm, ht⟩ := (bind_ok_iff ..).1 h
  obtain rfl := (pure_ok_iff ..).1 ht
  obtain ⟨own, ho, he⟩ := exists_of_mapM_ok hm hf
  exact ⟨own, he, List.infix_of_mem_flatten ho⟩

/-- Where two registries have the same table for a bucket, they have the same file for it, which is
rendered in the same way. -/
theorem bucket_file_determined_by_table {g g' : Registry} {fs fs' : List File} (h : files g = .ok fs)
    (h' : files g' = .ok fs') {b : Bucket} (ht : g.table b = g'.table b) :
    ∃ f, bucketFile? b fs = some f ∧ bucketFile? b fs' = some f ∧
      f.name = kindName (g.table b).bucket ∧
      ∀ (language : OutputLanguage) texts texts', language.emitAll fs = .ok texts →
        language.emitAll fs' = .ok texts' →
        ∃ own, language.emit f = .ok own ∧ own <:+: texts ∧ own <:+: texts' := by
  obtain ⟨nested, outs, hg⟩ := files_ok h
  obtain ⟨nested', outs', hg'⟩ := files_ok h'
  obtain ⟨out, ds, es, hown, hfile⟩ := hg.bucketFile?_eq b
  obtain ⟨out', ds', es', hown', hfile'⟩ := hg'.bucketFile?_eq b
  rw [← ht] at hown' hfile'
  obtain rfl := ownStructs_alike hown hown'
  refine ⟨_, hfile, hfile', rfl, fun language texts texts' he he' => ?_⟩
  obtain ⟨own, hemit, hin⟩ := emitAll_of_mem he (List.mem_of_mem_tail (List.mem_of_getElem? hfile))
  obtain ⟨own', hemit', hin'⟩ :=
    emitAll_of_mem he' (List.mem_of_mem_tail (List.mem_of_getElem? hfile'))
  obtain rfl := Except.ok.inj (hemit.symm.trans hemit')
  exact ⟨own, hemit, hin, hin'⟩

def bothOf (r s : Resource) : Registry :=
  ⟨fun b => if b = r.bucket then (registryOf r).table b else (registryOf s).table b, 2⟩

/-- The file of the constant buffer is the same beside a storage buffer and alone, although the
structs of the latter are shared too. -/
theorem scene_alone_or_beside_swarm :
    (registryOf scene).table .constantBuffer = (bothOf scene swarm).table .constantBuffer ∧
    ∃ fs fs', files (registryOf scene) = .ok fs ∧ files (bothOf scene swarm) = .ok fs' ∧
      fs.head?.map (·.structs.length) = some 2 ∧ fs'.head?.map (·.structs.length) = some 4 ∧
      ∃ f, bucketFile? .constantBuffer fs = some f ∧ bucketFile? .constantBuffer fs' = some f := by
  have ha : (files (registryOf scene)).toOption.any
      fun fs => fs.head?.map (·.structs.length) = some 2 := by decide +kernel
  have hb : (files (bothOf scene swarm)).toOption.any
      fun fs => fs.head?.map (·.structs.length) = some 4 := by decide +kernel
  obtain ⟨fs, hfs, ha⟩ := exists_of_toOption_any ha
  obtain ⟨fs', hfs', hb⟩ := exists_of_toOption_any hb
  obtain ⟨f, hf, hf', -, -⟩ := bucket_file_determined_by_table hfs hfs' (b := .constantBuffer) rfl
  exact ⟨rfl, fs, fs', hfs, hfs', of_decide_eq_true ha, of_decide_eq_true hb, f, hf, hf'⟩

end Files

end ShaderBuild.Metadata
