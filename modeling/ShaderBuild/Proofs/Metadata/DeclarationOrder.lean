import ShaderBuild.Proofs.Code.Alignment
import ShaderBuild.Proofs.Code.Nesting
import ShaderBuild.Proofs.Metadata.GeneratedLayouts

namespace ShaderBuild.Metadata

open Code

/-- Each struct stands behind those its fields name. -/
def InOrder (ds : List StructDecl) : Prop :=
  ∀ before d after, ds = before ++ d :: after → ∀ n, d.Names n → n ∈ before.map (·.name)

section Collecting

theorem mem_names_of_size {ds : List StructDecl} {n : String} {s : UInt32}
    (h : sizes ds n = some s) : n ∈ ds.map (·.name) := by
  obtain ⟨d, hd⟩ : ∃ d, lookup ds n = some d := by
    rw [sizes] at h
    cases hl : ds.length with
    | zero => rw [hl] at h; cases h
    | succ k =>
      rw [hl, within] at h
      obtain ⟨d, hd, -⟩ := Option.bind_eq_some_iff.1 h
      exact ⟨d, hd⟩
  exact List.mem_map.2 ⟨d, List.mem_of_find?_eq_some hd, lookup_name hd⟩

theorem Built.names {ds : List StructDecl} {ms : List Member} {size : UInt32} {d : StructDecl}
    (h : Built ds ms size d.fields) {n : String} (hn : d.Names n) : n ∈ ds.map (·.name) := by
  obtain ⟨f, hf, ht⟩ := hn
  obtain ⟨s, b, hb, -⟩ := h.spans f hf
  rw [ht, FieldType.bytes?] at hb
  obtain ⟨a, ha, -⟩ := Option.map_eq_some_iff.1 hb
  exact mem_names_of_size ha

theorem InOrder.nil : InOrder [] := by
  intro before d after h
  simp at h

theorem InOrder.addStruct {ds es : List StructDecl} {d : StructDecl} (h : InOrder ds)
    (hd : ∀ n, d.Names n → n ∈ ds.map (·.name)) (ha : addStruct ds d = .ok es) : InOrder es := by
  rcases addStruct_ok ha with ⟨-, rfl⟩ | ⟨-, rfl⟩
  · exact h
  · exact forall_split_snoc.2 ⟨h, hd⟩

theorem arrayField_nested {owner : String} {e p : Placement} {count stride : Option UInt32}
    (h : arrayField owner e count stride = .ok p) : p.nested = e.nested := by
  simp only [arrayField, bind_ok_iff, pure_ok_iff] at h
  obtain ⟨_, -, _, -, rfl⟩ := h
  rfl

variable {language : SourceLanguage}

mutual
theorem place_inOrder {owner name : String} {span : Option UInt32} {ds : List StructDecl}
    (hs : Sound ds) (hd : InOrder ds) {type : MemberType} {p : Placement}
    (h : place language owner name span ds type = .ok p) : InOrder p.nested := by
  cases type with
  | scalar k =>
    simp only [place, bind_ok_iff, pure_ok_iff] at h
    obtain ⟨_, -, rfl⟩ := h
    exact hd
  | vector k n =>
    simp only [place, bind_ok_iff, pure_ok_iff] at h
    obtain ⟨_, -, rfl⟩ := h
    exact hd
  | matrix k n m =>
    simp only [place, bind_ok_iff, pure_ok_iff] at h
    obtain ⟨_, -, rfl⟩ := h
    exact hd
  | array e count stride =>
    obtain ⟨q, hq, ha⟩ := (bind_ok_iff ..).1 h
    rw [arrayField_nested ha]
    exact place_inOrder hs hd hq
  | struct s ms =>
    simp only [place, structField, guard_ok_iff, bind_ok_iff, pure_ok_iff, Prod.exists] at h
    obtain ⟨-, stop, -, fields, es, ⟨q, hq, hf⟩, gs, ha, rfl⟩ := h
    have hstart : Progress.Covers ds [] [] ⟨[], 0, ds⟩ := ⟨.refl hs, rfl, by simp, .nil⟩
    obtain ⟨rfl, hb⟩ := finish_built (placeAll_covers hstart hq) hf
    exact (placeAll_inOrder hstart hd hq).addStruct (fun _ hn => hb.names hn) ha
theorem placeAll_inOrder {owner : String} {ds : List StructDecl} {sources : List Source}
    {done ms : List Member} {p q : Progress} (hp : p.Covers ds sources done)
    (hd : InOrder p.nested) (h : placeAll language owner p ms = .ok q) : InOrder q.nested := by
  cases ms with
  | nil =>
    cases h
    exact hd
  | cons m r =>
    simp only [placeAll, guard_ok_iff, bind_ok_iff, need_ok_iff] at h
    obtain ⟨-, hle, fields, hpad, placed, hplace, stop, hstop, hrest⟩ := h
    obtain ⟨hf, hs⟩ := place_fits hp.grows.sound hplace
    have hnext := (hp.pad hpad (toNat_gap hle)).snoc rfl hf (hs rfl) hstop
    exact placeAll_inOrder hnext (place_inOrder hp.grows.sound hd hplace) hrest
end

theorem dataStructs_inOrder {rs : List Resource} {ds es out : List StructDecl} (hs : Sound ds)
    (hd : InOrder ds) (h : dataStructs rs ds = .ok (out, es)) : InOrder es := by
  induction rs generalizing ds out with
  | nil =>
    cases h
    exact hd
  | cons r rest ih =>
    simp only [dataStructs, bind_ok_iff, pure_ok_iff, Prod.exists, Prod.mk.injEq] at h
    obtain ⟨d, ds', hr, out', es', hrest, rfl, rfl⟩ := h
    have hs' := (dataStruct_ok hs hr).1.sound
    simp only [dataStruct, fieldsOf, bind_ok_iff, pure_ok_iff, Prod.exists, Prod.mk.injEq] at hr
    obtain ⟨fields, es, ⟨p, hp, hf⟩, rfl, rfl⟩ := hr
    have hstart : Progress.Covers ds [] [] ⟨[], 0, ds⟩ := ⟨.refl hs, rfl, by simp, .nil⟩
    obtain ⟨rfl, -⟩ := finish_built (placeAll_covers hstart hp) hf
    exact ih hs' (placeAll_inOrder hstart hd hp) hrest

theorem tableStructs_inOrder {ts : List ResourceTable} {ds es : List StructDecl}
    {outs : List (List StructDecl)} (hs : Sound ds) (hd : InOrder ds)
    (h : tableStructs ts ds = .ok (outs, es)) : InOrder es := by
  induction ts generalizing ds outs with
  | nil =>
    cases h
    exact hd
  | cons t rest ih =>
    simp only [tableStructs, bind_ok_iff, pure_ok_iff, Prod.exists, Prod.mk.injEq] at h
    obtain ⟨out, ds', ht, outs', es', hrest, rfl, rfl⟩ := h
    refine ih (ownStructs_ok hs ht).1.sound ?_ hrest
    unfold ownStructs at ht
    split at ht
    · exact dataStructs_inOrder hs hd ht
    · cases ht
      exact hd

theorem tableStructs_each {ts : List ResourceTable} {ds es : List StructDecl}
    {outs : List (List StructDecl)} (hs : Sound ds) (h : tableStructs ts ds = .ok (outs, es)) :
    ds <+: es ∧
      List.Forall₂ (fun t out => List.Forall₂ (DataOf es) (structuredIn [t]) out) ts outs := by
  induction ts generalizing ds outs with
  | nil =>
    cases h
    exact ⟨List.prefix_rfl, .nil⟩
  | cons t rest ih =>
    simp only [tableStructs, bind_ok_iff, pure_ok_iff, Prod.exists, Prod.mk.injEq] at h
    obtain ⟨out, ds', ht, outs', es', hrest, rfl, rfl⟩ := h
    obtain ⟨hg, hf, -⟩ := ownStructs_ok hs ht
    obtain ⟨hkept, hall⟩ := ih hg.sound hrest
    exact ⟨hg.kept.trans hkept, .cons (hf.imp fun _ _ hd => hd.mono hkept) hall⟩

end Collecting

section Files

variable {g : Registry} {nested out : List StructDecl} {outs : List (List StructDecl)}
  {fs : List File}

section Shared

variable (h : Generated g nested outs fs)

include h

theorem Generated.inOrder : InOrder nested := tableStructs_inOrder .nil .nil h.structs

theorem Generated.names_shared {d : StructDecl} (hd : d ∈ outs.flatten) {n : String}
    (hn : d.Names n) : n ∈ nested.map (·.name) := by
  obtain ⟨r, -, hdata⟩ := (exists_dataOf h.data).2 d hd
  exact hdata.built.names hn

def position (ds : List StructDecl) (n : String) : Nat := (ds.map (·.name)).idxOf n

theorem Generated.position_lt {inner outer : String} (he : Enters fs inner outer) :
    position nested inner < position nested outer := by
  obtain ⟨d, hd, hn⟩ := he
  rw [struct?_eq_lookup] at hd
  obtain rfl := lookup_name hd
  unfold position
  by_cases hmem : d.name ∈ nested.map (·.name)
  · obtain ⟨e, hmem, he⟩ := List.mem_map.1 hmem
    have hde : d = e := Option.some.inj (hd.symm.trans (he ▸ h.lookup_nested hmem))
    subst hde
    obtain ⟨before, after, rfl⟩ := List.append_of_mem hmem
    have hinner : inner ∈ before.map (·.name) := h.inOrder before d after rfl inner hn
    have hdist := h.grows.sound.distinct
    rw [List.map_append, List.map_cons] at hdist ⊢
    have hself : d.name ∉ before.map (·.name) := fun hb =>
      (List.disjoint_of_nodup_append hdist) hb List.mem_cons_self
    rw [List.idxOf_append_of_mem hinner, List.idxOf_append_of_notMem hself]
    exact Nat.lt_of_lt_of_le (List.idxOf_lt_length_of_mem hinner) (Nat.le_add_right ..)
  · have hinner : inner ∈ nested.map (·.name) := by
      rcases h.mem_declared.1 (List.mem_of_find?_eq_some hd) with hd | ⟨t, -, rfl⟩ | hd
      · exact absurd (List.mem_map_of_mem hd) hmem
      · obtain ⟨f, hf, ht⟩ := hn
        obtain ⟨x, -, rfl⟩ := List.mem_map.1 hf
        cases ht
      · exact h.names_shared hd hn
    rw [List.idxOf_eq_length hmem]
    exact List.idxOf_lt_length_of_mem hinner

theorem Generated.position_lt_structCount (n : String) : position nested n < structCount fs := by
  have hle : position nested n ≤ nested.length := by
    simpa [position] using List.idxOf_le_length (a := n) (l := nested.map (·.name))
  have hl := (tableStructs_ok .nil h.structs).2.2.length_eq
  have ht : g.table .constantBuffer ∈ g.tables := List.mem_map_of_mem (Bucket.mem_all _)
  have hkind := (mem_zipWith_kinds hl).2 (.inl ⟨_, ht, rfl⟩)
  have hpos := List.length_pos_of_mem hkind
  rw [structCount_eq, h.declared_eq, List.length_append]
  omega

end Shared

section Complete

theorem kindStruct_names {b : Bucket} {n : String} : ¬(kindStruct b).Names n := by
  rintro ⟨f, hf, ht⟩
  obtain ⟨x, -, rfl⟩ := List.mem_map.1 hf
  cases ht

theorem typesFile_complete (hn : InOrder nested) :
    CompleteBeforeUse [] (typesFileOf nested).items := by
  intro before i after he n hi
  obtain ⟨b, rest, rfl, rfl, hrest⟩ := List.map_eq_append_iff.1 he
  obtain ⟨d, a, rfl, rfl, -⟩ := List.map_eq_cons_iff.1 hrest
  have hmem := hn b d a rfl n (Item.mem_needs_struct.1 hi)
  refine .inr ?_
  simpa [List.filterMap_map, Function.comp_def, Item.struct?] using hmem

/-- Data structs name shared structs only, and the wrappers stand behind their data structs. -/
theorem bucketFile_complete {t : ResourceTable} {ds : List StructDecl} {known : List String}
    (hd : ∀ d ∈ ds, ∀ n, d.Names n → n ∈ known)
    (hn : t.bucket.isStructured → ds.map (·.name) = t.entries.map (·.name)) :
    CompleteBeforeUse known (bucketFile t ds).items := by
  cases hb : t.bucket.isStructured with
  | false =>
    refine .of_known fun i hi n hneed => ?_
    simp only [bucketFile, hb, Bool.false_eq_true, if_false, List.nil_append, List.cons_append,
      List.mem_cons, List.mem_append, List.mem_flatMap, List.not_mem_nil, or_false] at hi
    obtain rfl | rfl | ⟨r, -, rfl | rfl⟩ | rfl | rfl | rfl := hi
    · cases hneed
    · exact absurd (Item.mem_needs_struct.1 hneed) kindStruct_names
    all_goals cases hneed
  | true =>
    have hitems : (bucketFile t ds).items =
        (.enum ⟨enumName t.bucket, t.entries.map (·.name)⟩ :: .struct (kindStruct t.bucket) ::
          ds.map .struct) ++ (t.entries.map (fun r => .wrapper (wrapper r)) ++
          ((t.entries.flatMap fun r =>
            [.comment (summary r), .instance_ (resourceInstance t.bucket r)]) ++
          [.instance_ (invalidInstance t.bucket), .table (idTable t), .table (nameTable t)])) := by
      simp [bucketFile, hb]
    rw [hitems]
    refine .append (.of_known fun i hi n hneed => ?_) (.of_known fun i hi n hneed => ?_)
    · simp only [List.mem_cons, List.mem_map] at hi
      obtain rfl | rfl | ⟨d, hmem, rfl⟩ := hi
      · cases hneed
      · exact absurd (Item.mem_needs_struct.1 hneed) kindStruct_names
      · exact hd d hmem n (Item.mem_needs_struct.1 hneed)
    · simp only [List.mem_append, List.mem_map, List.mem_flatMap, List.mem_cons, List.not_mem_nil,
        or_false] at hi
      obtain ⟨r, hr, rfl⟩ | ⟨r, -, rfl | rfl⟩ | rfl | rfl | rfl := hi
      · -- the base of the wrapper is the data struct of its resource
        obtain rfl : n = r.name := by simpa [Item.needs, wrapper] using hneed
        have hbase : r.name ∈ ds.map (·.name) := hn hb ▸ List.mem_map_of_mem hr
        simpa [List.filterMap_cons, List.filterMap_map, Function.comp_def, Item.struct?] using
          .inr (.inr (List.mem_map.1 hbase))
      all_goals cases hneed

theorem typesFile_written (nested : List StructDecl) : Cpp.WritesInOrder (typesFileOf nested) := by
  refine Cpp.writesInOrder (Cpp.emptyBlobs?_eq_none fun i hi => ?_)
  obtain ⟨d, -, rfl⟩ := List.mem_map.1 hi
  rfl

theorem bucketFile_written (t : ResourceTable) (ds : List StructDecl) :
    Cpp.WritesInOrder (bucketFile t ds) := by
  refine Cpp.writesInOrder (Cpp.emptyBlobs?_eq_none fun i hi => ?_)
  cases i with
  | blob d => cases hb : t.bucket.isStructured <;> simp [bucketFile, hb] at hi
  | module n is => cases hb : t.bucket.isStructured <;> simp [bucketFile, hb] at hi
  | _ => rfl

end Complete

/-- The file of a bucket over the shared structs: its data structs, those of the structured resources
behind the kind struct, name shared structs and are none themselves. -/
structure Bears (shared : List String) (t : ResourceTable) (f : File) : Prop where
  name : f.name = kindName t.bucket
  includes : .sibling typesFile ∈ f.dependencies
  structs : ∃ data, f.structs = kindStruct t.bucket :: data ∧
    data.map (·.name) = (structuredIn [t]).map (·.name) ∧
    ∀ d ∈ data, d.name ∉ shared ∧ ∀ n, d.Names n → n ∈ shared
  complete : CompleteBeforeUse shared f.items
  written : Cpp.WritesInOrder f

theorem bucketFile_bears {t : ResourceTable} {shared : List String}
    (hout : List.Forall₂ (DataOf nested) (structuredIn [t]) out)
    (hd : ∀ d ∈ out, d.name ∉ shared ∧ ∀ n, d.Names n → n ∈ shared) :
    Bears shared t (bucketFile t out) := by
  have hnames := dataNames hout
  refine ⟨rfl, by simp [bucketFile], ⟨out, ?_, hnames, hd⟩,
    bucketFile_complete (fun d hm => (hd d hm).2) fun hb => ?_, bucketFile_written t out⟩
  · rw [bucketFile_structs]
    cases hb : t.bucket.isStructured with
    | true => rfl
    | false =>
      have hnil : structuredIn [t] = [] := by simp [structuredIn, hb]
      rw [hnil, List.forall₂_nil_left_iff] at hout
      simp [hout]
  · rw [hnames]
    simp [structuredIn, hb]

theorem forall₂_zipWith {α β γ : Type} {P : α → γ → Prop} {f : α → β → γ} {xs : List α}
    {ys : List β} (h : List.Forall₂ (fun x y => P x (f x y)) xs ys) :
    List.Forall₂ P xs (List.zipWith f xs ys) := by
  induction h with
  | nil => exact .nil
  | cons hp _ ih => exact .cons hp ih

/-- The shared structs have names of their own, each names only such that stand before it, data
structs name shared ones and are named otherwise. So in each header that is written all structs are
complete where they are used, and the size of each struct is found by a recursion that ends. -/
theorem types_file_is_well_founded {g : Registry} {fs : List File} (h : files g = .ok fs) :
    ∃ (types : File) (buckets : List File), fs = types :: buckets ++ [umbrella g] ∧
      types.name = typesFile ∧ (types.structs.map (·.name)).Nodup ∧
      (∀ (i : Nat) d, types.structs[i]? = some d → ∀ n, d.Names n →
        ∃ j < i, ∃ e, types.structs[j]? = some e ∧ e.name = n) ∧
      (CompleteBeforeUse [] types.items ∧ Cpp.WritesInOrder types) ∧
      List.Forall₂ (Bears (types.structs.map (·.name))) g.tables buckets ∧
      WellFounded (Enters fs) ∧
      ∀ n, structSize fs n = (struct? fs n).bind fun d => fieldsSize (structSize fs) d.fields := by
  obtain ⟨nested, outs, hg⟩ := files_ok h
  obtain ⟨-, heach⟩ := tableStructs_each .nil hg.structs
  have hdata : ∀ out ∈ outs, ∀ d ∈ out, d.name ∉ nested.map (·.name) ∧
      ∀ n, d.Names n → n ∈ nested.map (·.name) := by
    intro out hout d hd
    have hmem : d ∈ outs.flatten := List.mem_flatten.2 ⟨out, hout, hd⟩
    refine ⟨fun hname => ?_, fun n hn => hg.names_shared hmem hn⟩
    obtain ⟨e, he, hne⟩ := List.mem_map.1 hname
    exact hg.apart d hmem e he hne
  have hbears := ((List.forall₂_and_left _ _).2 ⟨hdata, heach.flip⟩).flip.imp
    fun _ _ hout => bucketFile_bears hout.2 hout.1
  refine ⟨typesFileOf nested, List.zipWith bucketFile g.tables outs, hg.files, rfl, ?_⟩
  rw [typesFile_structs]
  refine ⟨hg.grows.sound.distinct, fun i d hd n hn => ?_,
    ⟨typesFile_complete hg.inOrder, typesFile_written nested⟩, forall₂_zipWith hbears,
    wellFounded_enters fun _ _ => hg.position_lt,
    structSize_eq_fieldsSize (fun _ _ => hg.position_lt) hg.position_lt_structCount⟩
  obtain ⟨hi, rfl⟩ := List.getElem?_eq_some_iff.1 hd
  -- what the struct names stands in front of it, and so at an earlier position
  have hsplit : nested = nested.take i ++ nested[i] :: nested.drop (i + 1) := by
    rw [List.getElem_cons_drop, List.take_append_drop]
  obtain ⟨e, he, rfl⟩ := List.mem_map.1 (hg.inOrder _ _ _ hsplit n hn)
  obtain ⟨j, hj, rfl⟩ := List.mem_take_iff_getElem.1 he
  obtain ⟨hji, hjn⟩ := Nat.lt_min.1 hj
  exact ⟨j, hji, _, List.getElem?_eq_getElem hjn, rfl⟩

def scene : Resource :=
  let point := MemberType.struct "Point" [Placed.mk "x" 0 (.scalar .float)]
  let members : List Member := [⟨"lamp", 0, .struct "Lamp" [Placed.mk "at" 0 point]⟩, ⟨"eye", 4, point⟩]
  ⟨0, "Scene", .constantBuffer, some ⟨"Scene", 8, members⟩, .hlsl, ⟨1⟩, 0, 0⟩

/-- The point is collected first, since the lamp needs it, and not again. -/
theorem scene_in_order : ∃ fs types, files (registryOf scene) = .ok fs ∧ fs.head? = some types ∧
    types.structs.map (·.name) = ["Point", "Lamp"] ∧ CompleteBeforeUse [] types.items ∧
    WellFounded (Enters fs) := by
  have hnames : (files (registryOf scene)).toOption.bind (fun fs =>
      fs.head?.map fun f => f.structs.map (·.name)) = some ["Point", "Lamp"] := by decide +kernel
  obtain ⟨fs, hfs, hnames⟩ := Option.bind_eq_some_iff.1 hnames
  obtain ⟨types, htypes, hnames⟩ := Option.map_eq_some_iff.1 hnames
  have hfs := ok_of_toOption hfs
  obtain ⟨_, _, rfl, -, -, -, ⟨hcomplete, -⟩, -, hwf, -⟩ := types_file_is_well_founded hfs
  obtain rfl := Option.some.inj htypes
  exact ⟨_, _, hfs, rfl, hnames, hcomplete, hwf⟩

end Files

end ShaderBuild.Metadata
