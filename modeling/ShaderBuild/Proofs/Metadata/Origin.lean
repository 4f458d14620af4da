import ShaderBuild.Proofs.Metadata.DeclarationOrder

namespace ShaderBuild.Metadata

open Code

/-- What is left of a struct at its end: padding to its size, and names that differ. -/
theorem finish_ok {owner : String} {size : UInt32} {p : Progress} {out : List Field}
    {es : List StructDecl} (h : finish owner size p = .ok (out, es)) :
    es = p.nested ∧ ¬size < p.stop ∧ pad owner p.fields (size - p.stop) = .ok out ∧
      (out.map (·.name)).Nodup := by
  simp only [finish, guard_ok_iff, bind_ok_iff] at h
  obtain ⟨hle, fields, hpad, hn⟩ := h
  split at hn
  · simp at hn
  · next hd =>
    obtain ⟨rfl, rfl⟩ : fields = out ∧ p.nested = es := by simpa using hn
    exact ⟨rfl, hle, hpad, sameName?_none (by simp) hd⟩

section Fields

variable {language : SourceLanguage} {owner : String}

def IsPadding (f : Field) : Prop := ∃ before k count, f = paddingField before k count

structure IsFieldOf (language : SourceLanguage) (owner : String) (m : Member) (f : Field) :
    Prop where
  free : isCppKeyword (Text.sanitize m.name) = false
  placed : ∃ ds p, place language owner (Text.sanitize m.name) none ds m.type = .ok p ∧ p.field = f

theorem mem_pad {fields out : List Field} {gap : UInt32} (h : pad owner fields gap = .ok out)
    {f : Field} (hf : f ∈ out) : f ∈ fields ∨ IsPadding f := by
  rcases pad_ok h with ⟨-, rfl⟩ | ⟨k, -, rfl⟩
  · exact .inl hf
  · refine (List.mem_append.1 hf).imp_right fun hf => ?_
    obtain rfl := List.mem_singleton.1 hf
    exact ⟨_, _, _, rfl⟩

theorem mem_fields_placeAll {ms : List Member} {p q : Progress}
    (h : placeAll language owner p ms = .ok q) {f : Field} (hf : f ∈ q.fields) :
    f ∈ p.fields ∨ IsPadding f ∨ ∃ m ∈ ms, IsFieldOf language owner m f := by
  induction ms generalizing p with
  | nil =>
    cases h
    exact .inl hf
  | cons m r ih =>
    simp only [placeAll, guard_ok_iff, bind_ok_iff, need_ok_iff] at h
    obtain ⟨hfree, -, fields, hpad, placed, hplace, stop, -, hrest⟩ := h
    rcases ih hrest with hf | hf | ⟨m', hm', hf⟩
    · rcases List.mem_append.1 hf with hf | hf
      · exact (mem_pad hpad hf).imp_right .inl
      · obtain rfl := List.mem_singleton.1 hf
        exact .inr (.inr ⟨m, List.mem_cons_self, by simpa using hfree, _, _, hplace, rfl⟩)
    · exact .inr (.inl hf)
    · exact .inr (.inr ⟨m', List.mem_cons_of_mem _ hm', hf⟩)

/-- The fields of a struct are padding and the fields of its members. -/
theorem mem_fieldsOf {ms : List Member} {size : UInt32} {ds es : List StructDecl}
    {fields : List Field} (h : fieldsOf language owner ms size ds = .ok (fields, es)) {f : Field}
    (hf : f ∈ fields) : IsPadding f ∨ ∃ m ∈ ms, IsFieldOf language owner m f := by
  obtain ⟨q, hq, hfin⟩ := (bind_ok_iff ..).1 h
  obtain ⟨-, -, hpad, -⟩ := finish_ok hfin
  rcases mem_pad hpad hf with hf | hf
  · exact (mem_fields_placeAll hq hf).resolve_left List.not_mem_nil
  · exact .inl hf

end Fields

/-- A struct with the fields generated for a source, whatever structs were collected before. -/
structure MadeFor (language : SourceLanguage) (c : Source) (d : StructDecl) : Prop where
  named : d.name = c.name
  free : isReserved c.name = false
  fields : ∃ size ds es, fieldsOf language c.name c.members size ds = .ok (d.fields, es)

theorem mem_addStruct {ds es : List StructDecl} {d e : StructDecl} (h : addStruct ds d = .ok es)
    (he : e ∈ es) : e ∈ ds ∨ e = d := by
  rcases addStruct_ok h with ⟨-, rfl⟩ | ⟨-, rfl⟩
  · exact .inl he
  · exact (List.mem_append.1 he).imp_right List.mem_singleton.1

section Collecting

variable {language : SourceLanguage} {d : StructDecl}

mutual
theorem mem_nested_place {owner name : String} {span : Option UInt32} {ds : List StructDecl}
    {type : MemberType} {p : Placement} (h : place language owner name span ds type = .ok p)
    (hd : d ∈ p.nested) : d ∈ ds ∨ ∃ c ∈ sourcesIn owner name type, MadeFor language c d := by
  cases type with
  | scalar k =>
    simp only [place, bind_ok_iff, pure_ok_iff] at h
    obtain ⟨_, -, rfl⟩ := h
    exact .inl hd
  | vector k n =>
    simp only [place, bind_ok_iff, pure_ok_iff] at h
    obtain ⟨_, -, rfl⟩ := h
    exact .inl hd
  | matrix k n m =>
    simp only [place, bind_ok_iff, pure_ok_iff] at h
    obtain ⟨_, -, rfl⟩ := h
    exact .inl hd
  | array e count stride =>
    obtain ⟨q, hq, ha⟩ := (bind_ok_iff ..).1 h
    rw [arrayField_nested ha] at hd
    simpa only [sourcesIn] using mem_nested_place hq hd
  | struct s ms =>
    simp only [place, structField, guard_ok_iff, bind_ok_iff, pure_ok_iff, Prod.exists] at h
    obtain ⟨hfree, stop, -, fields, es, ⟨q, hq, hf⟩, gs, ha, rfl⟩ := h
    obtain ⟨rfl, -⟩ := finish_ok hf
    -- the last struct added is that of the member, the others were there or came with its members
    rcases mem_addStruct ha hd with hd | rfl
    · refine (mem_nested_placeAll hq hd).imp_right fun ⟨c, hc, hmade⟩ => ?_
      exact ⟨c, List.mem_append_left _ hc, hmade⟩
    · refine .inr ⟨_, List.mem_append_right _ (List.mem_singleton_self _), rfl,
        by simpa using hfree, _, ds, q.nested, (bind_ok_iff ..).2 ⟨q, hq, hf⟩⟩
theorem mem_nested_placeAll {owner : String} {ms : List Member} {p q : Progress}
    (h : placeAll language owner p ms = .ok q) (hd : d ∈ q.nested) :
    d ∈ p.nested ∨ ∃ c ∈ sourcesOf owner ms, MadeFor language c d := by
  cases ms with
  | nil =>
    cases h
    exact .inl hd
  | cons m r =>
    simp only [placeAll, guard_ok_iff, bind_ok_iff, need_ok_iff] at h
    obtain ⟨-, -, fields, -, placed, hplace, stop, -, hrest⟩ := h
    simp only [sourcesOf, List.mem_append]
    rcases mem_nested_placeAll hrest hd with hd | ⟨c, hc, hmade⟩
    · refine (mem_nested_place hplace hd).imp_right fun ⟨c, hc, hmade⟩ => ?_
      exact ⟨c, .inl hc, hmade⟩
    · exact .inr ⟨c, .inr hc, hmade⟩
end

theorem dataStruct_made {r : Resource} {ds es : List StructDecl}
    (h : dataStruct r ds = .ok (d, es)) (hfree : isReserved r.name = false) :
    MadeFor r.language ⟨r.name, r.members⟩ d ∧
      ∀ e ∈ es, e ∈ ds ∨ ∃ c ∈ inner r, MadeFor r.language c e := by
  simp only [dataStruct, bind_ok_iff, pure_ok_iff, Prod.exists, Prod.mk.injEq] at h
  obtain ⟨fields, es', hf, rfl, rfl⟩ := h
  refine ⟨⟨rfl, hfree, _, _, _, hf⟩, fun e he => ?_⟩
  obtain ⟨q, hq, hfin⟩ := (bind_ok_iff ..).1 hf
  obtain ⟨rfl, -⟩ := finish_ok hfin
  exact mem_nested_placeAll hq he

end Collecting

section Tables

theorem dataStructs_append {rs rs' : List Resource} {ds es gs out out' : List StructDecl}
    (h : dataStructs rs ds = .ok (out, es)) (h' : dataStructs rs' es = .ok (out', gs)) :
    dataStructs (rs ++ rs') ds = .ok (out ++ out', gs) := by
  induction rs generalizing ds out with
  | nil =>
    cases h
    exact h'
  | cons r rest ih =>
    simp only [dataStructs, bind_ok_iff, pure_ok_iff, Prod.exists, Prod.mk.injEq] at h
    obtain ⟨d, ds', hd, out, es, hr, rfl, rfl⟩ := h
    simp only [List.cons_append, dataStructs, bind_ok_iff, pure_ok_iff, Prod.exists]
    exact ⟨d, ds', hd, _, _, ih hr, rfl⟩

theorem ownStructs_flat {t : ResourceTable} {ds es out : List StructDecl}
    (h : ownStructs t ds = .ok (out, es)) : dataStructs (structuredIn [t]) ds = .ok (out, es) := by
  unfold ownStructs at h
  cases hb : t.bucket.isStructured <;> simpa [structuredIn, hb, dataStructs] using h

theorem tableStructs_flat {ts : List ResourceTable} {ds es : List StructDecl}
    {outs : List (List StructDecl)} (h : tableStructs ts ds = .ok (outs, es)) :
    dataStructs (structuredIn ts) ds = .ok (outs.flatten, es) := by
  induction ts generalizing ds outs with
  | nil =>
    cases h
    rfl
  | cons t rest ih =>
    simp only [tableStructs, bind_ok_iff, pure_ok_iff, Prod.exists, Prod.mk.injEq] at h
    obtain ⟨out, ds', ht, outs', es', hr, rfl, rfl⟩ := h
    have he : structuredIn (t :: rest) = structuredIn [t] ++ structuredIn rest := by
      simp [structuredIn]
    rw [he, List.flatten_cons]
    exact dataStructs_append (ownStructs_flat ht) (ih hr)

theorem dataStructs_made {rs : List Resource} {ds es out : List StructDecl}
    (h : dataStructs rs ds = .ok (out, es)) (hfree : ∀ r ∈ rs, isReserved r.name = false) :
    (∀ d ∈ out, ∃ r ∈ rs, MadeFor r.language ⟨r.name, r.members⟩ d) ∧
      ∀ e ∈ es, e ∈ ds ∨ ∃ r ∈ rs, ∃ c ∈ inner r, MadeFor r.language c e := by
  induction rs generalizing ds out with
  | nil =>
    cases h
    exact ⟨nofun, fun _ => .inl⟩
  | cons r rest ih =>
    simp only [dataStructs, bind_ok_iff, pure_ok_iff, Prod.exists, Prod.mk.injEq] at h
    obtain ⟨d, ds', hd, out, es, hr, rfl, rfl⟩ := h
    rw [List.forall_mem_cons] at hfree
    obtain ⟨hmade, hds⟩ := dataStruct_made hd hfree.1
    obtain ⟨hout, hes⟩ := ih hr hfree.2
    refine ⟨fun e he => ?_, fun e he => ?_⟩
    · rcases List.mem_cons.1 he with rfl | he
      · exact ⟨r, List.mem_cons_self, hmade⟩
      · obtain ⟨r', hr', hmade⟩ := hout e he
        exact ⟨r', List.mem_cons_of_mem _ hr', hmade⟩
    · rcases hes e he with he | ⟨r', hr', hmade⟩
      · exact (hds e he).imp_right fun hmade => ⟨r, List.mem_cons_self, hmade⟩
      · exact .inr ⟨r', List.mem_cons_of_mem _ hr', hmade⟩

end Tables

section Files

variable {g : Registry} {nested : List StructDecl} {outs : List (List StructDecl)} {fs : List File}
  (h : Generated g nested outs fs)

include h

theorem Generated.free {r : Resource} (hr : r ∈ g.structured) : isReserved r.name = false := by
  obtain ⟨t, ht, hr⟩ := List.mem_flatMap.1 hr
  split at hr
  · exact (checkNames_ok h.names).1 t ht r hr
  · cases hr

theorem Generated.made_nested {d : StructDecl} (hd : d ∈ nested) :
    ∃ r ∈ g.structured, ∃ c ∈ inner r, MadeFor r.language c d :=
  ((dataStructs_made (tableStructs_flat h.structs) fun _ => h.free).2 d hd).resolve_left
    List.not_mem_nil

theorem Generated.made_data {d : StructDecl} (hd : d ∈ outs.flatten) :
    ∃ r ∈ g.structured, MadeFor r.language ⟨r.name, r.members⟩ d :=
  (dataStructs_made (tableStructs_flat h.structs) fun _ => h.free).1 d hd

/-- Every struct but the kind structs was generated for a struct of some layout. -/
theorem Generated.made {d : StructDecl} (hd : d ∈ declared fs) :
    (∃ b, d = kindStruct b) ∨ ∃ r ∈ g.structured, ∃ c ∈ sources r, MadeFor r.language c d := by
  rcases h.mem_declared.1 hd with hd | ⟨t, -, rfl⟩ | hd
  · obtain ⟨r, hr, c, hc, hmade⟩ := h.made_nested hd
    exact .inr ⟨r, hr, c, List.mem_cons_of_mem _ hc, hmade⟩
  · exact .inl ⟨t.bucket, rfl⟩
  · obtain ⟨r, hr, hmade⟩ := h.made_data hd
    exact .inr ⟨r, hr, _, List.mem_cons_self, hmade⟩

end Files

end ShaderBuild.Metadata
