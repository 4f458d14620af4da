import ShaderBuild.Proofs.Metadata.Origin
import ShaderBuild.Proofs.Text.Identifiers

namespace ShaderBuild.Metadata

open Code

structure Usable (n : String) : Prop where
  identifier : Text.isIdentifier n
  free : isCppKeyword n = false

instance (n : String) : Decidable (Usable n) :=
  decidable_of_iff (Text.isIdentifier n ∧ isCppKeyword n = false)
    ⟨fun h => ⟨h.1, h.2⟩, fun h => ⟨h.identifier, h.free⟩⟩

section Padding

def paddingName (i : Nat) : String := s!"{paddingMark}{i}"

theorem toList_paddingName (i : Nat) :
    (paddingName i).toList = paddingMark.toList ++ Nat.toDigits 10 i := by
  show (paddingMark ++ toString i).toList = _
  rw [String.toList_append, Nat.toString_eq_ofList_toDigits, String.toList_ofList]

theorem paddingName_injective : Function.Injective paddingName := by
  intro i j h
  have hl := congrArg String.toList h
  rw [toList_paddingName, toList_paddingName, List.append_cancel_left_eq] at hl
  simpa using congrArg (Nat.ofDigitChars 10 · 0) hl

theorem paddingName_usable (i : Nat) : Usable (paddingName i) := by
  have hword : ∀ c ∈ (toString i).toList, Text.isWord c := by
    intro c hc
    rw [Nat.toString_eq_ofList_toDigits, String.toList_ofList] at hc
    have hd := Nat.isDigit_of_mem_toDigits (by decide) (by decide) hc
    simp [Text.isWord, Char.isAlphanum, hd]
  refine ⟨Text.isIdentifier_append (by decide) hword, ?_⟩
  have hstart : ∀ k ∈ cppKeywords, k.toList.head? ≠ some '_' := by decide
  simp only [isCppKeyword, List.contains_eq_mem, decide_eq_false_iff_not]
  refine fun hk => hstart _ hk ?_
  rw [toList_paddingName]
  rfl

theorem IsPadding.named {f : Field} (h : IsPadding f) : ∃ i, f.name = paddingName i := by
  obtain ⟨before, k, count, rfl⟩ := h
  exact ⟨_, rfl⟩

end Padding

section Fields

variable {language : SourceLanguage} {owner name : String}

theorem stretch_named {f : Field} {each : UInt32} {stride : Option UInt32} {r : Field × UInt32}
    (h : stretch owner f each stride = .ok r) : r.1.name = f.name := by
  cases stride with
  | none =>
    cases h
    rfl
  | some s =>
    simp only [stretch] at h
    split at h
    · cases h
      rfl
    · obtain ⟨f', hw, hr⟩ := (bind_ok_iff ..).1 h
      obtain rfl := (pure_ok_iff ..).1 hr
      exact (widen_ok (g := fun _ => none) hw).1

theorem arrayField_named {e p : Placement} {count stride : Option UInt32}
    (h : arrayField owner e count stride = .ok p) : p.field.name = e.field.name := by
  simp only [arrayField, bind_ok_iff, pure_ok_iff] at h
  obtain ⟨r, hr, size, -, rfl⟩ := h
  exact stretch_named hr

theorem place_named {span : Option UInt32} {ds : List StructDecl} {type : MemberType}
    {p : Placement} (h : place language owner name span ds type = .ok p) : p.field.name = name := by
  cases type with
  | scalar k =>
    simp only [place, bind_ok_iff, pure_ok_iff] at h
    obtain ⟨_, -, rfl⟩ := h
    rfl
  | vector k n =>
    simp only [place, bind_ok_iff, pure_ok_iff] at h
    obtain ⟨_, -, rfl⟩ := h
    rfl
  | matrix k n m =>
    simp only [place, bind_ok_iff, pure_ok_iff] at h
    obtain ⟨_, -, rfl⟩ := h
    rfl
  | array e count stride =>
    obtain ⟨q, hq, ha⟩ := (bind_ok_iff ..).1 h
    rw [arrayField_named ha, place_named hq]
  | struct s ms =>
    simp only [place, structField, guard_ok_iff, bind_ok_iff, pure_ok_iff, Prod.exists] at h
    obtain ⟨-, _, -, _, _, -, _, -, rfl⟩ := h
    rfl

theorem IsFieldOf.named {m : Member} {f : Field} (h : IsFieldOf language owner m f) :
    f.name = Text.sanitize m.name := by
  obtain ⟨-, _, _, hp, rfl⟩ := h
  exact place_named hp

theorem usable_sanitize {s : String} (hfree : isCppKeyword (Text.sanitize s) = false)
    (h : s ≠ "") : Usable (Text.sanitize s) :=
  ⟨Text.isIdentifier_sanitize_iff.2 h, hfree⟩

/-- Members that have names have fields whose names code can declare. -/
theorem MadeFor.fields_usable {c : Source} {d : StructDecl} (h : MadeFor language c d) :
    (d.fields.map (·.name)).Nodup ∧ ∀ f ∈ d.fields,
      Usable f.name ∨ ∃ m ∈ c.members, m.name = "" ∧ f.name = "" := by
  obtain ⟨size, ds, es, hf⟩ := h.fields
  obtain ⟨q, -, hfin⟩ := (bind_ok_iff ..).1 hf
  obtain ⟨-, -, -, hd⟩ := finish_ok hfin
  refine ⟨hd, fun f hmem => ?_⟩
  rcases mem_fieldsOf hf hmem with hpad | ⟨m, hm, hfield⟩
  · obtain ⟨i, hi⟩ := hpad.named
    exact .inl (hi ▸ paddingName_usable i)
  · rw [hfield.named]
    by_cases hn : m.name = ""
    · exact .inr ⟨m, hm, hn, Text.sanitize_eq_empty_iff.2 hn⟩
    · exact .inl (usable_sanitize hfield.free hn)

theorem kindStruct_usable (b : Bucket) : ((kindStruct b).fields.map (·.name)).Nodup ∧
    ∀ f ∈ (kindStruct b).fields, Usable f.name := by
  have hall : ∀ b ∈ Bucket.all, ((kindStruct b).fields.map (·.name)).Nodup ∧
      ∀ f ∈ (kindStruct b).fields, Usable f.name := by decide
  exact hall b b.mem_all

end Fields

section Structs

theorem isIdentifier_structName {owner member struct : String} (ho : Text.isIdentifier owner)
    (hm : ∀ c ∈ member.toList, Text.isWord c) :
    Text.isIdentifier (structName owner member struct) := by
  unfold structName
  dsimp only
  split
  · have hbar : ∀ c ∈ "_".toList, Text.isWord c := by simp [Text.isWord]
    exact Text.isIdentifier_append (Text.isIdentifier_append ho hbar) hm
  · next hn => exact Text.isIdentifier_sanitize_iff.2 (mt Text.sanitize_eq_empty_iff.2 hn)

mutual
theorem isIdentifier_sourcesIn {owner member : String} (ho : Text.isIdentifier owner)
    (hm : ∀ c ∈ member.toList, Text.isWord c) {type : MemberType} {c : Source}
    (hc : c ∈ sourcesIn owner member type) : Text.isIdentifier c.name := by
  cases type with
  | scalar | vector | matrix => cases hc
  | array e count stride =>
    simp only [sourcesIn] at hc
    exact isIdentifier_sourcesIn ho hm hc
  | struct s ms =>
    have hs : Text.isIdentifier (structName owner member s) := isIdentifier_structName ho hm
    simp only [sourcesIn, List.mem_append, List.mem_singleton] at hc
    rcases hc with hc | rfl
    · exact isIdentifier_sourcesOf hs hc
    · exact hs
theorem isIdentifier_sourcesOf {owner : String} (ho : Text.isIdentifier owner) {ms : List Member}
    {c : Source} (hc : c ∈ sourcesOf owner ms) : Text.isIdentifier c.name := by
  cases ms with
  | nil => cases hc
  | cons m r =>
    simp only [sourcesOf, List.mem_append] at hc
    rcases hc with hc | hc
    · exact isIdentifier_sourcesIn ho (fun _ => Text.isWord_sanitize) hc
    · exact isIdentifier_sourcesOf ho hc
end

end Structs

section Files

variable {g : Registry} {nested : List StructDecl} {outs : List (List StructDecl)} {fs : List File}

/-- Shared structs have names that code can declare, and none is named like the end of an enum. -/
theorem Generated.nested_usable (h : Generated g nested outs fs)
    (hid : ∀ r ∈ g.structured, Text.isIdentifier r.name) {d : StructDecl} (hd : d ∈ nested) :
    Usable d.name ∧ d.name ≠ countVariant := by
  obtain ⟨r, hr, c, hc, hmade⟩ := h.made_nested hd
  have hfree := hmade.free
  rw [isReserved, Bool.or_eq_false_iff, beq_eq_false_iff_ne] at hfree
  rw [hmade.named]
  exact ⟨⟨isIdentifier_sourcesOf (hid r hr) hc, hfree.2⟩, hfree.1⟩

theorem Generated.exists_field (h : Generated g nested outs fs) {r : Resource}
    (hr : r ∈ g.structured) {c : Source} (hc : c ∈ sources r) {m : Member} (hm : m ∈ c.members) :
    ∃ d ∈ declared fs, ∃ f ∈ d.fields, f.name = Text.sanitize m.name := by
  obtain ⟨d, hd, size, hb⟩ : ∃ d ∈ declared fs, ∃ size, Built nested c.members size d.fields := by
    rcases List.mem_cons.1 hc with rfl | hc
    · obtain ⟨d, hd, hdata⟩ := (exists_dataOf h.data).1 r hr
      exact ⟨d, h.mem_declared.2 (.inr (.inr hd)), _, hdata.built⟩
    · obtain ⟨d, hd, -, size, hb⟩ := h.grows.built c (List.mem_flatMap.2 ⟨r, hr, hc⟩)
      exact ⟨d, h.mem_declared.2 (.inl hd), size, hb⟩
  have hmem := hb.faithful.ordered.subset (List.mem_map_of_mem hm)
  obtain ⟨f, hf, hn⟩ := List.mem_map.1 hmem
  exact ⟨d, hd, f, hf, hn⟩

theorem Generated.fields_usable (h : Generated g nested outs fs) {d : StructDecl}
    (hd : d ∈ declared fs) : (d.fields.map (·.name)).Nodup ∧ ∀ f ∈ d.fields, Usable f.name ∨
      f.name = "" ∧ ∃ r ∈ g.structured, ∃ c ∈ sources r, ∃ m ∈ c.members, m.name = "" := by
  rcases h.made hd with ⟨b, rfl⟩ | ⟨r, hr, c, hc, hmade⟩
  · exact (kindStruct_usable b).imp_right fun hf f hmem => .inl (hf f hmem)
  · refine hmade.fields_usable.imp_right fun hf f hmem => (hf f hmem).imp_right ?_
    rintro ⟨m, hm, hn, hfn⟩
    exact ⟨hfn, r, hr, c, hc, m, hm, hn⟩

/-- Where resource names are identifiers, generation gives names that code can declare to all shared
structs and to all fields but those of members without names, and no struct has two fields of one
name. So all fields are usable exactly if every member of every struct has a name. -/
theorem generated_fields_usable_iff {g : Registry} {fs : List File} (h : files g = .ok fs)
    (hid : ∀ r ∈ g.structured, Text.isIdentifier r.name) :
    ∃ (types : File) (rest : List File), fs = types :: rest ∧ types.name = typesFile ∧
      (∀ d ∈ types.structs, Usable d.name ∧ d.name ≠ countVariant) ∧
      (∀ d ∈ declared fs, (d.fields.map (·.name)).Nodup ∧
        ∀ f ∈ d.fields, f.name ≠ "" → Usable f.name) ∧
      ((∀ d ∈ declared fs, ∀ f ∈ d.fields, Usable f.name) ↔
        ∀ r ∈ g.structured, ∀ c ∈ sources r, ∀ m ∈ c.members, m.name ≠ "") := by
  obtain ⟨nested, outs, hg⟩ := files_ok h
  refine ⟨typesFileOf nested, _, hg.files, rfl, ?_, ?_, ?_, ?_⟩
  · rw [typesFile_structs]
    exact fun d => hg.nested_usable hid
  · refine fun d hd => (hg.fields_usable hd).imp_right fun hf f hmem hne => ?_
    exact (hf f hmem).resolve_right fun he => hne he.1
  · rintro hall r hr c hc m hm hn
    obtain ⟨d, hd, f, hf, hname⟩ := hg.exists_field hr hc hm
    have hus := (hall d hd f hf).identifier
    rw [hname] at hus
    exact Text.isIdentifier_sanitize_iff.1 hus hn
  · intro hall d hd f hf
    refine ((hg.fields_usable hd).2 f hf).resolve_right ?_
    rintro ⟨-, r, hr, c, hc, m, hm, hn⟩
    exact hall r hr c hc m hm hn

def foreignNames : Resource :=
  let inner := MemberType.struct "" [Placed.mk "x-y" 0 (.scalar .float)]
  let members : List Member :=
    [⟨"2 tone", 0, .scalar .float⟩, ⟨"größe", 8, .scalar .float⟩, ⟨"at", 12, inner⟩]
  ⟨0, "Params", .constantBuffer, some ⟨"Params", 16, members⟩, .hlsl, ⟨32⟩, 0, 0⟩

theorem foreignNames_usable :
    (∀ r ∈ (registryOf foreignNames).structured, Text.isIdentifier r.name) ∧
    ∃ fs, files (registryOf foreignNames) = .ok fs ∧
      ∀ d ∈ declared fs, ∀ f ∈ d.fields, Usable f.name := by
  have hone : (registryOf foreignNames).structured = [foreignNames] := rfl
  have hid : ∀ r ∈ (registryOf foreignNames).structured, Text.isIdentifier r.name := by
    rw [hone]
    decide
  have ha : (files (registryOf foreignNames)).toOption.isSome := by decide +kernel
  obtain ⟨fs, hfs⟩ := exists_of_toOption_isSome ha
  obtain ⟨_, _, -, -, -, -, hiff⟩ := generated_fields_usable_iff hfs hid
  have hnamed : ∀ c ∈ sources foreignNames, ∀ m ∈ c.members, m.name ≠ "" := by decide
  refine ⟨hid, fs, hfs, hiff.2 fun r hr => ?_⟩
  rw [hone, List.mem_singleton] at hr
  exact hr ▸ hnamed

def unnamedMember : Reflection :=
  ⟨.hlsl, [⟨.pixel, "main", [⟨"Params", some "Params", .constantBuffer, 0, 0,
    some ⟨"Params", 4, [⟨"", 0, .scalar .float⟩]⟩⟩]⟩]⟩

/-- A member without a name leads to a field without one. -/
theorem unnamedMember_unusable : ∃ g fs, [unnamedMember].foldlM Registry.add .empty = .ok g ∧
    files g = .ok fs ∧ (∀ t ∈ g.tables, ∀ r ∈ t.entries, Text.isIdentifier r.name) ∧
    ¬∀ d ∈ declared fs, ∀ f ∈ d.fields, f.name ≠ "" ∧ Text.isIdentifier f.name := by
  have ha : ([unnamedMember].foldlM Registry.add .empty).toOption.any fun g =>
      (files g).toOption.any fun fs =>
        (∀ t ∈ g.tables, ∀ r ∈ t.entries, Text.isIdentifier r.name) ∧
          ¬∀ d ∈ declared fs, ∀ f ∈ d.fields, f.name ≠ "" ∧ Text.isIdentifier f.name := by
    decide +kernel
  obtain ⟨g, hg, ha⟩ := exists_of_toOption_any ha
  obtain ⟨fs, hfs, ha⟩ := exists_of_toOption_any ha
  exact ⟨g, fs, hg, hfs, of_decide_eq_true ha⟩

end Files

end ShaderBuild.Metadata
