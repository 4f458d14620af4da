import ShaderBuild.Proofs.Metadata.Origin

namespace ShaderBuild

def SourceLanguage.other : SourceLanguage → SourceLanguage
  | hlsl => glsl
  | glsl => hlsl

namespace Code

/-- The same field, its rows and columns exchanged if it is a matrix. -/
def Field.transposed (f : Field) : Field :=
  match f.type with
  | .matrix k n m => { f with type := .matrix k m n, sourceType := some s!"{k.sourceName}{m}x{n}" }
  | _ => f

def StructDecl.transposed (d : StructDecl) : StructDecl := ⟨d.name, d.fields.map Field.transposed⟩

def Item.transposed : Item → Item
  | .struct d => .struct d.transposed
  | i => i

def File.transposed (f : File) : File := { f with items := f.items.map Item.transposed }

def Field.Shaped (f : Field) : Prop :=
  ∀ k n m, f.type = .matrix k n m → f.sourceType = some s!"{k.sourceName}{n}x{m}"

def StructDecl.Shaped (d : StructDecl) : Prop := ∀ f ∈ d.fields, f.Shaped

@[simp]
theorem Field.transposed_name (f : Field) : f.transposed.name = f.name := by
  unfold Field.transposed
  split <;> rfl

theorem Field.transposed_of_ne {f : Field} (h : ∀ k n m, f.type ≠ .matrix k n m) :
    f.transposed = f := by
  unfold Field.transposed
  split
  · next ht => exact absurd ht (h _ _ _)
  · rfl

theorem Field.shaped_of_ne {f : Field} (h : ∀ k n m, f.type ≠ .matrix k n m) : f.Shaped :=
  fun k n m ht => absurd ht (h k n m)

theorem Field.transposed_transposed {f : Field} (h : f.Shaped) : f.transposed.transposed = f := by
  obtain ⟨name, type, dims, source⟩ := f
  cases type with
  | matrix k n m =>
    obtain rfl : source = _ := h k n m rfl
    rfl
  | _ => rfl

theorem StructDecl.transposed_transposed {d : StructDecl} (h : d.Shaped) :
    d.transposed.transposed = d := by
  obtain ⟨name, fields⟩ := d
  have hf : fields.map (Field.transposed ∘ Field.transposed) = fields :=
    (List.map_congr_left fun f hf => Field.transposed_transposed (h f hf)).trans (List.map_id' _)
  rw [StructDecl.transposed, StructDecl.transposed, List.map_map, hf]

theorem StructDecl.transposed_inj {d e : StructDecl} (hd : d.Shaped) (he : e.Shaped) :
    d.transposed = e.transposed ↔ d = e := by
  refine ⟨fun h => ?_, congrArg _⟩
  rw [← transposed_transposed hd, h, transposed_transposed he]

end Code

namespace Metadata

open Code

section Shapes

variable {language : SourceLanguage} {owner name : String}

theorem widen_type {f f' : Field} {each stride : UInt32} (h : widen owner f each stride = .ok f') :
    ∃ k n, f'.type = .vector k n := by
  unfold widen at h
  dsimp only at h
  split at h
  · split at h
    · cases h
      exact ⟨_, _, rfl⟩
    · simp at h
  · split at h
    · cases h
      exact ⟨_, _, rfl⟩
    · simp at h
  · simp at h

theorem stretch_shaped {f : Field} {each : UInt32} {stride : Option UInt32} {r : Field × UInt32}
    (h : stretch owner f each stride = .ok r) (hf : f.Shaped) : r.1.Shaped := by
  cases stride with
  | none =>
    cases h
    exact hf
  | some s =>
    simp only [stretch] at h
    split at h
    · cases h
      exact hf
    · obtain ⟨f', hw, hr⟩ := (bind_ok_iff ..).1 h
      obtain rfl := (pure_ok_iff ..).1 hr
      obtain ⟨k, n, ht⟩ := widen_type hw
      exact Field.shaped_of_ne (by simp [ht])

theorem place_shaped {span : Option UInt32} {ds : List StructDecl} {type : MemberType}
    {p : Placement} (h : place language owner name span ds type = .ok p) : p.field.Shaped := by
  cases type with
  | scalar k =>
    simp only [place, bind_ok_iff, pure_ok_iff] at h
    obtain ⟨_, -, rfl⟩ := h
    exact Field.shaped_of_ne (by simp)
  | vector k n =>
    simp only [place, bind_ok_iff, pure_ok_iff] at h
    obtain ⟨_, -, rfl⟩ := h
    exact Field.shaped_of_ne (by simp)
  | matrix k n m =>
    simp only [place, bind_ok_iff, pure_ok_iff] at h
    obtain ⟨_, -, rfl⟩ := h
    rintro _ _ _ ⟨⟩
    rfl
  | array e count stride =>
    obtain ⟨q, hq, ha⟩ := (bind_ok_iff ..).1 h
    simp only [arrayField, bind_ok_iff, pure_ok_iff] at ha
    obtain ⟨r, hr, size, -, rfl⟩ := ha
    exact stretch_shaped hr (place_shaped hq)
  | struct s ms =>
    simp only [place, structField, guard_ok_iff, bind_ok_iff, pure_ok_iff, Prod.exists] at h
    obtain ⟨-, _, -, _, _, -, _, -, rfl⟩ := h
    exact Field.shaped_of_ne (by simp)

theorem fieldsOf_shaped {ms : List Member} {size : UInt32} {ds es : List StructDecl}
    {fields : List Field} (h : fieldsOf language owner ms size ds = .ok (fields, es)) :
    (⟨name, fields⟩ : StructDecl).Shaped := by
  intro f hf
  rcases mem_fieldsOf h hf with ⟨before, k, count, rfl⟩ | ⟨m, -, hm⟩
  · exact Field.shaped_of_ne (by simp [paddingField])
  · obtain ⟨_, _, hp, rfl⟩ := hm.placed
    exact place_shaped hp

theorem MadeFor.shaped {c : Source} {d : StructDecl} (h : MadeFor language c d) : d.Shaped := by
  obtain ⟨size, ds, es, hfields⟩ := h.fields
  exact fieldsOf_shaped hfields

theorem place_nested_shaped {span : Option UInt32} {ds : List StructDecl} {type : MemberType}
    {p : Placement} (h : place language owner name span ds type = .ok p)
    (hds : ∀ d ∈ ds, d.Shaped) : ∀ d ∈ p.nested, d.Shaped := by
  intro d hd
  rcases mem_nested_place h hd with hd | ⟨c, -, hmade⟩
  · exact hds d hd
  · exact hmade.shaped

theorem fieldsOf_nested_shaped {ms : List Member} {size : UInt32} {ds es : List StructDecl}
    {fields : List Field} (h : fieldsOf language owner ms size ds = .ok (fields, es))
    (hds : ∀ d ∈ ds, d.Shaped) : ∀ d ∈ es, d.Shaped := by
  obtain ⟨q, hq, hfin⟩ := (bind_ok_iff ..).1 h
  obtain ⟨rfl, -⟩ := finish_ok hfin
  intro d hd
  rcases mem_nested_placeAll hq hd with hd | ⟨c, -, hmade⟩
  · exact hds d hd
  · exact hmade.shaped

end Shapes

section Steps

def Placement.transposed (p : Placement) : Placement :=
  ⟨p.field.transposed, p.size, p.nested.map StructDecl.transposed⟩

def Progress.transposed (p : Progress) : Progress :=
  ⟨p.fields.map Field.transposed, p.stop, p.nested.map StructDecl.transposed⟩

def transposedPair : List Field × List StructDecl → List Field × List StructDecl :=
  Prod.map (List.map Field.transposed) (List.map StructDecl.transposed)

variable {owner : String}

theorem paddingField_transposed (fields : List Field) (k : ScalarKind) (n : UInt32) :
    paddingField (fields.map Field.transposed) k n = (paddingField fields k n).transposed := by
  rw [Field.transposed_of_ne (f := paddingField ..) (by simp [paddingField])]
  simp [paddingField, List.countP_map, Function.comp_def]

theorem pad_transposed (fields : List Field) (gap : UInt32) :
    pad owner (fields.map Field.transposed) gap =
      List.map Field.transposed <$> pad owner fields gap := by
  unfold pad
  split
  · rfl
  · split
    · simp [paddingField_transposed, Functor.map, Except.map]
    · split
      · simp [paddingField_transposed, Functor.map, Except.map]
      · rfl

theorem sameName?_transposed (before fields : List Field) :
    sameName? (before.map Field.transposed) (fields.map Field.transposed) =
      sameName? before fields := by
  induction fields generalizing before with
  | nil => rfl
  | cons f r ih =>
    have hb : (before ++ [f]).map Field.transposed =
      before.map Field.transposed ++ [f.transposed] := by simp
    simp only [List.map_cons, sameName?, ← hb, ih]
    simp [Function.comp_def]

theorem finish_transposed (size : UInt32) (p : Progress) :
    finish owner size p.transposed = transposedPair <$> finish owner size p := by
  unfold finish
  refine guard_eq_map fun _ => ?_
  refine bind_eq_map (pad_transposed p.fields (size - p.stop)) fun fields _ => ?_
  have hn := sameName?_transposed [] fields
  rw [List.map_nil] at hn
  rw [hn]
  split <;> rfl

theorem widen_transposed (f : Field) (each stride : UInt32) :
    widen owner f.transposed each stride = Field.transposed <$> widen owner f each stride := by
  have hfix : Field.transposed <$> widen owner f each stride = widen owner f each stride := by
    refine map_eq_self fun f' h => ?_
    obtain ⟨k, n, ht⟩ := widen_type h
    exact Field.transposed_of_ne (by simp [ht])
  rw [hfix]
  obtain ⟨name, type, dims, source⟩ := f
  cases type <;> rfl

theorem stretch_transposed (f : Field) (each : UInt32) (stride : Option UInt32) :
    stretch owner f.transposed each stride =
      Prod.map Field.transposed id <$> stretch owner f each stride := by
  cases stride with
  | none => rfl
  | some s =>
    simp only [stretch]
    split
    · rfl
    · exact bind_eq_map (widen_transposed ..) fun _ _ => rfl

theorem arrayField_transposed (element : Placement) (count stride : Option UInt32) :
    arrayField owner element.transposed count stride =
      Placement.transposed <$> arrayField owner element count stride := by
  obtain ⟨f, each, nested⟩ := element
  refine bind_eq_map (stretch_transposed ..) fun r _ => ?_
  obtain ⟨⟨name, type, dims, source⟩, each⟩ := r
  cases type <;> exact same_bind_eq_map fun _ _ => rfl

theorem addStruct_transposed {nested : List StructDecl} {d : StructDecl}
    (hn : ∀ e ∈ nested, e.Shaped) (hd : d.Shaped) :
    addStruct (nested.map StructDecl.transposed) d.transposed =
      List.map StructDecl.transposed <$> addStruct nested d := by
  have hfind : (nested.map StructDecl.transposed).find? (·.name == d.transposed.name) =
      (nested.find? (·.name == d.name)).map StructDecl.transposed := by
    rw [List.find?_map]
    rfl
  rw [addStruct, addStruct, hfind]
  cases hf : nested.find? (·.name == d.name) with
  | none => simp [Functor.map, Except.map]
  | some e =>
    -- the comparison sees the shapes, and two structs that differ still do when turned about
    have hiff := StructDecl.transposed_inj (hn e (List.mem_of_find?_eq_some hf)) hd
    simp only [Option.map_some, hiff]
    split <;> rfl

end Steps

section Placing

variable {language : SourceLanguage}

mutual
/-- The field of a member for the other language is that for this one, turned about. -/
theorem place_other {owner name : String} {span : Option UInt32} {ds : List StructDecl}
    (hds : ∀ d ∈ ds, d.Shaped) (type : MemberType) :
    place language.other owner name span (ds.map StructDecl.transposed) type =
      Placement.transposed <$> place language owner name span ds type := by
  cases type with
  | scalar k =>
    simp only [place]
    exact same_bind_eq_map fun _ _ => rfl
  | vector k n =>
    simp only [place]
    exact same_bind_eq_map fun _ _ => rfl
  | matrix k n m =>
    simp only [place]
    cases language <;> exact same_bind_eq_map fun _ _ => rfl
  | array e count stride =>
    simp only [place]
    exact bind_eq_map (place_other hds e) fun q _ => arrayField_transposed q count stride
  | struct s ms =>
    have hplace (owner : String) : placeAll language.other owner
          ⟨[], 0, ds.map StructDecl.transposed⟩ ms =
        Progress.transposed <$> placeAll language owner ⟨[], 0, ds⟩ ms :=
      placeAll_other (p := ⟨[], 0, ds⟩) hds ms
    simp only [place, structField]
    refine guard_eq_map fun _ => ?_
    refine same_bind_eq_map fun stop _ => ?_
    refine bind_eq_map (bind_eq_map (hplace _) fun p _ => finish_transposed _ p) fun r hr => ?_
    obtain ⟨fields, es⟩ := r
    have hadd := addStruct_transposed (d := ⟨structName owner name s, fields⟩)
      (fieldsOf_nested_shaped hr hds) (fieldsOf_shaped hr)
    exact bind_eq_map hadd fun _ _ => rfl
theorem placeAll_other {owner : String} {p : Progress} (hp : ∀ d ∈ p.nested, d.Shaped)
    (ms : List Member) : placeAll language.other owner p.transposed ms =
      Progress.transposed <$> placeAll language owner p ms := by
  cases ms with
  | nil => rfl
  | cons m r =>
    simp only [placeAll]
    refine guard_eq_map fun _ => ?_
    refine guard_eq_map fun _ => ?_
    refine bind_eq_map (pad_transposed p.fields (m.offset - p.stop)) fun fields _ => ?_
    refine bind_eq_map (place_other hp m.type) fun placed hplace => ?_
    refine same_bind_eq_map fun stop _ => ?_
    have hnext : ⟨fields.map Field.transposed ++ [placed.field.transposed], stop,
        placed.nested.map StructDecl.transposed⟩ =
        Progress.transposed ⟨fields ++ [placed.field], stop, placed.nested⟩ := by
      simp [Progress.transposed]
    exact hnext ▸ placeAll_other (place_nested_shaped hplace hp) r
end

/-- The same vectors are rows in one language and columns in the other. -/
example :
    (place .hlsl "View" "m" none [] (.matrix .float 3 4)).toOption.map (·.field.type) =
      some (.matrix .float 3 4) ∧
    (place .glsl "View" "m" none [] (.matrix .float 3 4)).toOption.map (·.field.type) =
      some (.matrix .float 4 3) := by decide

end Placing

end Metadata

end ShaderBuild
