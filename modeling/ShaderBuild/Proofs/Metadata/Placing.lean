import ShaderBuild.Proofs.Metadata.Faithful
import ShaderBuild.Proofs.Outcome

namespace ShaderBuild.Metadata

open Code

theorem width_div {k : ScalarKind} {n : UInt32} (h : n % k.width = 0) :
    n.toNat = k.width.toNat * (n.toNat / k.width.toNat) := by
  have hm : n.toNat % k.width.toNat = 0 := by simpa using congrArg UInt32.toNat h
  exact (Nat.mul_div_cancel' (Nat.dvd_of_mod_eq_zero hm)).symm

theorem paddingField_spans (g : String → Option UInt32) (fields : List Field) {k : ScalarKind}
    {gap : UInt32} (h : gap % k.width = 0) : Spans g (paddingField fields k (gap / k.width)) gap :=
  ⟨_, rfl, by simpa [paddingField, Field.count] using width_div h⟩

/-- Padding covers a gap with at most one field. -/
theorem pad_ok {owner : String} {fields out : List Field} {gap : UInt32}
    (h : pad owner fields gap = .ok out) :
    gap = 0 ∧ out = fields ∨
      ∃ k, gap % k.width = 0 ∧ out = fields ++ [paddingField fields k (gap / k.width)] := by
  unfold pad at h
  split at h
  · next h0 =>
    cases h
    exact .inl ⟨h0, rfl⟩
  · split at h
    · next h4 =>
      cases h
      exact .inr ⟨.uint, h4, rfl⟩
    · split at h
      · next h2 =>
        cases h
        exact .inr ⟨.half, h2, rfl⟩
      · simp at h

theorem addStruct_ok {ds es : List StructDecl} {d : StructDecl} (h : addStruct ds d = .ok es) :
    lookup ds d.name = some d ∧ es = ds ∨ lookup ds d.name = none ∧ es = ds ++ [d] := by
  unfold addStruct at h
  split at h
  · next e he =>
    split at h
    · next hed =>
      cases h
      exact .inl ⟨hed ▸ he, rfl⟩
    · simp at h
  · next hn =>
    cases h
    exact .inr ⟨hn, rfl⟩

theorem sameName?_none {before fields : List Field} (hb : (before.map (·.name)).Nodup)
    (h : sameName? before fields = none) : ((before ++ fields).map (·.name)).Nodup := by
  induction fields generalizing before with
  | nil => simpa using hb
  | cons f r ih =>
    simp only [sameName?] at h
    split at h
    · simp at h
    · next hf =>
      have hn : f.name ∉ before.map (·.name) := by
        intro hm
        obtain ⟨e, he, hen⟩ := List.mem_map.1 hm
        exact hf (List.any_eq_true.2 ⟨e, he, by simp [hen]⟩)
      have hs : ((before ++ [f]).map (·.name)).Nodup := by simpa using hb.concat hn
      simpa using ih hs h

/-- The fields so far are faithful to the members done, up to the byte they end at. -/
structure Progress.Covers (ds : List StructDecl) (sources : List Source) (done : List Member)
    (p : Progress) : Prop where
  grows : Grows ds sources p.nested
  total : fieldsSize (sizes p.nested) p.fields = some p.stop
  spans : ∀ f ∈ p.fields, ∃ s, Spans (sizes p.nested) f s
  laid : Laid (sizes p.nested) done p.fields

/-- The field of a member, with the structs it needed. -/
structure Placement.Fits (ds : List StructDecl) (sources : List Source) (name : String)
    (p : Placement) : Prop where
  grows : Grows ds sources p.nested
  named : p.field.name = name
  spans : Spans (sizes p.nested) p.field p.size

section Pad

variable {ds : List StructDecl} {sources : List Source} {done : List Member} {owner : String}
  {p : Progress} {out : List Field}

theorem toNat_gap {a b : UInt32} (h : ¬b < a) : b.toNat = a.toNat + (b - a).toNat := by
  have hle : a ≤ b := UInt32.not_lt.1 h
  have hnat := UInt32.le_iff_toNat_le.1 hle
  rw [UInt32.toNat_sub_of_le _ _ hle]
  omega

theorem Progress.Covers.pad (h : p.Covers ds sources done) {gap stop : UInt32}
    (hp : Metadata.pad owner p.fields gap = .ok out) (hs : stop.toNat = p.stop.toNat + gap.toNat) :
    Progress.Covers ds sources done ⟨out, stop, p.nested⟩ := by
  rcases pad_ok hp with ⟨rfl, rfl⟩ | ⟨k, hk, rfl⟩
  · have he : stop = p.stop := UInt32.toNat_inj.1 (by simpa using hs)
    exact ⟨h.grows, he ▸ h.total, h.spans, h.laid⟩
  · have hf := paddingField_spans (sizes p.nested) p.fields hk
    refine ⟨h.grows, ?_, fun f hm => ?_, h.laid.append _⟩
    · exact fieldsSize_snoc_iff.2 ⟨_, _, h.total, hf.fieldSize, hs⟩
    · rcases List.mem_append.1 hm with hm | hm
      · exact h.spans f hm
      · obtain rfl := List.mem_singleton.1 hm
        exact ⟨_, hf⟩

theorem Progress.Covers.snoc (h : p.Covers ds sources done) {m : Member} {q : Placement}
    {more : List Source} {stop : UInt32} (ho : m.offset = p.stop)
    (hq : q.Fits p.nested more (Text.sanitize m.name)) (hm : m.type.packedSize = .ok q.size)
    (hs : Word.add? m.offset q.size = some stop) :
    Progress.Covers ds (sources ++ more) (done ++ [m]) ⟨p.fields ++ [q.field], stop, q.nested⟩ := by
  have hx := sizes_extends hq.grows.kept
  have ht := fieldsSize_mono _ _ hx _ _ h.total
  have hf := hq.spans.fieldSize
  refine ⟨h.grows.trans hq.grows, ?_, fun f hm => ?_, ?_⟩
  · exact fieldsSize_snoc_iff.2 ⟨_, _, ht, hf, ho ▸ Word.add?_eq_some_iff.1 hs⟩
  · rcases List.mem_append.1 hm with hm | hm
    · obtain ⟨s, hs⟩ := h.spans f hm
      exact ⟨s, hs.mono hx⟩
    · obtain rfl := List.mem_singleton.1 hm
      exact ⟨_, hq.spans⟩
  · exact (h.laid.mono hx).snoc (ho ▸ ht) hq.named hm hf

theorem finish_built (h : p.Covers ds sources done) {size : UInt32} {es : List StructDecl}
    (hf : finish owner size p = .ok (out, es)) : es = p.nested ∧ Built p.nested done size out := by
  simp only [finish, guard_ok_iff, bind_ok_iff] at hf
  obtain ⟨hle, fields, hp, hn⟩ := hf
  have hc := h.pad hp (toNat_gap hle)
  split at hn
  · simp at hn
  · next hd =>
    obtain ⟨rfl, rfl⟩ : fields = out ∧ p.nested = es := by simpa using hn
    exact ⟨rfl, hc.total, hc.spans, hc.laid, sameName?_none (by simp) hd⟩

end Pad

section Array

variable {g : String → Option UInt32} {owner : String} {f : Field} {each : UInt32}

theorem widen_ok {stride : UInt32} {f' : Field} (h : widen owner f each stride = .ok f') :
    f'.name = f.name ∧ Spans g f' stride := by
  have lanes (k : ScalarKind) (hd : f.dims.isEmpty = true) (hm : stride % k.width = 0) :
      Spans g { f with
        type := .vector k (stride / k.width)
        sourceType := f.sourceType.map fun t => s!"{t} (stride {stride})" } stride := by
    refine ⟨_, rfl, ?_⟩
    simpa [Field.count, List.isEmpty_iff.1 hd] using width_div hm
  unfold widen at h
  dsimp only at h
  split at h
  · split at h
    · next hc =>
      cases h
      exact ⟨rfl, lanes _ hc.1 hc.2.2.1⟩
    · simp at h
  · split at h
    · next hc =>
      cases h
      exact ⟨rfl, lanes _ hc.1 hc.2.2.1⟩
    · simp at h
  · simp at h

theorem stretch_ok {stride : Option UInt32} {r : Field × UInt32}
    (h : stretch owner f each stride = .ok r) (hf : Spans g f each) :
    r.1.name = f.name ∧ Spans g r.1 r.2 ∧ r.2 = stride.getD each := by
  cases stride with
  | none =>
    cases h
    exact ⟨rfl, hf, rfl⟩
  | some s =>
    simp only [stretch] at h
    split at h
    · next hs =>
      cases h
      exact ⟨rfl, hf, hs.symm⟩
    · obtain ⟨f', hw, hr⟩ := (bind_ok_iff ..).1 h
      obtain rfl := (pure_ok_iff ..).1 hr
      obtain ⟨hn, hs⟩ := widen_ok (g := g) hw
      exact ⟨hn, hs, rfl⟩

/-- An array takes its count times the bytes of one element, or times the stride. -/
theorem arrayField_fits {ds : List StructDecl} {sources : List Source} {name : String}
    {count stride : Option UInt32} {e p : Placement} (he : e.Fits ds sources name)
    (h : arrayField owner e count stride = .ok p) :
    p.Fits ds sources name ∧ Word.mul? (stride.getD e.size) (count.getD 1) = some p.size := by
  simp only [arrayField, bind_ok_iff, need_ok_iff, pure_ok_iff] at h
  obtain ⟨⟨f, each⟩, hr, size, hm, rfl⟩ := h
  obtain ⟨hn, ⟨b, hb, hs⟩, rfl⟩ := stretch_ok hr he.spans
  refine ⟨⟨he.grows, hn.trans he.named, b, hb, ?_⟩, hm⟩
  rw [Word.mul?_eq_some_iff.1 hm, hs, Nat.mul_assoc]
  simp [Field.count, Nat.mul_comm]

end Array

section Struct

variable {ds : List StructDecl} {c : Source} {size : UInt32} {fields : List Field}

theorem Grows.again (h : Sound ds) (hb : Built ds c.members size fields)
    (hl : lookup ds c.name = some ⟨c.name, fields⟩) :
    Grows ds [c] ds ∧ sizes ds c.name = some size := by
  have hm : (⟨c.name, fields⟩ : StructDecl) ∈ ds := List.mem_of_find?_eq_some hl
  obtain ⟨s, hs⟩ := h.sized _ hm
  refine ⟨⟨h, List.prefix_rfl, fun c' hc => ?_, fun _ hd => .inl hd⟩,
    sizes_unique hl hs hb.total ▸ hs⟩
  obtain rfl := List.mem_singleton.1 hc
  exact ⟨_, hm, rfl, size, hb⟩

theorem Grows.append (h : Sound ds) (hb : Built ds c.members size fields)
    (hl : lookup ds c.name = none) :
    Grows ds [c] (ds ++ [⟨c.name, fields⟩]) ∧
      sizes (ds ++ [⟨c.name, fields⟩]) c.name = some size := by
  let d : StructDecl := ⟨c.name, fields⟩
  have hp : ds <+: ds ++ [d] := List.prefix_append ..
  have hn : c.name ∉ ds.map (·.name) := by simpa [lookup] using hl
  have hd : ((ds ++ [d]).map (·.name)).Nodup := by simpa using h.distinct.concat hn
  have hs : sizes (ds ++ [d]) c.name = some size :=
    sizes_of_fields hp (by simp) (lookup_of_mem hd (d := d) (by simp)) hb.total
  have hm : StandsFor (ds ++ [d]) c d := ⟨rfl, size, hb.mono hp⟩
  refine ⟨⟨⟨hd, fun e he => ?_⟩, hp, fun c' hc => ?_, fun e he => ?_⟩, hs⟩
  · rcases List.mem_append.1 he with he | he
    · obtain ⟨s, hs⟩ := h.sized e he
      exact ⟨s, sizes_extends hp _ _ hs⟩
    · obtain rfl := List.mem_singleton.1 he
      exact ⟨size, hs⟩
  · obtain rfl := List.mem_singleton.1 hc
    exact ⟨d, List.mem_concat_self, hm⟩
  · rcases List.mem_append.1 he with he | he
    · exact .inl he
    · obtain rfl := List.mem_singleton.1 he
      exact .inr ⟨c, by simp, hm⟩

theorem addStruct_grows {es : List StructDecl} (h : Sound ds)
    (hb : Built ds c.members size fields) (ha : addStruct ds ⟨c.name, fields⟩ = .ok es) :
    Grows ds [c] es ∧ sizes es c.name = some size := by
  rcases addStruct_ok ha with ⟨hl, rfl⟩ | ⟨hl, rfl⟩
  · exact Grows.again h hb hl
  · exact Grows.append h hb hl

end Struct

mutual
/-- The field of a member takes the packed size of its type, except where a struct is made to span
the stride of an array. -/
theorem place_fits {language : SourceLanguage} {owner name : String} {span : Option UInt32}
    {ds : List StructDecl} (hd : Sound ds) {type : MemberType} {p : Placement}
    (h : place language owner name span ds type = .ok p) :
    p.Fits ds (sourcesIn owner name type) name ∧ (span = none → type.packedSize = .ok p.size) := by
  cases type with
  | scalar k =>
    simp only [place, bind_ok_iff, pure_ok_iff] at h
    obtain ⟨size, hs, rfl⟩ := h
    refine ⟨⟨.refl hd, rfl, _, rfl, ?_⟩, fun _ => hs⟩
    cases hs
    simp [Field.count]
  | vector k n =>
    simp only [place, bind_ok_iff, pure_ok_iff] at h
    obtain ⟨size, hs, rfl⟩ := h
    refine ⟨⟨.refl hd, rfl, _, rfl, ?_⟩, fun _ => hs⟩
    simp only [MemberType.packedSize, need_ok_iff, Word.mul?_eq_some_iff] at hs
    simp [Field.count, hs]
  | matrix k n m =>
    simp only [place, bind_ok_iff, pure_ok_iff] at h
    obtain ⟨size, hs, rfl⟩ := h
    refine ⟨⟨.refl hd, rfl, _, rfl, ?_⟩, fun _ => hs⟩
    simp only [MemberType.packedSize, need_ok_iff, Option.bind_eq_some_iff,
      Word.mul?_eq_some_iff] at hs
    obtain ⟨a, ha, hs⟩ := hs
    cases language
    · simp [SourceLanguage.matrixShape, Field.count, hs, ha]
    · simp [SourceLanguage.matrixShape, Field.count, hs, ha, Nat.mul_right_comm]
  | array e count stride =>
    obtain ⟨q, hq, ha⟩ := (bind_ok_iff ..).1 h
    obtain ⟨hf, hp⟩ := place_fits hd hq
    obtain ⟨hfit, hm⟩ := arrayField_fits hf ha
    refine ⟨hfit, fun _ => ?_⟩
    cases stride with
    | none => simpa [MemberType.packedSize, hp rfl] using hm
    | some s => simpa [MemberType.packedSize] using hm
  | struct s ms =>
    simp only [place, structField, guard_ok_iff, bind_ok_iff, pure_ok_iff, Prod.exists] at h
    obtain ⟨-, stop, hs, fields, es, ⟨q, hq, hf⟩, gs, ha, rfl⟩ := h
    have hc := placeAll_covers ⟨.refl hd, rfl, by simp, .nil⟩ hq
    obtain ⟨rfl, hb⟩ := finish_built hc hf
    -- the struct goes behind those its members needed, so its size is known where it is added
    obtain ⟨hg, hn⟩ := addStruct_grows (c := ⟨structName owner name s, ms⟩) hc.grows.sound hb ha
    refine ⟨⟨hc.grows.trans hg, rfl, (max (span.getD 0) stop).toNat, ?_, ?_⟩, fun hspan => ?_⟩
    · exact Option.map_eq_some_iff.2 ⟨_, hn, rfl⟩
    · simp [Field.count]
    · have h0 : max 0 stop = stop := if_pos UInt32.zero_le
      subst hspan
      simpa [MemberType.packedSize, h0] using hs
theorem placeAll_covers {language : SourceLanguage} {owner : String} {ds : List StructDecl}
    {sources : List Source} {done ms : List Member} {p q : Progress}
    (hp : p.Covers ds sources done) (h : placeAll language owner p ms = .ok q) :
    q.Covers ds (sources ++ sourcesOf owner ms) (done ++ ms) := by
  cases ms with
  | nil =>
    cases h
    simpa [sourcesOf] using hp
  | cons m r =>
    simp only [placeAll, guard_ok_iff, bind_ok_iff, need_ok_iff] at h
    obtain ⟨-, hle, fields, hpad, placed, hplace, stop, hstop, hrest⟩ := h
    obtain ⟨hf, hs⟩ := place_fits hp.grows.sound hplace
    have hnext := (hp.pad hpad (toNat_gap hle)).snoc rfl hf (hs rfl) hstop
    simpa [sourcesOf] using placeAll_covers hnext hrest
end

end ShaderBuild.Metadata
