import ShaderBuild.Proofs.Code.CLayout

namespace ShaderBuild.Code

theorem forall_split_snoc {α : Type} {P : List α → α → Prop} {xs : List α} {y : α} :
    (∀ before x after, xs ++ [y] = before ++ x :: after → P before x) ↔
      (∀ before x after, xs = before ++ x :: after → P before x) ∧ P xs y := by
  constructor
  · intro h
    exact ⟨fun before x after he => h before x (after ++ [y]) (by simp [he]), h xs y [] rfl⟩
  · rintro ⟨h, hy⟩ before x after he
    rcases List.eq_nil_or_concat after with rfl | ⟨rest, z, rfl⟩
    · obtain ⟨rfl, hx⟩ := List.append_inj' he rfl
      obtain rfl := List.head_eq_of_cons_eq hx
      exact hy
    · have he' : xs ++ [y] = (before ++ x :: rest) ++ [z] := by simpa using he
      obtain ⟨rfl, -⟩ := List.append_inj' he' rfl
      exact h before x rest rfl

/-- A field goes behind others where they end at a multiple of its alignment. -/
def Fits (p : String → Option UInt32) (c : String → Option CShape) (before : List Field)
    (f : Field) : Prop :=
  ∃ stop t, fieldsSize p before = some stop ∧ f.shape? c = some t ∧ t.align ∣ stop.toNat

def Covered (p : String → Option UInt32) (c : String → Option CShape) (n : String) : Prop :=
  ∃ s t, p n = some s ∧ c n = some t ∧ s.toNat ≤ t.size ∧ 0 < t.align

/-- The compiler gives a struct the bytes of its fields and no more. -/
def Tight (p : String → Option UInt32) (c : String → Option CShape) (n : String) : Prop :=
  ∃ s t, p n = some s ∧ c n = some t ∧ t.size = s.toNat

def TightIn (p : String → Option UInt32) (c : String → Option CShape) (f : Field) : Prop :=
  ∀ n, f.type = .named n → f.count ≠ 0 → Tight p c n

def Aligned (p : String → Option UInt32) (c : String → Option CShape) (fields : List Field) :
    Prop :=
  ∀ before f after, fields = before ++ f :: after → Fits p c before f ∧ TightIn p c f

section Shapes

variable {p : String → Option UInt32} {c : String → Option CShape}

theorem width_pos (k : ScalarKind) : 0 < k.width.toNat := by cases k <;> decide

theorem type_shape {t : FieldType} {b : Nat} (hb : t.bytes? p = some b)
    (hc : ∀ n, t = .named n → Covered p c n) :
    ∃ u, t.shape? c = some u ∧ b ≤ u.size ∧ 0 < u.align ∧
      (u.size = b ↔ ∀ n, t = .named n → Tight p c n) := by
  cases t with
  | named n =>
    obtain ⟨a, u, ha, hu, hle, hpos⟩ := hc n rfl
    obtain rfl : a.toNat = b := by simpa [FieldType.bytes?, ha] using hb
    exact ⟨u, hu, hle, hpos, by simp [Tight, ha, hu]⟩
  | scalar k | vector k _ | matrix k _ _ =>
    cases hb
    exact ⟨_, rfl, Nat.le_refl _, width_pos k, by simp⟩
  | uint32 | enum =>
    cases hb
    exact ⟨_, rfl, Nat.le_refl _, by decide, by simp⟩
  | str | bytes => cases hb

theorem field_shape {f : Field} {s : UInt32} (hs : Spans p f s)
    (hc : ∀ n, f.type = .named n → Covered p c n) :
    ∃ t, f.shape? c = some t ∧ s.toNat ≤ t.size ∧ 0 < t.align ∧
      (t.size = s.toNat ↔ TightIn p c f) := by
  obtain ⟨b, hb, hs⟩ := hs
  obtain ⟨u, hu, hle, hpos, htight⟩ := type_shape hb hc
  refine ⟨⟨u.size * f.count, u.align⟩, by rw [Field.shape?, hu, Option.map_some], ?_, hpos, ?_⟩
  · exact hs ▸ Nat.mul_le_mul_right _ hle
  · unfold TightIn
    rcases Nat.eq_zero_or_pos f.count with h0 | h0
    · simp [hs, h0]
    · rw [hs, Nat.mul_left_inj (Nat.ne_of_gt h0), htight]
      exact forall₂_congr fun n _ => ⟨fun h _ => h, fun h => h (Nat.ne_of_gt h0)⟩

/-- Fields behind each other end where they are counted to end, or later. -/
theorem fields_shape {fields : List Field} {a : UInt32} (ha : fieldsSize p fields = some a)
    (hs : ∀ f ∈ fields, ∃ s, Spans p f s)
    (hc : ∀ f ∈ fields, ∀ n, f.type = .named n → Covered p c n) :
    ∃ t, fieldsShape c fields = some t ∧ a.toNat ≤ t.size ∧ 0 < t.align ∧
      (t.size = a.toNat ↔ Aligned p c fields) := by
  induction fields using List.reverseRecOn generalizing a with
  | nil =>
    cases ha
    exact ⟨_, rfl, Nat.le_refl _, Nat.one_pos, by simp [Aligned]⟩
  | append_singleton fields f ih =>
    obtain ⟨stop, b, hstop, hb, ha⟩ := fieldsSize_snoc_iff.1 ha
    obtain ⟨t, ht, hle, hpos, hiff⟩ := ih hstop (fun e he => hs e (List.mem_append_left _ he))
      fun e he => hc e (List.mem_append_left _ he)
    obtain ⟨s, hspan⟩ := hs f (by simp)
    obtain rfl : s = b := Option.some.inj (hspan.fieldSize.symm.trans hb)
    obtain ⟨u, hu, hule, hupos, huiff⟩ := field_shape hspan (hc f (by simp))
    have hround := le_roundUp (n := t.size) hupos
    have hfits : Fits p c fields f ↔ u.align ∣ stop.toNat := by simp [Fits, hstop, hu]
    have hend : roundUp t.size u.align + u.size = a.toNat ↔
        t.size = stop.toNat ∧ u.align ∣ stop.toNat ∧ u.size = s.toNat := by
      constructor
      · intro he
        obtain ⟨hsize, hrest⟩ : t.size = stop.toNat ∧ roundUp t.size u.align = t.size := by omega
        exact ⟨hsize, hsize ▸ (roundUp_eq_iff hupos).1 hrest, by omega⟩
      · rintro ⟨hsize, hdvd, husize⟩
        rw [hsize, (roundUp_eq_iff hupos).2 hdvd, husize, ha]
    refine ⟨⟨roundUp t.size u.align + u.size, max t.align u.align⟩, ?_, ?_, ?_, ?_⟩
    · rw [fieldsShape_snoc, ht, Option.bind_some, CShape.step, hu, Option.map_some]
    · dsimp only
      omega
    · dsimp only
      omega
    · rw [Aligned, forall_split_snoc, hfits, ← huiff, ← Aligned, ← hiff]
      exact hend

/-- A struct takes the bytes of its fields where they are aligned and so is its end. -/
theorem struct_shape (hollow : Nat) {fields : List Field} {a : UInt32}
    (ha : fieldsSize p fields = some a) (hs : ∀ f ∈ fields, ∃ s, Spans p f s)
    (hc : ∀ f ∈ fields, ∀ n, f.type = .named n → Covered p c n) :
    ∃ t, structShape hollow c fields = some t ∧ a.toNat ≤ t.size ∧ 0 < t.align ∧
      (t.size = a.toNat ↔
        (fields = [] → hollow = 0) ∧ Aligned p c fields ∧ t.align ∣ a.toNat) := by
  obtain ⟨t, ht, hle, hpos, hiff⟩ := fields_shape ha hs hc
  cases fields with
  | nil =>
    cases ha
    exact ⟨_, rfl, Nat.zero_le _, Nat.one_pos, by simp [Aligned]⟩
  | cons f r =>
    have hround := le_roundUp (n := t.size) hpos
    refine ⟨⟨roundUp t.size t.align, t.align⟩, Option.map_eq_some_iff.2 ⟨t, ht, rfl⟩,
      Nat.le_trans hle hround, hpos, ?_⟩
    rw [← hiff]
    constructor
    · intro he
      dsimp only at he
      have hsize : t.size = a.toNat := by omega
      exact ⟨by simp, hsize, (roundUp_eq_iff hpos).1 (hsize ▸ he)⟩
    · rintro ⟨-, hsize, hdvd⟩
      rw [hsize, (roundUp_eq_iff hpos).2 hdvd]

end Shapes

/-- A struct in which nothing has to be padded: each of its fields begins where it is aligned, its
own end is aligned, and so it is in the structs it holds. -/
inductive NaturallyAligned (hollow : Nat) (files : List File) : String → Prop
  | intro {name : String} {d : StructDecl} {size : UInt32} {t : CShape}
    (found : struct? files name = some d) (sized : structSize files name = some size)
    (shaped : cShape? hollow files name = some t) (filled : d.fields = [] → hollow = 0)
    (fits : ∀ before f after, d.fields = before ++ f :: after →
      Fits (structSize files) (cShape? hollow files) before f)
    (ends : t.align ∣ size.toNat)
    (inside : ∀ f ∈ d.fields, ∀ n, f.type = .named n → f.count ≠ 0 →
      NaturallyAligned hollow files n) : NaturallyAligned hollow files name

theorem aligned_iff {p : String → Option UInt32} {c : String → Option CShape}
    {fields : List Field} : Aligned p c fields ↔
      (∀ before f after, fields = before ++ f :: after → Fits p c before f) ∧
        ∀ f ∈ fields, TightIn p c f := by
  constructor
  · intro h
    refine ⟨fun before f after he => (h before f after he).1, fun f hf => ?_⟩
    obtain ⟨before, after, he⟩ := List.append_of_mem hf
    exact (h before f after he).2
  · rintro ⟨hfits, htight⟩ before f after he
    exact ⟨hfits before f after he, htight f (by simp [he])⟩

section Structs

variable {files : List File}
  (hs : ∀ d ∈ declared files, ∀ f ∈ d.fields, ∃ s, Spans (structSize files) f s) (hollow : Nat)

include hs

theorem inner_size {name n : String} {d : StructDecl} (hd : struct? files name = some d) {f : Field}
    (hf : f ∈ d.fields) (hn : f.type = .named n) : ∃ s, structSize files n = some s := by
  rw [struct?_eq_lookup] at hd
  obtain ⟨_, b, hb, -⟩ := hs d (List.mem_of_find?_eq_some hd) f hf
  obtain ⟨s, h, -⟩ : ∃ s, structSize files n = some s ∧ s.toNat = b := by
    simpa [hn, FieldType.bytes?] using hb
  exact ⟨s, h⟩

/-- The compiler never gives a struct less than the bytes of its fields, and gives it no more exactly
where nothing has to be padded. -/
theorem cShape_size {name : String} {size : UInt32} (h : structSize files name = some size) :
    ∃ t, cShape? hollow files name = some t ∧ size.toNat ≤ t.size ∧ 0 < t.align ∧
      (t.size = size.toNat ↔ NaturallyAligned hollow files name) := by
  -- along the nesting, since a struct is laid out from those inside it
  refine structSize_induction (P := fun name => ∀ size, structSize files name = some size →
    ∃ t, cShape? hollow files name = some t ∧ size.toNat ≤ t.size ∧ 0 < t.align ∧
      (t.size = size.toNat ↔ NaturallyAligned hollow files name)) ?_ h size h
  clear h size name
  intro name d hd ih size h
  have hinner : ∀ f ∈ d.fields, ∀ n, f.type = .named n →
      Covered (structSize files) (cShape? hollow files) n ∧
        (Tight (structSize files) (cShape? hollow files) n ↔ NaturallyAligned hollow files n) := by
    intro f hf n hn
    obtain ⟨s, hsn⟩ := inner_size hs hd hf hn
    obtain ⟨t, ht, hle, hpos, hiff⟩ := ih f hf n hn s hsn
    exact ⟨⟨s, t, hsn, ht, hle, hpos⟩, by simp [← hiff, Tight, hsn, ht]⟩
  have hmem : d ∈ declared files := List.mem_of_find?_eq_some (struct?_eq_lookup files name ▸ hd)
  obtain ⟨t, ht, hle, hpos, hiff⟩ := struct_shape hollow (structSize_fields hd h) (hs d hmem)
    fun f hf n hn => (hinner f hf n hn).1
  obtain ⟨t', ht'⟩ := exists_cShape hollow h
  obtain rfl : t = t' := Option.some.inj (ht.symm.trans (cShape_fields hd ht'))
  refine ⟨t, ht', hle, hpos, ?_⟩
  rw [hiff, aligned_iff]
  constructor
  · rintro ⟨hfilled, ⟨hfits, hin⟩, hends⟩
    exact .intro hd h ht' hfilled hfits hends fun f hf n hn h0 =>
      (hinner f hf n hn).2.1 (hin f hf n hn h0)
  · rintro ⟨hd', hsz, ht'', hfilled, hfits, hends, hin⟩
    obtain rfl := Option.some.inj (hd.symm.trans hd')
    obtain rfl := Option.some.inj (h.symm.trans hsz)
    obtain rfl := Option.some.inj (ht'.symm.trans ht'')
    exact ⟨hfilled, ⟨hfits, fun f hf n hn h0 => (hinner f hf n hn).2.2 (hin f hf n hn h0)⟩, hends⟩

theorem inner_covered {name : String} {d : StructDecl} (hd : struct? files name = some d) :
    ∀ f ∈ d.fields, ∀ n, f.type = .named n →
      Covered (structSize files) (cShape? hollow files) n := by
  intro f hf n hn
  obtain ⟨s, hsn⟩ := inner_size hs hd hf hn
  obtain ⟨t, ht, hle, hpos, -⟩ := cShape_size hs hollow hsn
  exact ⟨s, t, hsn, ht, hle, hpos⟩

variable {hollow}

theorem NaturallyAligned.aligned {name : String} {d : StructDecl}
    (h : NaturallyAligned hollow files name) (hd : struct? files name = some d) :
    Aligned (structSize files) (cShape? hollow files) d.fields := by
  obtain ⟨hd', -, -, -, hfits, -, hin⟩ := h
  obtain rfl := Option.some.inj (hd.symm.trans hd')
  refine aligned_iff.2 ⟨hfits, fun f hf n hn h0 => ?_⟩
  obtain ⟨s, hsn⟩ := inner_size hs hd hf hn
  obtain ⟨t, ht, -, -, hiff⟩ := cShape_size hs hollow hsn
  exact ⟨s, t, hsn, ht, hiff.2 (hin f hf n hn h0)⟩

/-- Where nothing has to be padded, the compiler puts each field where those before it are counted
to end. -/
theorem NaturallyAligned.offset {name : String} {d : StructDecl}
    (h : NaturallyAligned hollow files name) (hd : struct? files name = some d)
    {before after : List Field} {f : Field} (he : d.fields = before ++ f :: after) {stop : UInt32}
    (hstop : fieldsSize (structSize files) before = some stop) :
    cOffset? (cShape? hollow files) before f = some stop.toNat := by
  have hmem : d ∈ declared files := List.mem_of_find?_eq_some (struct?_eq_lookup files name ▸ hd)
  have hcov := inner_covered hs hollow hd
  have hsub : ∀ e ∈ before, e ∈ d.fields := fun e hb => he ▸ List.mem_append_left _ hb
  have hf : f ∈ d.fields := by simp [he]
  have halign := h.aligned hs hd
  obtain ⟨s, hshape, -, -, hsize⟩ := fields_shape hstop (fun e hb => hs d hmem e (hsub e hb))
    fun e hb => hcov e (hsub e hb)
  have hend : s.size = stop.toNat := by
    refine hsize.2 fun b x a hx => halign b x (a ++ f :: after) ?_
    rw [he, hx, List.append_assoc, List.cons_append]
  obtain ⟨⟨stop', u, hstop', hu, hdvd⟩, -⟩ := halign before f after he
  obtain rfl := Option.some.inj (hstop.symm.trans hstop')
  obtain ⟨w, hw⟩ := hs d hmem f hf
  obtain ⟨u', hu', -, hpos, -⟩ := field_shape hw (hcov f hf)
  obtain rfl := Option.some.inj (hu.symm.trans hu')
  rw [cOffset?, hshape, hu]
  exact congrArg some (hend ▸ (roundUp_eq_iff hpos).2 (hend ▸ hdvd))

end Structs

end ShaderBuild.Code
