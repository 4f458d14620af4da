import ShaderBuild.Proofs.Code.FieldBytes

namespace ShaderBuild.Code

structure CShape where
  size : Nat
  align : Nat
deriving DecidableEq, Repr

def roundUp (n align : Nat) : Nat := (n + (align - 1)) / align * align

theorem le_roundUp {n a : Nat} (ha : 0 < a) : n ≤ roundUp n a := by
  have h := Nat.lt_div_mul_add (a := n + (a - 1)) ha
  unfold roundUp
  omega

theorem roundUp_eq_iff {n a : Nat} (ha : 0 < a) : roundUp n a = n ↔ a ∣ n := by
  constructor
  · intro h
    exact h ▸ Nat.dvd_mul_left ..
  · rintro ⟨q, rfl⟩
    have hq : (a * q + (a - 1)) / a = q := by
      rw [Nat.mul_add_div ha, Nat.div_eq_of_lt (by omega), Nat.add_zero]
    rw [roundUp, hq, Nat.mul_comm]

def FieldType.shape? (named : String → Option CShape) : FieldType → Option CShape
  | .scalar k => some ⟨k.width.toNat, k.width.toNat⟩
  | .vector k n => some ⟨k.width.toNat * n.toNat, k.width.toNat⟩
  | .matrix k n m => some ⟨k.width.toNat * n.toNat * m.toNat, k.width.toNat⟩
  | .uint32 | .enum _ => some ⟨4, 4⟩
  | .str | .bytes => some ⟨8, 8⟩
  | .named n => named n

def Field.shape? (named : String → Option CShape) (f : Field) : Option CShape :=
  (f.type.shape? named).map fun s => ⟨s.size * f.count, s.align⟩

def CShape.step (named : String → Option CShape) (s : CShape) (f : Field) : Option CShape :=
  (f.shape? named).map fun t => ⟨roundUp s.size t.align + t.size, max s.align t.align⟩

def fieldsShape (named : String → Option CShape) (fields : List Field) : Option CShape :=
  fields.foldlM (CShape.step named) ⟨0, 1⟩

def cOffset? (named : String → Option CShape) (before : List Field) (f : Field) : Option Nat := do
  return roundUp (← fieldsShape named before).size (← f.shape? named).align

/-- A struct of some fields; one without fields takes `hollow` bytes, none in C and one in C++. -/
def structShape (hollow : Nat) (named : String → Option CShape) : List Field → Option CShape
  | [] => some ⟨hollow, 1⟩
  | fields => (fieldsShape named fields).map fun s => ⟨roundUp s.size s.align, s.align⟩

/-- The shape of a struct declared in one of the files. -/
def cShape? (hollow : Nat) (files : List File) : String → Option CShape :=
  within (struct? files) (structShape hollow) (structCount files)

section Mono

variable {g h : String → Option CShape} (hgh : Extends g h)

include hgh

theorem shape?_mono {f : Field} {s : CShape} (hs : f.shape? g = some s) : f.shape? h = some s := by
  obtain ⟨t, ht, rfl⟩ := Option.map_eq_some_iff.1 hs
  refine Option.map_eq_some_iff.2 ⟨t, ?_, rfl⟩
  cases hty : f.type with
  | named n => exact hgh n t (by simpa [hty, FieldType.shape?] using ht)
  | _ => rwa [hty] at ht

theorem fieldsShape_mono {fields : List Field} {s : CShape} (hs : fieldsShape g fields = some s) :
    fieldsShape h fields = some s := by
  unfold fieldsShape at hs ⊢
  generalize (⟨0, 1⟩ : CShape) = start at hs ⊢
  induction fields generalizing start with
  | nil => exact hs
  | cons f r ih =>
    obtain ⟨u, hu, hr⟩ := Option.bind_eq_some_iff.1 hs
    obtain ⟨t, ht, rfl⟩ := Option.map_eq_some_iff.1 hu
    refine Option.bind_eq_some_iff.2 ⟨_, ?_, ih _ hr⟩
    exact Option.map_eq_some_iff.2 ⟨t, shape?_mono hgh ht, rfl⟩

end Mono

theorem structShape_mono (hollow : Nat) (g h : String → Option CShape) (hgh : Extends g h)
    (fields : List Field) (s : CShape) (hs : structShape hollow g fields = some s) :
    structShape hollow h fields = some s := by
  cases fields with
  | nil => exact hs
  | cons f r =>
    obtain ⟨t, ht, rfl⟩ := Option.map_eq_some_iff.1 hs
    exact Option.map_eq_some_iff.2 ⟨t, fieldsShape_mono hgh ht, rfl⟩

theorem fieldsShape_snoc (named : String → Option CShape) (fields : List Field) (f : Field) :
    fieldsShape named (fields ++ [f]) =
      (fieldsShape named fields).bind fun s => s.step named f := by
  simp [fieldsShape, List.foldlM_append]

theorem exists_fieldsShape {named : String → Option CShape} {fields : List Field}
    (h : ∀ f ∈ fields, ∃ t, f.shape? named = some t) : ∃ s, fieldsShape named fields = some s := by
  induction fields using List.reverseRecOn with
  | nil => exact ⟨_, rfl⟩
  | append_singleton fields f ih =>
    obtain ⟨s, hs⟩ := ih fun e he => h e (List.mem_append_left _ he)
    obtain ⟨t, ht⟩ := h f (by simp)
    exact ⟨_, by rw [fieldsShape_snoc, hs, Option.bind_some, CShape.step, ht, Option.map_some]⟩

theorem exists_structShape (hollow : Nat) (p : String → Option UInt32) (c : String → Option CShape)
    (hpc : ∀ n a, p n = some a → ∃ t, c n = some t) (fields : List Field) (s : UInt32)
    (hs : fieldsSize p fields = some s) : ∃ t, structShape hollow c fields = some t := by
  have hf : ∀ f ∈ fields, ∃ t, f.shape? c = some t := by
    intro f hf
    obtain ⟨_, hb⟩ := size_of_mem hs hf
    obtain ⟨a, ha, -⟩ := Option.bind_eq_some_iff.1 hb
    cases ht : f.type with
    | named n =>
      obtain ⟨t, hc⟩ := hpc n a (by simpa [ht, FieldType.size?] using ha)
      exact ⟨_, by rw [Field.shape?, ht, FieldType.shape?, hc, Option.map_some]⟩
    | _ => exact ⟨_, by rw [Field.shape?, ht]; rfl⟩
  obtain ⟨s, hs⟩ := exists_fieldsShape hf
  cases fields with
  | nil => exact ⟨_, rfl⟩
  | cons f r => exact ⟨_, Option.map_eq_some_iff.2 ⟨s, hs, rfl⟩⟩

theorem exists_cShape (hollow : Nat) {files : List File} {name : String} {s : UInt32}
    (h : structSize files name = some s) : ∃ t, cShape? hollow files name = some t := by
  rw [structSize_eq_within] at h
  exact within_exists (exists_structShape hollow) h

theorem cShape_fields {hollow : Nat} {files : List File} {name : String} {d : StructDecl}
    {t : CShape} (hd : struct? files name = some d) (h : cShape? hollow files name = some t) :
    structShape hollow (cShape? hollow files) d.fields = some t :=
  within_fields (structShape_mono hollow) hd h

end ShaderBuild.Code
