import Mathlib.Algebra.BigOperators.Group.List.Basic
import ShaderBuild.Proofs.Code.StructSize

namespace ShaderBuild.Code

def Field.count (f : Field) : Nat := (f.dims.map UInt32.toNat).prod

/-- Bytes of one value; pointers have no bytes of their own in a size. -/
def FieldType.bytes? (named : String → Option UInt32) : FieldType → Option Nat
  | .scalar k => some k.width.toNat
  | .vector k n => some (k.width.toNat * n.toNat)
  | .matrix k n m => some (k.width.toNat * n.toNat * m.toNat)
  | .uint32 | .enum _ => some 4
  | .named n => (named n).map UInt32.toNat
  | .str | .bytes => none

def Spans (named : String → Option UInt32) (f : Field) (size : UInt32) : Prop :=
  ∃ b, f.type.bytes? named = some b ∧ size.toNat = b * f.count

theorem Spans.mono {g h : String → Option UInt32} (hgh : Extends g h) {f : Field} {s : UInt32}
    (hs : Spans g f s) : Spans h f s := by
  obtain ⟨b, hb, hc⟩ := hs
  refine ⟨b, ?_, hc⟩
  cases ht : f.type with
  | named n =>
    simp only [ht, FieldType.bytes?, Option.map_eq_some_iff] at hb ⊢
    obtain ⟨a, ha, rfl⟩ := hb
    exact ⟨a, hgh n a ha, rfl⟩
  | _ => rwa [ht] at hb

theorem foldl_mul_toNat (ds : List UInt32) (a : UInt32) :
    (ds.foldl (· * ·) a).toNat = a.toNat * (ds.map UInt32.toNat).prod % 2 ^ 32 := by
  induction ds generalizing a with
  | nil => simp [Nat.mod_eq_of_lt a.toNat_lt]
  | cons d r ih =>
    rw [List.foldl_cons, ih, UInt32.toNat_mul, List.map_cons, List.prod_cons, Nat.mod_mul_mod,
      Nat.mul_assoc]

theorem elementCount_toNat (f : Field) : f.elementCount.toNat = f.count % 2 ^ 32 := by
  rw [Field.elementCount, foldl_mul_toNat]
  simp [Field.count]

/-- The size of one value is its bytes modulo 2³². -/
theorem size?_of_bytes {named : String → Option UInt32} {t : FieldType} {b : Nat}
    (h : t.bytes? named = some b) : ∃ a, t.size? named = some a ∧ a.toNat = b % 2 ^ 32 := by
  cases t with
  | named n =>
    obtain ⟨a, ha, rfl⟩ := Option.map_eq_some_iff.1 h
    exact ⟨a, ha, (Nat.mod_eq_of_lt a.toNat_lt).symm⟩
  | scalar k =>
    cases h
    exact ⟨_, rfl, (Nat.mod_eq_of_lt k.width.toNat_lt).symm⟩
  | vector k n =>
    cases h
    exact ⟨_, rfl, UInt32.toNat_mul ..⟩
  | matrix k n m =>
    cases h
    exact ⟨_, rfl, by rw [UInt32.toNat_mul, UInt32.toNat_mul, Nat.mod_mul_mod]⟩
  | uint32 | enum =>
    cases h
    exact ⟨_, rfl, rfl⟩
  | str | bytes => cases h

theorem mod_mul_mod_of_lt {a b m : Nat} (h : a * b < m) : a % m * (b % m) = a * b := by
  rcases Nat.eq_zero_or_pos a with rfl | ha
  · simp
  rcases Nat.eq_zero_or_pos b with rfl | hb
  · simp
  have h₁ : a < m := Nat.lt_of_le_of_lt (Nat.le_mul_of_pos_right a hb) h
  have h₂ : b < m := Nat.lt_of_le_of_lt (Nat.le_mul_of_pos_left b ha) h
  rw [Nat.mod_eq_of_lt h₁, Nat.mod_eq_of_lt h₂]

theorem Spans.fieldSize {named : String → Option UInt32} {f : Field} {s : UInt32}
    (h : Spans named f s) : fieldSize named f = some s := by
  obtain ⟨b, hb, hs⟩ := h
  obtain ⟨a, ha, hab⟩ := size?_of_bytes hb
  have hm : Word.mul? a f.elementCount = some s := by
    rw [Word.mul?_eq_some_iff, hab, elementCount_toNat, hs, mod_mul_mod_of_lt]
    rw [← hs]
    exact s.toNat_lt
  exact Option.bind_eq_some_iff.2 ⟨a, ha, hm⟩

end ShaderBuild.Code
