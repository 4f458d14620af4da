import Mathlib.Data.UInt
import ShaderBuild.Layout.Size
import ShaderBuild.Proofs.Outcome

namespace ShaderBuild

mutual
/-- The bytes a type spans, however many. -/
def MemberType.bytes : MemberType → Nat
  | .scalar k => k.width.toNat
  | .vector k n => k.width.toNat * n.toNat
  | .matrix k n m => k.width.toNat * n.toNat * m.toNat
  | .array _ count (some s) => s.toNat * (count.getD 1).toNat
  | .array e count none => e.bytes * (count.getD 1).toNat
  | .struct _ ms => lastByte ms
def lastByte : List Member → Nat
  | [] => 0
  | ⟨_, o, t⟩ :: r => max (o.toNat + t.bytes) (lastByte r)
end

mutual
theorem packedSize_toNat {t : MemberType} {n : UInt32} (h : t.packedSize = .ok n) :
    n.toNat = t.bytes := by
  cases t with
  | scalar k =>
    cases h
    rfl
  | vector k n =>
    simp only [MemberType.packedSize, need_ok_iff, Word.mul?_eq_some_iff] at h
    rw [h, MemberType.bytes]
  | matrix k n m =>
    simp only [MemberType.packedSize, need_ok_iff, Option.bind_eq_some_iff,
      Word.mul?_eq_some_iff] at h
    obtain ⟨a, ha, h⟩ := h
    rw [h, ha, MemberType.bytes]
  | array e count stride =>
    cases stride with
    | some s =>
      simp only [MemberType.packedSize, bind_ok_iff, pure_ok_iff, need_ok_iff,
        Word.mul?_eq_some_iff] at h
      obtain ⟨_, rfl, h⟩ := h
      exact h
    | none =>
      simp only [MemberType.packedSize, bind_ok_iff, need_ok_iff, Word.mul?_eq_some_iff] at h
      obtain ⟨each, he, h⟩ := h
      rw [h, packedSize_toNat he, MemberType.bytes]
  | struct name ms => exact extent_toNat h
theorem extent_toNat {ms : List Member} {n : UInt32} (h : extent ms = .ok n) :
    n.toNat = lastByte ms := by
  cases ms with
  | nil =>
    cases h
    rfl
  | cons m r =>
    obtain ⟨name, o, t⟩ := m
    simp only [extent, bind_ok_iff, pure_ok_iff, need_ok_iff, Word.add?_eq_some_iff] at h
    obtain ⟨size, hs, stop, ho, rest, hr, rfl⟩ := h
    rw [UInt32.toNat_max, ho, packedSize_toNat hs, extent_toNat hr, lastByte]
end

/-- A computation that fails only because a size outgrew 32 bits. -/
def OnlyOverflows {α : Type} (x : Except Error α) : Prop :=
  ∀ e, x = .error e → ∃ f : LayoutError, e = f.toError

namespace OnlyOverflows

variable {α β : Type}

theorem ok (a : α) : OnlyOverflows (.ok a) := nofun

theorem need (x : Option α) (f : LayoutError) : OnlyOverflows (need x f.toError) := by
  cases x with
  | some a => exact ok a
  | none =>
    rintro e he
    cases he
    exact ⟨f, rfl⟩

theorem bind {x : Except Error α} {f : α → Except Error β} (hx : OnlyOverflows x)
    (hf : ∀ a, OnlyOverflows (f a)) : OnlyOverflows (x >>= f) := by
  cases x with
  | ok a => exact hf a
  | error e =>
    rintro e' he
    cases he
    exact hx e rfl

theorem map {x : Except Error α} {f : α → β} (hx : OnlyOverflows x) : OnlyOverflows (f <$> x) := by
  cases x with
  | ok a => exact ok (f a)
  | error e =>
    rintro e' he
    cases he
    exact hx e rfl

end OnlyOverflows

mutual
theorem packedSize_onlyOverflows (t : MemberType) : OnlyOverflows t.packedSize := by
  cases t with
  | scalar k => exact .ok _
  | vector k n => exact .need _ _
  | matrix k n m => exact .need _ _
  | array e count stride =>
    cases stride with
    | some s => exact .bind (.ok s) fun _ => .need _ _
    | none => exact .bind (packedSize_onlyOverflows e) fun _ => .need _ _
  | struct name ms => exact extent_onlyOverflows ms
theorem extent_onlyOverflows (ms : List Member) : OnlyOverflows (extent ms) := by
  cases ms with
  | nil => exact .ok 0
  | cons m r =>
    obtain ⟨name, o, t⟩ := m
    rw [extent]
    refine .bind (packedSize_onlyOverflows t) fun _ => .bind (.need _ _) fun _ => ?_
    exact .bind (extent_onlyOverflows r) fun _ => .ok _
end

theorem element_onlyOverflows (l : BufferLayout) : OnlyOverflows l.element := by
  refine .bind ?_ fun _ => .ok _
  unfold BufferLayout.runtimeArrayElement
  split
  · exact .bind (.bind (extent_onlyOverflows _) fun _ => .ok _) fun _ => .ok _
  · exact .ok none

end ShaderBuild
