import ShaderBuild.Proofs.Outcome
import ShaderBuild.Reflection.Binding

namespace ShaderBuild

def Binding.Apart (a b : Binding) : Prop :=
  a.bucket = b.bucket → ¬(a.set = b.set ∧ a.slot = b.slot) ∧ a.name ≠ b.name

namespace StageReflection

structure Valid (s : StageReflection) : Prop where
  named : ∀ b ∈ s.bindings, b.name ≠ ""
  apart : s.bindings.Pairwise Binding.Apart

theorem clash?_none {a b : Binding} : clash? a b = none ↔ a.Apart b := by
  by_cases hb : a.bucket = b.bucket
  · by_cases hs : a.set = b.set ∧ a.slot = b.slot
    · simp [clash?, Binding.Apart, hb, hs]
    · by_cases hn : a.name = b.name <;> simp [clash?, Binding.Apart, hb, hs, hn]
  · simp [clash?, Binding.Apart, hb]

theorem fault?_none {before bs : List Binding} : fault? before bs = none ↔
    (∀ b ∈ bs, b.name ≠ "") ∧ (∀ a ∈ before, ∀ b ∈ bs, a.Apart b) ∧ bs.Pairwise Binding.Apart := by
  induction bs generalizing before with
  | nil => simp [fault?]
  | cons b r ih =>
    by_cases hb : b.name = ""
    · simp [fault?, hb]
    have hfind : before.findSome? (clash? · b) = none ↔ ∀ a ∈ before, a.Apart b := by
      simp [List.findSome?_eq_none_iff, clash?_none]
    cases hf : before.findSome? (clash? · b) with
    | some e =>
      have hne : ¬∀ a ∈ before, a.Apart b := by
        rw [← hfind, hf]
        exact nofun
      simp only [fault?, hb, if_false, hf, reduceCtorEq, false_iff]
      rintro ⟨-, hall, -⟩
      exact hne fun a ha => hall a ha b (List.mem_cons_self ..)
    | none =>
      simp only [fault?, hb, if_false, hf, ih]
      simp only [List.forall_mem_append, List.pairwise_cons, List.mem_cons, forall_eq_or_imp,
        List.not_mem_nil, false_implies, implies_true, and_true]
      constructor
      · rintro ⟨hn, ⟨hall, hbr⟩, hp⟩
        exact ⟨⟨hb, hn⟩, fun a ha => ⟨hfind.1 hf a ha, hall a ha⟩, hbr, hp⟩
      · rintro ⟨⟨-, hn⟩, hall, hbr, hp⟩
        exact ⟨hn, ⟨fun a ha => (hall a ha).2, hbr⟩, hp⟩

theorem validate_ok_iff {s : StageReflection} : s.validate = .ok () ↔ s.Valid := by
  have h : fault? [] s.bindings = none ↔ s.Valid := by
    rw [fault?_none]
    constructor
    · rintro ⟨hn, -, hp⟩
      exact ⟨hn, hp⟩
    · rintro ⟨hn, hp⟩
      exact ⟨hn, nofun, hp⟩
  rw [← h, validate]
  cases fault? [] s.bindings <;> simp

end StageReflection

theorem Reflection.validate_ok_iff {x : Reflection} :
    x.validate = .ok () ↔ ∀ s ∈ x.stages, s.Valid := by
  simp only [Reflection.validate, forM_ok_iff, StageReflection.validate_ok_iff]

end ShaderBuild
