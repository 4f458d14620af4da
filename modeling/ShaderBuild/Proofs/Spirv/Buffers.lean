import ShaderBuild.Proofs.Outcome
import ShaderBuild.Spirv.Module

namespace ShaderBuild.Spirv

namespace DescriptorKind

def IsBuffer : DescriptorKind → Prop
  | uniformBuffer | storageBuffer _ => True
  | _ => False

end DescriptorKind

theorem kind?_isBuffer {a : Annotations} {id storage : UInt32} {t : DataType} {kind : DescriptorKind}
    (h : Descriptor.kind? a id storage t = some kind) (hb : kind.IsBuffer) :
    ∃ name fields, t = .struct name fields := by
  cases t with
  | struct name fields => exact ⟨name, fields, rfl⟩
  | image use buffer => cases use <;> cases buffer <;> cases h <;> cases hb
  | sampledImage buffer => cases buffer <;> cases h <;> cases hb
  | _ => cases h <;> cases hb

theorem ofVariable?_isBuffer {a : Annotations} {id storage : UInt32} {t : DataType} {d : Descriptor}
    (h : Descriptor.ofVariable? a id storage t = some d) (hb : d.kind.IsBuffer) :
    ∃ name fields, d.type = .struct name fields := by
  unfold Descriptor.ofVariable? at h
  obtain ⟨_, -, h⟩ := Option.bind_eq_some_iff.1 h
  obtain ⟨kind, hkind, h⟩ := Option.bind_eq_some_iff.1 h
  cases h
  exact kind?_isBuffer hkind hb

namespace Globals

variable {a : Annotations} {g g' : Globals} {i : Instruction}

theorem defineType_vars {id : UInt32} {t : DataType} (h : g.defineType id t = .ok g') :
    g'.vars = g.vars := by
  unfold defineType at h
  split at h <;> cases h <;> rfl

theorem defineConstant_vars {id : UInt32} {c : Constant} (h : g.defineConstant id c = .ok g') :
    g'.vars = g.vars := by
  unfold defineConstant at h
  split at h <;> cases h
  rfl

/-- The blocks that are known play no part. -/
theorem vars_withBlocks (c : Bool) (blocks : List UInt32) :
    (if c then { g with blockArrays := blocks } else g).vars = g.vars := by
  cases c <;> rfl

theorem readType_vars (h : g.readType a i = .ok g') : g'.vars = g.vars := by
  unfold readType at h
  split at h
  case h_11 =>
    simp only [bind_ok_iff] at h
    obtain ⟨id, -, element, -, length, -, h⟩ := h
    have hb := vars_withBlocks (g := g) (g.isBlock a element) (id :: g.blockArrays)
    generalize (if g.isBlock a element then { g with blockArrays := id :: g.blockArrays } else g) =
      b at h hb
    rw [← hb]
    grind [defineType_vars, pure_ok_iff, throw_ok_iff]
  all_goals grind [defineType_vars, bind_ok_iff, pure_ok_iff, throw_ok_iff]

theorem readConstant_vars (h : g.readConstant a i = .ok g') : g'.vars = g.vars := by
  unfold readConstant at h
  dsimp only at h
  split at h
  all_goals grind [defineConstant_vars, bind_ok_iff, pure_ok_iff, throw_ok_iff]

def Bound (a : Annotations) (d : Option Descriptor) : Prop :=
  ∃ id storage t, d = Descriptor.ofVariable? a id storage t

theorem readVariable_vars (h : g.readVariable a i = .ok g') :
    g'.vars = g.vars ∨
      ∃ id storage t, g'.vars = g.vars ++ [(id, Descriptor.ofVariable? a id storage t)] := by
  unfold readVariable at h
  grind [bind_ok_iff, pure_ok_iff, throw_ok_iff]

theorem read_bound (hg : ∀ v ∈ g.vars, Bound a v.2) (h : g.read a i = .ok g') :
    ∀ v ∈ g'.vars, Bound a v.2 := by
  unfold read at h
  split at h
  · rwa [readType_vars h]
  split at h
  · rwa [readConstant_vars h]
  split at h
  · obtain hvars | ⟨id, storage, t, hvars⟩ := readVariable_vars h
    · rwa [hvars]
    · rw [hvars]
      intro v hv
      obtain hv | hv := List.mem_append.1 hv
      · exact hg v hv
      · obtain rfl := List.mem_singleton.1 hv
        exact ⟨id, storage, t, rfl⟩
  · cases h
    exact hg

theorem readAll_bound {is : List Instruction} (hg : ∀ v ∈ g.vars, Bound a v.2)
    (h : is.foldlM (read a) g = .ok g') : ∀ v ∈ g'.vars, Bound a v.2 := by
  induction is generalizing g with
  | nil =>
    cases h
    exact hg
  | cons i r ih =>
    rw [List.foldlM_cons, bind_ok_iff] at h
    obtain ⟨mid, hi, hr⟩ := h
    exact ih (read_bound hg hi) hr

end Globals

theorem Module.descriptors_read {is : List Instruction} {m : Module}
    (h : Module.ofInstructions is = .ok m) :
    ∃ (a : Annotations) (rest : List Instruction) (g : Globals),
      rest.foldlM (Globals.read a) {} = .ok g ∧ m.descriptors = g.descriptors := by
  unfold ofInstructions at h
  simp only [bind_ok_iff] at h
  obtain ⟨_, -, h⟩ := h
  split at h
  · split at h
    · simp only [bind_ok_iff, pure_ok_iff] at h
      obtain ⟨_, -, _, -, _, -, _, -, a, -, g, hg, _, -, _, -, rfl⟩ := h
      exact ⟨a, _, g, hg, rfl⟩
    · simp only [bind_ok_iff, pure_ok_iff] at h
      obtain ⟨_, -, _, -, _, -, a, -, g, hg, _, -, _, -, rfl⟩ := h
      exact ⟨a, _, g, hg, rfl⟩
  · simp only [bind_ok_iff, pure_ok_iff] at h
    obtain ⟨_, -, _, -, _, -, a, -, g, hg, _, -, _, -, rfl⟩ := h
    exact ⟨a, _, g, hg, rfl⟩

/-- A buffer among the descriptors of a module is a struct. -/
theorem Module.buffer_isStruct {words : List UInt32} {m : Module} (h : ofWords words = .ok m)
    {d : Descriptor} (hd : d ∈ m.descriptors) (hb : d.kind.IsBuffer) :
    ∃ name fields, d.type = .struct name fields := by
  unfold ofWords at h
  split at h
  · cases h
  obtain ⟨a, rest, g, hg, heq⟩ := descriptors_read h
  rw [heq, Globals.descriptors, List.mem_filterMap] at hd
  obtain ⟨v, hv, hd⟩ := hd
  obtain ⟨id, storage, t, hvar⟩ :=
    Globals.readAll_bound (by simp) hg v (List.mem_mergeSort.1 hv)
  exact ofVariable?_isBuffer (hvar.symm.trans hd) hb

end ShaderBuild.Spirv
