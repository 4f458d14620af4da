import ShaderBuild.Proofs.Metadata.Generated

namespace ShaderBuild.Metadata

open Code

section

variable {g : Registry} {nested : List StructDecl} {outs : List (List StructDecl)} {fs : List File}
  (h : Generated g nested outs fs)

include h

theorem Generated.exists_data (hk : ∀ r ∈ g.structured, ∀ b, r.name ≠ kindName b)
    {r : Resource} (hr : r ∈ g.structured) : ∃ d, struct? fs r.name = some d ∧
      DataOf (declared fs) r d ∧ structSize fs r.name = some r.size := by
  obtain ⟨d, hd, hdata⟩ := (exists_dataOf h.data).1 r hr
  have hl := h.lookup_data hd fun t _ => hdata.named ▸ hk r hr t.bucket
  have hlen : nested.length < (declared fs).length := by
    by_contra hlt
    have he := h.prefix.eq_of_length_le (Nat.le_of_not_lt hlt)
    have hm : d ∈ nested := he ▸ h.mem_declared.2 (.inr (.inr hd))
    exact h.apart d hd d hm rfl
  have hs := sizes_of_fields h.prefix hlen hl hdata.built.total
  rw [hdata.named] at hl hs
  exact ⟨d, struct?_eq_lookup fs r.name ▸ hl, hdata.mono h.prefix, structSize_eq fs ▸ hs⟩

theorem Generated.exists_nested {r : Resource} (hr : r ∈ g.structured) {c : Source}
    (hc : c ∈ inner r) : ∃ d s, struct? fs c.name = some d ∧ structSize fs c.name = some s ∧
      StandsFor (declared fs) c d := by
  obtain ⟨d, hd, hm⟩ := h.grows.built c (List.mem_flatMap.2 ⟨r, hr, hc⟩)
  obtain ⟨s, hs⟩ := h.grows.sound.sized d hd
  have hl := h.lookup_nested hd
  have hs := sizes_extends h.prefix _ _ hs
  rw [hm.1] at hl hs
  exact ⟨d, s, struct?_eq_lookup fs c.name ▸ hl, structSize_eq fs ▸ hs, hm.mono h.prefix⟩

/-- Every struct but the kind structs was generated for a resource. -/
theorem Generated.origin {d : StructDecl} (hd : d ∈ declared fs) :
    (∃ b, d = kindStruct b) ∨
      ∃ r ∈ g.structured, ∃ c ∈ sources r, StandsFor (declared fs) c d := by
  rcases h.mem_declared.1 hd with hd | ⟨t, _, rfl⟩ | hd
  · rcases h.grows.origin d hd with hn | ⟨c, hc, hm⟩
    · simp at hn
    · obtain ⟨r, hr, hc⟩ := List.mem_flatMap.1 hc
      exact .inr ⟨r, hr, c, List.mem_cons_of_mem _ hc, hm.mono h.prefix⟩
  · exact .inl ⟨t.bucket, rfl⟩
  · obtain ⟨r, hr, hdata⟩ := (exists_dataOf h.data).2 d hd
    exact .inr ⟨r, hr, _, List.mem_cons_self .., hdata.named, r.size, hdata.built.mono h.prefix⟩

end

theorem StandsFor.faithful {fs : List File} {c : Source} {d : StructDecl}
    (h : StandsFor (declared fs) c d) : Faithful (structSize fs) c.members d.fields := by
  obtain ⟨-, size, hb⟩ := h
  rw [structSize_eq]
  exact hb.faithful

/-- Every struct of a layout has a generated struct with a size that is faithful to it. -/
theorem Generated.exists_faithful {g : Registry} {nested : List StructDecl}
    {outs : List (List StructDecl)} {fs : List File} (h : Generated g nested outs fs)
    (hk : ∀ r ∈ g.structured, ∀ b, r.name ≠ kindName b) {r : Resource} (hr : r ∈ g.structured)
    {c : Source} (hc : c ∈ sources r) : ∃ d s, struct? fs c.name = some d ∧
      structSize fs c.name = some s ∧ Faithful (structSize fs) c.members d.fields := by
  rcases List.mem_cons.1 hc with rfl | hc
  · obtain ⟨d, hd, hdata, hs⟩ := h.exists_data hk hr
    exact ⟨d, r.size, hd, hs, StandsFor.faithful ⟨hdata.named, r.size, hdata.built⟩⟩
  · obtain ⟨d, s, hd, hs, hm⟩ := h.exists_nested hr hc
    exact ⟨d, s, hd, hs, hm.faithful⟩

/-- Where no structured resource is named like a kind struct, the size of a data struct is that of
its layout, every struct of a layout has a generated struct that is faithful to it, and there are no
other generated structs than these and the kind structs. -/
theorem generated_structs_are_faithful {g : Registry} {fs : List File} (h : files g = .ok fs)
    (hk : ∀ r ∈ g.structured, ∀ b, r.name ≠ kindName b) :
    (∀ r ∈ g.structured, structSize fs r.name = some r.size ∧
      ∀ c ∈ sources r, ∃ d, struct? fs c.name = some d ∧
        Faithful (structSize fs) c.members d.fields) ∧
    ∀ d ∈ declared fs, (∃ b, d = kindStruct b) ∨ ∃ r ∈ g.structured, ∃ c ∈ sources r,
      d.name = c.name ∧ Faithful (structSize fs) c.members d.fields := by
  obtain ⟨nested, outs, hg⟩ := files_ok h
  refine ⟨fun r hr => ?_, fun d hd => ?_⟩
  · obtain ⟨_, _, _, hs⟩ := hg.exists_data hk hr
    refine ⟨hs, fun c hc => ?_⟩
    obtain ⟨d, _, hd, _, hm⟩ := hg.exists_faithful hk hr hc
    exact ⟨d, hd, hm⟩
  · refine (hg.origin hd).imp_right fun ⟨r, hr, c, hc, hm⟩ => ?_
    exact ⟨r, hr, c, hc, hm.1, hm.faithful⟩

def registryOf (r : Resource) : Registry :=
  ⟨fun b => if b = r.bucket then ⟨b, [r], [(r.name, r.id)]⟩ else .empty b, 1⟩

def swarm : Resource :=
  let particle := [Placed.mk "pos" 0 (.vector .float 3),
    ⟨"ids", 16, .array (.scalar .half) (some 3) (some 4)⟩]
  let members : List Member := [⟨"p", 0, .array (.struct "Particle" particle) (some 2) (some 32)⟩,
    ⟨"leader", 64, .struct "Leader" particle⟩]
  ⟨0, "Swarm", .storageBuffer, some ⟨"Swarm", 92, members⟩, .glsl, ⟨32⟩, 0, 0⟩

theorem swarm_no_kind : ∀ r ∈ (registryOf swarm).structured, ∀ b, r.name ≠ kindName b := by
  intro r hr b
  obtain rfl : r = swarm := List.mem_singleton.1 hr
  cases b <;> decide

theorem swarm_is_faithful : (∀ r ∈ (registryOf swarm).structured, ∀ b, r.name ≠ kindName b) ∧
    ∃ fs, files (registryOf swarm) = .ok fs ∧ structSize fs "Swarm" = some 92 ∧
      ∃ d, struct? fs "Swarm" = some d ∧ Faithful (structSize fs) swarm.members d.fields := by
  refine ⟨swarm_no_kind, ?_⟩
  have ha : (files (registryOf swarm)).toOption.isSome := by decide +kernel
  obtain ⟨fs, hf⟩ := exists_of_toOption_isSome ha
  obtain ⟨hs, hm⟩ :=
    (generated_structs_are_faithful hf swarm_no_kind).1 swarm (List.mem_singleton.2 rfl)
  exact ⟨fs, hf, hs, hm _ (List.mem_cons_self ..)⟩

end ShaderBuild.Metadata
