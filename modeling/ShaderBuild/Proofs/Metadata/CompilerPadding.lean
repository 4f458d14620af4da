import ShaderBuild.Proofs.Code.Alignment
import ShaderBuild.Proofs.Metadata.GeneratedLayouts

namespace ShaderBuild.Metadata

open Code

theorem Generated.spans {g : Registry} {nested : List StructDecl} {outs : List (List StructDecl)}
    {fs : List File} (h : Generated g nested outs fs) {d : StructDecl} (hd : d ∈ declared fs)
    {f : Field} (hf : f ∈ d.fields) : ∃ s, Spans (structSize fs) f s := by
  rcases h.origin hd with ⟨b, rfl⟩ | ⟨_, _, _, _, _, size, hb⟩
  · obtain ⟨n, _, rfl⟩ := List.mem_map.1 hf
    exact ⟨4, 4, rfl, rfl⟩
  · rw [structSize_eq]
    exact hb.spans f hf

/-- The compiler gives a struct the bytes its fields are counted to take, and puts each member of
its source at its offset. -/
def CompiledAs (hollow : Nat) (files : List File) (c : Source) : Prop :=
  ∃ d size t, struct? files c.name = some d ∧ structSize files c.name = some size ∧
    cShape? hollow files c.name = some t ∧ t.size = size.toNat ∧
    ∀ m ∈ c.members, ∃ before f after, d.fields = before ++ f :: after ∧
      f.name = Text.sanitize m.name ∧
      cOffset? (cShape? hollow files) before f = some m.offset.toNat

theorem Generated.compiledAs_iff {g : Registry} {nested : List StructDecl}
    {outs : List (List StructDecl)} {fs : List File} (h : Generated g nested outs fs) (hollow : Nat)
    {c : Source} {d : StructDecl} {size : UInt32} (hd : struct? fs c.name = some d)
    (hs : structSize fs c.name = some size) (hm : Faithful (structSize fs) c.members d.fields) :
    CompiledAs hollow fs c ↔ NaturallyAligned hollow fs c.name := by
  have hspans : ∀ d ∈ declared fs, ∀ f ∈ d.fields, ∃ s, Spans (structSize fs) f s :=
    fun _ hd _ hf => h.spans hd hf
  obtain ⟨t, ht, -, -, hiff⟩ := cShape_size hspans hollow hs
  constructor
  · rintro ⟨_, size', t', -, hs', ht', he, -⟩
    obtain rfl := Option.some.inj (hs.symm.trans hs')
    obtain rfl := Option.some.inj (ht.symm.trans ht')
    exact hiff.1 he
  · intro hn
    refine ⟨d, size, t, hd, hs, ht, hiff.2 hn, fun m hmem => ?_⟩
    obtain ⟨before, f, after, he, hname, hstop, -⟩ := hm.placed m hmem
    exact ⟨before, f, after, he, hname, hn.offset hspans hd he hstop⟩

/-- The compiler never takes fewer bytes for a generated struct than are counted for it. It takes as
many, and puts each member at its offset, exactly where nothing has to be padded. -/
theorem compiled_as_reflected_iff {g : Registry} {fs : List File} (h : files g = .ok fs)
    (hk : ∀ r ∈ g.structured, ∀ b, r.name ≠ kindName b) (hollow : Nat) :
    ∀ r ∈ g.structured, structSize fs r.name = some r.size ∧ ∀ c ∈ sources r,
      (∃ size t, structSize fs c.name = some size ∧ cShape? hollow fs c.name = some t ∧
        size.toNat ≤ t.size) ∧
      (CompiledAs hollow fs c ↔ NaturallyAligned hollow fs c.name) := by
  obtain ⟨nested, outs, hg⟩ := files_ok h
  intro r hr
  obtain ⟨_, _, _, hsize⟩ := hg.exists_data hk hr
  refine ⟨hsize, fun c hc => ?_⟩
  obtain ⟨d, size, hd, hs, hm⟩ := hg.exists_faithful hk hr hc
  obtain ⟨t, ht, hle, -⟩ := cShape_size (fun _ hd _ hf => hg.spans hd hf) hollow hs
  exact ⟨⟨size, t, hs, ht, hle⟩, hg.compiledAs_iff hollow hd hs hm⟩

theorem swarm_is_not_padded : (∀ r ∈ (registryOf swarm).structured, ∀ b, r.name ≠ kindName b) ∧
    ∃ fs, files (registryOf swarm) = .ok fs ∧ cShape? 0 fs "Swarm" = some ⟨92, 4⟩ ∧
      CompiledAs 0 fs ⟨"Swarm", swarm.members⟩ := by
  refine ⟨swarm_no_kind, ?_⟩
  have ha : (files (registryOf swarm)).toOption.any
      fun fs => cShape? 0 fs "Swarm" == some ⟨92, 4⟩ := by decide +kernel
  obtain ⟨fs, hf, ha⟩ := exists_of_toOption_any ha
  have hshape : cShape? 0 fs "Swarm" = some ⟨92, 4⟩ := eq_of_beq ha
  obtain ⟨hsize, hall⟩ :=
    compiled_as_reflected_iff hf swarm_no_kind 0 swarm (List.mem_singleton.2 rfl)
  obtain ⟨-, hiff⟩ := hall ⟨"Swarm", swarm.members⟩ (List.mem_cons_self ..)
  refine ⟨fs, hf, hshape, hiff.2 ?_⟩
  obtain ⟨nested, outs, hg⟩ := files_ok hf
  obtain ⟨t, ht, -, -, hn⟩ := cShape_size (fun _ hd _ hf => hg.spans hd hf) 0 hsize
  obtain rfl := Option.some.inj (hshape.symm.trans ht)
  exact hn.1 rfl

def spotlight : Resource :=
  ⟨0, "Light", .constantBuffer, some ⟨"Light", 12, [⟨"range", 0, .scalar .double⟩,
    ⟨"power", 8, .scalar .float⟩]⟩, .hlsl, .ofStage .pixel, 0, 0⟩

/-- The compiler pads a layout of twelve bytes to sixteen. -/
theorem spotlight_is_padded : ∃ fs, files (registryOf spotlight) = .ok fs ∧
    ((declared fs).map (·.name)).Nodup ∧ structSize fs "Light" = some 12 ∧
    cShape? 0 fs "Light" = some ⟨16, 8⟩ ∧ ¬CompiledAs 0 fs ⟨"Light", spotlight.members⟩ := by
  have ha : (files (registryOf spotlight)).toOption.any fun fs =>
      ((declared fs).map (·.name)).Nodup ∧ structSize fs "Light" = some 12 ∧
        cShape? 0 fs "Light" = some ⟨16, 8⟩ := by decide +kernel
  obtain ⟨fs, hf, ha⟩ := exists_of_toOption_any ha
  obtain ⟨hnodup, hsize, hshape⟩ := of_decide_eq_true ha
  refine ⟨fs, hf, hnodup, hsize, hshape, ?_⟩
  rintro ⟨d, size, t, -, hs, ht, he, -⟩
  obtain rfl := Option.some.inj (hsize.symm.trans hs)
  obtain rfl := Option.some.inj (hshape.symm.trans ht)
  exact absurd he (by decide)

end ShaderBuild.Metadata
