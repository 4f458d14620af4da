import Mathlib.Data.List.Perm.Basic
import ShaderBuild.Proofs.Metadata.Runs

namespace ShaderBuild

section Sightings

variable {ss es : List Sighting}

theorem StageMask.union_right_comm (a b c : StageMask) :
    (a.union b).union c = (a.union c).union b := by
  simp only [StageMask.union, UInt32.or_assoc, UInt32.or_comm b.bits]

theorem stagesOf_perm (h : ss.Perm es) (name : String) : stagesOf ss name = stagesOf es name := by
  refine (h.filter _).foldl_eq' (fun x _ y _ mask => ?_) _
  exact StageMask.union_right_comm mask _ _

theorem Consistent.perm (h : ss.Perm es) (hc : Consistent ss) : Consistent es :=
  ⟨fun s hs => hc.element s (h.mem_iff.2 hs), fun s hs e he =>
    hc.agree s (h.mem_iff.2 hs) e (h.mem_iff.2 he)⟩

theorem distinctNames_perm (h : ss.Perm es) : (ss.map Sighting.name).eraseDups.length =
    (es.map Sighting.name).eraseDups.length := by
  refine List.Perm.length_eq ((List.perm_ext_iff_of_nodup (nodup_eraseDups _)
    (nodup_eraseDups _)).2 fun n => ?_)
  rw [List.mem_eraseDups, List.mem_eraseDups, (h.map Sighting.name).mem_iff]

end Sightings

theorem flatMap_sightings_perm {xs ys : List Reflection} (h : xs.Perm ys) :
    (xs.flatMap Reflection.sightings).Perm (ys.flatMap Reflection.sightings) :=
  h.flatMap_right _

theorem sightings_perm {xs ys : List Reflection} (h : xs.Perm ys) (b : Bucket) :
    (sightings b xs).Perm (sightings b ys) := (flatMap_sightings_perm h).filter _

/-- Two tables know the same names, each with the same layout and the same stages. -/
structure SameResources (t t' : ResourceTable) : Prop where
  names : ∀ n, n ∈ t.entries.map (·.name) ↔ n ∈ t'.entries.map (·.name)
  agree : ∀ r ∈ t.entries, ∀ r' ∈ t'.entries, r.name = r'.name →
    r.layout = r'.layout ∧ r.stages = r'.stages

theorem FirstSeen.sameResources {b : Bucket} {ss es : List Sighting} {t t' : ResourceTable}
    (h : FirstSeen b ss t) (h' : FirstSeen b es t') (hp : ss.Perm es) : SameResources t t' := by
  refine ⟨fun n => ?_, fun r hr r' hr' hn => ⟨?_, ?_⟩⟩
  · rw [h.mem_names, h'.mem_names, (hp.map Sighting.name).mem_iff]
  · obtain ⟨s, hs, hsn, hsl⟩ := h.sighting hr
    have hsl' := (h'.described r' hr').layout s (hp.mem_iff.1 hs) (hsn.trans hn)
    exact Except.ok.inj (hsl.symm.trans hsl')
  · rw [(h.described r hr).stages, (h'.described r' hr').stages, hn, stagesOf_perm hp]

/-- A run from nothing is accepted for what the shaders say themselves and of each other. -/
theorem Registry.accepted_iff {xs : List Reflection}
    (hn : ∀ b, ((sightings b xs).map Sighting.name).eraseDups.length < UInt32.size) :
    (∃ g, xs.foldlM add .empty = .ok g) ↔
      (∀ x ∈ xs, ∀ s ∈ x.stages, s.Valid) ∧ Consistent (xs.flatMap Reflection.sightings) := by
  rw [← run_ok_iff hn]
  simp only [run_eq_ok_iff]
  constructor
  · rintro ⟨g, hv, ht, -⟩
    exact ⟨hv, g.table, ht⟩
  · rintro ⟨hv, tables, ht⟩
    exact ⟨⟨tables, _⟩, hv, ht, rfl⟩

/-- A run over shaders from nothing, as long as ids can number the names of each bucket, goes through
in every order of the shaders or in none, and knows the same resources in the end. -/
theorem registry_forgets_shader_order {xs ys : List Reflection} (hp : xs.Perm ys)
    (hn : ∀ b, ((sightings b xs).map Sighting.name).eraseDups.length < UInt32.size) :
    ((∃ g, xs.foldlM Registry.add .empty = .ok g) ↔
      ∃ g, ys.foldlM Registry.add .empty = .ok g) ∧
      ∀ g g', xs.foldlM Registry.add .empty = .ok g → ys.foldlM Registry.add .empty = .ok g' →
        ∀ b, SameResources (g.table b) (g'.table b) := by
  have hn' b : ((sightings b ys).map Sighting.name).eraseDups.length < UInt32.size :=
    distinctNames_perm (sightings_perm hp b) ▸ hn b
  have hss := flatMap_sightings_perm hp
  refine ⟨?_, fun g g' hg hg' b => ?_⟩
  · rw [Registry.accepted_iff hn, Registry.accepted_iff hn']
    refine and_congr ?_ ⟨Consistent.perm hss, Consistent.perm hss.symm⟩
    exact ⟨fun h x hx => h x (hp.mem_iff.2 hx), fun h x hx => h x (hp.mem_iff.1 hx)⟩
  · have h := Registry.run_firstSeen (Registry.run_ok hg).1 hn b
    have h' := Registry.run_firstSeen (Registry.run_ok hg').1 hn' b
    exact h.sameResources h' (sightings_perm hp b)

def sharedTextures : List Reflection :=
  let texture (name : String) (slot : UInt32) : Binding := ⟨name, none, .texture, 0, slot, none⟩
  let fog : Binding := ⟨"Fog", some "Fog", .constantBuffer, 1, 0,
    some ⟨"Fog", 4, [⟨"density", 0, .scalar .float⟩]⟩⟩
  [⟨.hlsl, [⟨.pixel, "main", [texture "Albedo" 0, texture "Noise" 1]⟩]⟩,
    ⟨.glsl, [⟨.compute, "main", [texture "Noise" 4, fog]⟩]⟩,
    ⟨.hlsl, [⟨.vertex, "main", [texture "Height" 0, fog]⟩, ⟨.pixel, "main", [texture "Albedo" 3]⟩]⟩]

theorem sharedTextures_in_any_order :
    let xs := sharedTextures
    let ys := xs.reverse
    xs.Perm ys ∧
      (∀ b, ((sightings b xs).map Sighting.name).eraseDups.length < UInt32.size) ∧
      ∃ g g', xs.foldlM Registry.add .empty = .ok g ∧ ys.foldlM Registry.add .empty = .ok g' ∧
        (∀ b, SameResources (g.table b) (g'.table b)) ∧
        (g.table .texture).entries.map (·.name) = ["Albedo", "Noise", "Height"] ∧
        (g'.table .texture).entries.map (·.name) = ["Height", "Albedo", "Noise"] := by
  intro xs ys
  have hp : xs.Perm ys := (List.reverse_perm xs).symm
  have hn : ∀ b, ((sightings b xs).map Sighting.name).eraseDups.length < UInt32.size := by
    intro b
    cases b <;> decide
  obtain ⟨hiff, hsame⟩ := registry_forgets_shader_order hp hn
  have ha : (xs.foldlM Registry.add .empty).toOption.isSome := by decide +kernel
  obtain ⟨g, hg⟩ := exists_of_toOption_isSome ha
  obtain ⟨g', hg'⟩ := hiff.1 ⟨g, hg⟩
  refine ⟨hp, hn, g, g', hg, hg', hsame g g' hg hg', ?_, ?_⟩
  · exact (Registry.run_numbered (Registry.run_ok hg).1 .texture).names.trans (by decide)
  · exact (Registry.run_numbered (Registry.run_ok hg').1 .texture).names.trans (by decide)

end ShaderBuild
