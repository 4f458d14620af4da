import ShaderBuild.Proofs.Metadata.Acceptance

namespace ShaderBuild

def Sighting.enter (t : ResourceTable) (s : Sighting) : Except Error ResourceTable :=
  Prod.snd <$> s.insert t

namespace Registry

section Shaders

variable {g g' : Registry} {x : Reflection} {xs : List Reflection}

theorem add_eq_ok_iff : g.add x = .ok g' ↔ (∀ s ∈ x.stages, s.Valid) ∧
    x.sightings.foldlM record g.table = .ok g'.table ∧ g'.shaders = g.shaders + 1 := by
  constructor
  · intro h
    exact ⟨(add_ok_iff.1 ⟨g', h⟩).1, add_ok h⟩
  · rintro ⟨hv, ht, hc⟩
    rw [add_eq, Reflection.validate_ok_iff.2 hv, ht]
    show Except.ok (Registry.mk g'.table (g.shaders + 1)) = .ok g'
    rw [← hc]

theorem run_eq_ok_iff : xs.foldlM add g = .ok g' ↔ (∀ x ∈ xs, ∀ s ∈ x.stages, s.Valid) ∧
    (xs.flatMap Reflection.sightings).foldlM record g.table = .ok g'.table ∧
      g'.shaders = g.shaders + xs.length := by
  induction xs generalizing g with
  | nil =>
    constructor
    · rintro ⟨⟩
      exact ⟨nofun, rfl, rfl⟩
    · rintro ⟨-, ht, hc⟩
      obtain ⟨table, shaders⟩ := g'
      cases ht
      cases hc
      rfl
  | cons x r ih =>
    simp only [List.foldlM_cons, List.flatMap_cons, List.foldlM_append, List.forall_mem_cons,
      List.length_cons, bind_ok_iff, ih, add_eq_ok_iff]
    constructor
    · rintro ⟨mid, ⟨hx, ht, hc⟩, hr, htr, hcr⟩
      exact ⟨⟨hx, hr⟩, ⟨mid.table, ht, htr⟩, by omega⟩
    · rintro ⟨⟨hx, hr⟩, ⟨tables, ht, htr⟩, hc⟩
      exact ⟨⟨tables, g.shaders + 1⟩, ⟨hx, ht, rfl⟩, hr, htr, by simp only; omega⟩

end Shaders

section Buckets

variable {ss : List Sighting} {tables tables' : Bucket → ResourceTable}

theorem seenIn_cons (b : Bucket) (s : Sighting) (ss : List Sighting) :
    seenIn b (s :: ss) = if s.binding.bucket = b then s :: seenIn b ss else seenIn b ss := by
  simp only [seenIn, List.filter_cons, beq_iff_eq]

theorem run_eq_ok_iff_each : ss.foldlM record tables = .ok tables' ↔
    ∀ b, (seenIn b ss).foldlM Sighting.enter (tables b) = .ok (tables' b) := by
  induction ss generalizing tables with
  | nil => simp [seenIn, funext_iff]
  | cons s r ih =>
    simp only [List.foldlM_cons, bind_ok_iff, ih]
    constructor
    · rintro ⟨mid, hs, hr⟩ b
      obtain ⟨id, t, hi, rfl⟩ := record_ok hs
      have hb := hr b
      dsimp only at hb
      by_cases h : b = s.binding.bucket
      · subst h
        rw [if_pos rfl] at hb
        rw [seenIn_cons, if_pos rfl, List.foldlM_cons, bind_ok_iff]
        exact ⟨t, by simp [Sighting.enter, hi], hb⟩
      · rw [if_neg h] at hb
        rwa [seenIn_cons, if_neg (Ne.symm h)]
    · intro h
      have hs := h s.binding.bucket
      rw [seenIn_cons, if_pos rfl, List.foldlM_cons, bind_ok_iff] at hs
      obtain ⟨t, ht, hr⟩ := hs
      refine ⟨fun k => if k = s.binding.bucket then t else tables k, ?_, fun b => ?_⟩
      · obtain ⟨⟨id, _⟩, hi, rfl⟩ := (map_ok_iff ..).1 ht
        rw [record_eq, hi]
        rfl
      · have hb := h b
        dsimp only
        by_cases hk : b = s.binding.bucket
        · subst hk
          rwa [if_pos rfl]
        · rw [seenIn_cons, if_neg (Ne.symm hk)] at hb
          rwa [if_neg hk]

end Buckets

end Registry

end ShaderBuild
