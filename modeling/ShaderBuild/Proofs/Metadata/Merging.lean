import ShaderBuild.Proofs.Metadata.Runs

namespace ShaderBuild

/-- The whole of some reflections, in their order and merged in some association. -/
inductive Merged : List Reflection → Reflection → Prop
  | one (x : Reflection) : Merged [x] x
  | join {xs ys : List Reflection} {a b : Reflection} (left : Merged xs a) (right : Merged ys b) :
      Merged (xs ++ ys) (a.merge b)

namespace Merged

variable {xs : List Reflection} {x y m : Reflection} {language : SourceLanguage}

theorem foldl (h : Merged xs x) (ys : List Reflection) :
    Merged (xs ++ ys) (ys.foldl Reflection.merge x) := by
  induction ys generalizing xs x with
  | nil => rwa [List.append_nil]
  | cons y r ih =>
    rw [List.append_cons]
    exact ih (h.join (one y))

theorem length_pos (h : Merged xs m) : 0 < xs.length := by
  induction h with
  | one => exact Nat.one_pos
  | join _ _ ih => exact Nat.lt_of_lt_of_le ih (by simp)

theorem stages (h : Merged xs m) : m.stages = xs.flatMap (·.stages) := by
  induction h with
  | one => simp
  | join _ _ ihl ihr => simp [Reflection.merge, ihl, ihr]

theorem language_eq (h : Merged xs m) (hl : ∀ x ∈ xs, x.language = language) :
    m.language = language := by
  induction h with
  | one x => exact hl x (List.mem_singleton_self x)
  | join _ _ ihl ihr =>
    rw [List.forall_mem_append] at hl
    rw [Reflection.merge]
    split
    · exact ihr hl.2
    · exact ihl hl.1

theorem sightings (h : Merged xs m) (hl : ∀ x ∈ xs, x.language = language) :
    m.sightings = xs.flatMap Reflection.sightings := by
  rw [Reflection.sightings, h.stages, h.language_eq hl, List.flatMap_assoc]
  refine List.flatMap_congr fun x hx => ?_
  rw [Reflection.sightings, hl x hx]

end Merged

/-- Shaders of one language may be merged, in any association, before they are registered: the
registry accepts or refuses the whole as it does the shaders one after another, and has the same
tables afterwards. -/
theorem merged_registers_as_its_parts {xs : List Reflection} {m : Reflection}
    {language : SourceLanguage} (hm : Merged xs m) (hl : ∀ x ∈ xs, x.language = language)
    (g : Registry) :
    ((∃ g', g.add m = .ok g') ↔ ∃ g', xs.foldlM Registry.add g = .ok g') ∧
      ∀ whole parts, g.add m = .ok whole → xs.foldlM Registry.add g = .ok parts →
        whole.table = parts.table ∧ parts.shaders = whole.shaders + (xs.length - 1) := by
  have hv : (∀ s ∈ m.stages, s.Valid) ↔ ∀ x ∈ xs, ∀ s ∈ x.stages, s.Valid := by
    rw [hm.stages]
    simp only [List.mem_flatMap]
    exact ⟨fun h x hx s hs => h s ⟨x, hx, hs⟩, fun h s ⟨x, hx, hs⟩ => h x hx s hs⟩
  have hs := hm.sightings hl
  simp only [Registry.add_eq_ok_iff, Registry.run_eq_ok_iff, hv, hs]
  refine ⟨?_, ?_⟩
  · constructor
    · rintro ⟨g', hxs, ht, -⟩
      exact ⟨⟨g'.table, g.shaders + xs.length⟩, hxs, ht, rfl⟩
    · rintro ⟨g', hxs, ht, -⟩
      exact ⟨⟨g'.table, g.shaders + 1⟩, hxs, ht, rfl⟩
  · rintro whole parts ⟨-, ht, hc⟩ ⟨-, ht', hc'⟩
    refine ⟨Except.ok.inj (ht.symm.trans ht'), ?_⟩
    have := hm.length_pos
    omega

def passes : List Reflection :=
  let camera : Binding := ⟨"Camera", some "Camera", .constantBuffer, 0, 0,
    some ⟨"Camera", 16, [⟨"eye", 0, .vector .float 4⟩]⟩⟩
  let albedo : Binding := ⟨"Albedo", none, .texture, 0, 1, none⟩
  let noise : Binding := ⟨"Noise", none, .texture, 1, 0, none⟩
  [.empty .glsl, ⟨.glsl, [⟨.vertex, "main", [camera]⟩, ⟨.pixel, "main", [camera, albedo]⟩]⟩,
    ⟨.glsl, [⟨.compute, "main", [noise, albedo]⟩]⟩]

theorem passes_register_as_one :
    let m := (passes.drop 1).foldl Reflection.merge (.empty .glsl)
    Merged passes m ∧ (∀ x ∈ passes, x.language = .glsl) ∧
      ∃ whole parts, Registry.empty.add m = .ok whole ∧
        passes.foldlM Registry.add .empty = .ok parts ∧ whole.table = parts.table ∧
        whole.shaders = 1 ∧ parts.shaders = 3 := by
  intro m
  have hm : Merged passes m := (Merged.one (.empty .glsl)).foldl (passes.drop 1)
  have hl : ∀ x ∈ passes, x.language = .glsl := by decide
  obtain ⟨hiff, hsame⟩ := merged_registers_as_its_parts hm hl .empty
  have ha : (Registry.empty.add m).toOption.isSome := by decide +kernel
  obtain ⟨whole, hw⟩ := exists_of_toOption_isSome ha
  obtain ⟨parts, hp⟩ := hiff.1 ⟨whole, hw⟩
  obtain ⟨ht, hc⟩ := hsame whole parts hw hp
  have hone : whole.shaders = 1 := (Registry.add_ok hw).2
  exact ⟨hm, hl, whole, parts, hw, hp, ht, hone, by rw [hc, hone]; rfl⟩

end ShaderBuild
