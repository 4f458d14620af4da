import Mathlib
import ShaderBuild.Proofs.Metadata.Runs
import ShaderBuild.Proofs.Reflection.Listing

namespace ShaderBuild

namespace Binding

def place (b : Binding) : ℕ ×ₗ ℕ ×ₗ String := toLex (b.set.toNat, toLex (b.slot.toNat, b.name))

theorem precedes_iff {a b : Binding} : precedes a b = true ↔ a.place ≤ b.place := by
  simp [precedes, place, Prod.Lex.toLex_le_toLex, UInt32.lt_iff_toNat_lt, UInt32.toNat_inj]

theorem pairwise_mergeSort (bs : List Binding) :
    (bs.mergeSort precedes).Pairwise (·.place ≤ ·.place) := by
  refine (List.pairwise_mergeSort (fun a b c hab hbc => ?_) (fun a b => ?_) bs).imp precedes_iff.1
  · exact precedes_iff.2 ((precedes_iff.1 hab).trans (precedes_iff.1 hbc))
  · simpa [precedes_iff] using le_total a.place b.place

instance : Std.Symm Apart :=
  ⟨fun _ _ h hb => ⟨fun ⟨hs, hl⟩ => (h hb.symm).1 ⟨hs.symm, hl.symm⟩, (h hb.symm).2.symm⟩⟩

/-- What stands at one place in one bucket is one binding, if bindings are told apart at all. -/
theorem eq_of_place_eq {bs : List Binding} (h : bs.Pairwise Apart) {a b : Binding} (ha : a ∈ bs)
    (hb : b ∈ bs) (hbucket : a.bucket = b.bucket) (hplace : a.place = b.place) : a = b := by
  simp only [place, toLex_inj, Prod.mk.injEq, UInt32.toNat_inj] at hplace
  obtain ⟨hset, hslot, -⟩ := hplace
  by_contra hne
  exact (h.forall ha hb hne hbucket).1 ⟨hset, hslot⟩

end Binding

structure SameStage (s s' : StageReflection) : Prop where
  stage : s.stage = s'.stage
  bindings : s.bindings.Perm s'.bindings
  left : s.bindings.Pairwise (·.place ≤ ·.place)
  right : s'.bindings.Pairwise (·.place ≤ ·.place)

namespace SameStage

variable {s s' : StageReflection}

theorem valid_iff (h : SameStage s s') : s.Valid ↔ s'.Valid := by
  have ha := h.bindings.pairwise_iff (R := Binding.Apart) fun {_ _} => Std.Symm.symm _ _
  constructor
  · exact fun hv => ⟨fun b hb => hv.named b (h.bindings.mem_iff.2 hb), ha.1 hv.apart⟩
  · exact fun hv => ⟨fun b hb => hv.named b (h.bindings.mem_iff.1 hb), ha.2 hv.apart⟩

/-- Within a bucket nothing is left of the order of the listing. -/
theorem bindingsOf_eq (h : SameStage s s') (hv : s.Valid) (b : Bucket) :
    s.bindingsOf b = s'.bindingsOf b := by
  refine List.Perm.eq_of_pairwise (fun x y hx hy hxy hyx => ?_) (h.left.filter _)
    (h.right.filter _) (h.bindings.filter _)
  obtain ⟨hx, hxb⟩ := List.mem_filter.1 hx
  obtain ⟨hy, hyb⟩ := List.mem_filter.1 hy
  have hbucket := (eq_of_beq hxb).trans (eq_of_beq hyb).symm
  exact Binding.eq_of_place_eq hv.apart hx (h.bindings.mem_iff.2 hy) hbucket (le_antisymm hxy hyx)

end SameStage

section Registration

variable {ss ss' : List StageReflection}

theorem valid_iff_of_sameStages (h : List.Forall₂ SameStage ss ss') :
    (∀ s ∈ ss, s.Valid) ↔ ∀ s ∈ ss', s.Valid := by
  induction h with
  | nil => exact Iff.rfl
  | cons hs _ ih => rw [List.forall_mem_cons, List.forall_mem_cons, hs.valid_iff, ih]

theorem seenIn_sightings (b : Bucket) (x : Reflection) : seenIn b x.sightings =
    x.stages.flatMap fun s => (s.bindingsOf b).map (Sighting.mk x.language s.stage) := by
  simp only [seenIn, Reflection.sightings, List.filter_flatMap, List.filter_map]
  rfl

theorem seenIn_eq_of_sameStages (language : SourceLanguage) (h : List.Forall₂ SameStage ss ss')
    (hv : ∀ s ∈ ss, s.Valid) (b : Bucket) : seenIn b (Reflection.sightings ⟨language, ss⟩) =
      seenIn b (Reflection.sightings ⟨language, ss'⟩) := by
  rw [seenIn_sightings, seenIn_sightings]
  induction h with
  | nil => rfl
  | cons hs _ ih =>
    rw [List.forall_mem_cons] at hv
    rw [List.flatMap_cons, List.flatMap_cons, ih hv.2, hs.stage, hs.bindingsOf_eq hv.1]

theorem Registry.add_eq_of_sameStages (language : SourceLanguage)
    (h : List.Forall₂ SameStage ss ss') (g g' : Registry) :
    g.add ⟨language, ss⟩ = .ok g' ↔ g.add ⟨language, ss'⟩ = .ok g' := by
  simp only [add_eq_ok_iff, run_eq_ok_iff_each, ← valid_iff_of_sameStages h]
  refine and_congr_right fun hv => ?_
  simp only [seenIn_eq_of_sameStages language h hv]

end Registration

theorem Stage.index_injective : Function.Injective Stage.index := by
  intro a b
  cases a <;> cases b <;> simp [Stage.index]

section Listings

def Listing.Same (l m : Listing) : Prop := l.1 = m.1 ∧ l.2.Perm m.2

/-- The same entry points in another order, each with its descriptors in another order. -/
def Relisted (ls ms : List Listing) : Prop := ∃ mid, ls.Perm mid ∧ List.Forall₂ Listing.Same mid ms

theorem Relisted.symm {ls ms : List Listing} (h : Relisted ls ms) : Relisted ms ls := by
  obtain ⟨mid, hp, hs⟩ := h
  have hback : List.Forall₂ Listing.Same ms mid :=
    hs.flip.imp fun _ _ hlm => ⟨hlm.1.symm, hlm.2.symm⟩
  have hcomp : Relation.Comp (List.Forall₂ Listing.Same) List.Perm ms ls := ⟨mid, hback, hp.symm⟩
  rwa [List.forall₂_comp_perm_eq_perm_comp_forall₂] at hcomp

theorem Listing.Same.stage?_eq {l m : Listing} (h : l.Same m) : l.stage? = m.stage? :=
  congrArg (fun e : Spirv.EntryPoint => Stage.ofExecutionModel? e.model) h.1

theorem Relisted.stages {ls ms : List Listing} (h : Relisted ls ms) :
    (ls.filterMap Listing.stage?).Perm (ms.filterMap Listing.stage?) := by
  obtain ⟨mid, hp, hs⟩ := h
  refine (hp.filterMap _).trans (.of_eq ?_)
  clear hp
  induction hs with
  | nil => rfl
  | cons hlm _ ih => rw [List.filterMap_cons, List.filterMap_cons, hlm.stage?_eq, ih]

namespace StageReflection

theorem IsOf.stage?_eq {l : Listing} {s : StageReflection} (h : IsOf l s) :
    l.stage? = some s.stage := by
  obtain ⟨stage, hl, hs⟩ := h
  obtain ⟨bs, -, rfl⟩ := ofListed_ok_iff.1 hs
  exact hl

theorem IsOf.same {l m : Listing} {s : StageReflection} (hs : IsOf l s) (h : l.Same m) :
    ∃ s', IsOf m s' ∧ SameStage s s' := by
  obtain ⟨stage, hl, hs⟩ := hs
  obtain ⟨bs, hbs, rfl⟩ := ofListed_ok_iff.1 hs
  obtain ⟨bs', hbs', hp⟩ := List.perm_comp_forall₂ (h.2.filter _).symm hbs
  refine ⟨_, ⟨stage, h.stage?_eq ▸ hl, ofListed_ok_iff.2 ⟨bs', hbs', rfl⟩⟩, rfl, ?_,
    Binding.pairwise_mergeSort _, Binding.pairwise_mergeSort _⟩
  exact (List.mergeSort_perm ..).trans (hp.symm.trans (List.mergeSort_perm ..).symm)

theorem areOf_same {ls ms : List Listing} {ss : List StageReflection}
    (h : List.Forall₂ Listing.Same ls ms) (hs : List.Forall₂ IsOf ls ss) :
    ∃ ss', List.Forall₂ IsOf ms ss' ∧ List.Forall₂ SameStage ss ss' := by
  induction h generalizing ss with
  | nil =>
    cases hs
    exact ⟨[], .nil, .nil⟩
  | cons hlm _ ih =>
    obtain _ | ⟨hl, hr⟩ := hs
    obtain ⟨s', hm, hss⟩ := hl.same hlm
    obtain ⟨ss', hms, hsss⟩ := ih hr
    exact ⟨s' :: ss', .cons hm hms, .cons hss hsss⟩

theorem stages_of_areOf {ls : List Listing} {ss : List StageReflection}
    (h : List.Forall₂ IsOf ls ss) : ss.map (·.stage) = ls.filterMap Listing.stage? := by
  induction h with
  | nil => rfl
  | cons hs _ ih => rw [List.map_cons, List.filterMap_cons, hs.stage?_eq, ih]

end StageReflection

theorem filterMap_stage?_filter (ls : List Listing) :
    (ls.filter (·.stage?.isSome)).filterMap Listing.stage? = ls.filterMap Listing.stage? := by
  rw [List.filterMap_filter]
  refine List.filterMap_congr fun l _ => ?_
  cases l.stage? <;> rfl

theorem eq_of_perm_of_stages_nodup {ss ss' : List StageReflection}
    (hn : (ss.map (·.stage)).Nodup) (h : ss.Pairwise (·.stage.index ≤ ·.stage.index))
    (h' : ss'.Pairwise (·.stage.index ≤ ·.stage.index)) (hp : ss.Perm ss') : ss = ss' := by
  refine List.Perm.eq_of_pairwise (fun s s' hs hs' hle hge => ?_) h h' hp
  refine List.inj_on_of_nodup_map hn hs (hp.mem_iff.2 hs') (Stage.index_injective ?_)
  exact le_antisymm hle hge

theorem stages_of_sameStages {ss ss' : List StageReflection} (h : List.Forall₂ SameStage ss ss') :
    ss.map (·.stage) = ss'.map (·.stage) := by
  induction h with
  | nil => rfl
  | cons hs _ ih => rw [List.map_cons, List.map_cons, hs.stage, ih]

theorem inStageOrder_perm (ss : List StageReflection) : (inStageOrder ss).Perm ss :=
  List.mergeSort_perm ..

theorem pairwise_inStageOrder (ss : List StageReflection) :
    (inStageOrder ss).Pairwise (·.stage.index ≤ ·.stage.index) := by
  refine (List.pairwise_mergeSort (fun a b c hab hbc => ?_) (fun a b => ?_) ss).imp of_decide_eq_true
  · exact decide_eq_true (le_trans (of_decide_eq_true hab) (of_decide_eq_true hbc))
  · simpa using le_total a.stage.index b.stage.index

/-- What can be read off a listing can be read off another one, with the same stages. -/
theorem Reflection.ofListed_relisted {language : SourceLanguage} {ls ms : List Listing}
    {r : Reflection} (h : Relisted ls ms) (hn : (ls.filterMap Listing.stage?).Nodup)
    (hr : ofListed language ls = .ok r) :
    ∃ ss ss', r = ⟨language, ss⟩ ∧ ofListed language ms = .ok ⟨language, ss'⟩ ∧
      List.Forall₂ SameStage ss ss' := by
  obtain ⟨ss, hss, rfl⟩ := ofListed_ok_iff.1 hr
  obtain ⟨mid, hp, hs⟩ := h
  obtain ⟨ss₁, hss₁, hp₁⟩ := List.perm_comp_forall₂ (hp.filter _).symm hss
  have hkept : List.Forall₂ Listing.Same (mid.filter (·.stage?.isSome))
      (ms.filter (·.stage?.isSome)) :=
    List.rel_filter (fun l m hlm => iff_of_eq (congrArg (·.isSome = true) hlm.stage?_eq)) hs
  obtain ⟨ss₂, hss₂, hsame⟩ := StageReflection.areOf_same hkept hss₁
  -- the sorted stages of the first listing have their partners in some order, which is the sorted one
  obtain ⟨partners, hpartners, hp₂⟩ :=
    List.perm_comp_forall₂ ((inStageOrder_perm ss).trans hp₁.symm) hsame
  refine ⟨_, _, rfl, ofListed_ok_iff.2 ⟨ss₂, hss₂, rfl⟩, ?_⟩
  have hstages := stages_of_sameStages hpartners
  have hnodup : (partners.map (·.stage)).Nodup := by
    rw [← hstages, ((inStageOrder_perm ss).map _).nodup_iff,
      StageReflection.stages_of_areOf hss, filterMap_stage?_filter]
    exact hn
  have hsorted : partners.Pairwise (·.stage.index ≤ ·.stage.index) := by
    rw [← List.pairwise_map (f := StageReflection.stage) (R := (·.index ≤ ·.index)), ← hstages,
      List.pairwise_map]
    exact pairwise_inStageOrder ss
  have heq := eq_of_perm_of_stages_nodup hnodup hsorted (pairwise_inStageOrder ss₂)
    (hp₂.trans (inStageOrder_perm ss₂).symm)
  exact heq ▸ hpartners

/-- A stage shows its entry point: each descriptor that a bucket takes has one binding there, and the
bindings stand in order of their places. -/
structure StageReflection.Shows (s : StageReflection) (l : Listing) : Prop where
  stage : l.stage? = some s.stage
  entryPoint : s.entryPoint = l.1.name
  once : ∃ bs, List.Forall₂ Binding.IsOf (l.2.filter (·.isBound)) bs ∧ s.bindings.Perm bs
  sorted : s.bindings.Pairwise (·.place ≤ ·.place)

/-- A reflection shows a module: one stage for each entry point whose model has one. -/
def Reflection.Shows (r : Reflection) (ls : List Listing) : Prop :=
  ∃ ss, List.Forall₂ (fun l s => s.Shows l) (ls.filter (·.stage?.isSome)) ss ∧ r.stages.Perm ss

theorem StageReflection.IsOf.shows {l : Listing} {s : StageReflection} (h : IsOf l s) :
    s.Shows l := by
  obtain ⟨stage, hl, hs⟩ := h
  obtain ⟨bs, hbs, rfl⟩ := ofListed_ok_iff.1 hs
  exact ⟨hl, rfl, ⟨bs, hbs, List.mergeSort_perm ..⟩, Binding.pairwise_mergeSort bs⟩

theorem Reflection.ofListed_shows {language : SourceLanguage} {ls : List Listing} {r : Reflection}
    (hr : ofListed language ls = .ok r) : r.Shows ls := by
  obtain ⟨ss, hss, rfl⟩ := ofListed_ok_iff.1 hr
  exact ⟨ss, hss.imp fun _ _ h => h.shows, inStageOrder_perm ss⟩

end Listings

/-- However a module with one entry point for each stage is listed, its reading fails or it shows each
descriptor once and in order, and a registry makes the same of it. -/
theorem listing_order_does_not_count {language : SourceLanguage} {ls ms : List Listing}
    (h : Relisted ls ms) (hn : (ls.filterMap Listing.stage?).Nodup) (j j' : Journal) :
    (∃ r r', ((Reflection.ofListings language ls).run.run j).1 = .ok r ∧
      ((Reflection.ofListings language ms).run.run j').1 = .ok r' ∧ r.Shows ls ∧ r'.Shows ms ∧
      ∀ g g' : Registry, g.add r = .ok g' ↔ g.add r' = .ok g') ∨
    (∃ e e', ((Reflection.ofListings language ls).run.run j).1 = .error e ∧
      ((Reflection.ofListings language ms).run.run j').1 = .error e') := by
  rw [(Reflection.ofListings_gives language ls j trivial).1,
    (Reflection.ofListings_gives language ms j' trivial).1]
  cases hr : Reflection.ofListed language ls with
  | ok r =>
    obtain ⟨ss, ss', rfl, hr', hsame⟩ := Reflection.ofListed_relisted h hn hr
    exact .inl ⟨_, _, rfl, hr', Reflection.ofListed_shows hr, Reflection.ofListed_shows hr',
      Registry.add_eq_of_sameStages language hsame⟩
  | error e =>
    refine .inr ?_
    cases hr' : Reflection.ofListed language ms with
    | ok r' =>
      have hn' := h.stages.nodup_iff.1 hn
      obtain ⟨_, _, _, hback, -⟩ := Reflection.ofListed_relisted h.symm hn' hr'
      rw [hr] at hback
      cases hback
    | error e' => exact ⟨e, e', rfl, rfl⟩

def surface : List Spirv.Descriptor :=
  [⟨some "Albedo", 0, 1, .sampledImage, .image .sampled false⟩,
    ⟨some "Albedo", 0, 1, .sampler, .sampler⟩,
    ⟨none, 0, 0, .uniformBuffer, .struct (some "type.Fog")
      [⟨some "density", some 0, .readWrite, .scalar (.float 32)⟩]⟩,
    ⟨some "Behind", 0, 2, .inputAttachment 0, .image .attachment false⟩]

theorem surface_in_two_orders :
    let ls : List Listing := [(⟨0, 4, "vs"⟩, surface), (⟨4, 5, "ps"⟩, surface)]
    let ms : List Listing := [(⟨4, 5, "ps"⟩, surface.reverse), (⟨0, 4, "vs"⟩, surface.reverse)]
    let buckets (r : Reflection) := r.stages.map fun s => s.bindings.map (·.bucket)
    Relisted ls ms ∧ (ls.filterMap Listing.stage?).Nodup ∧
      ∃ r r', ((Reflection.ofListings .hlsl ls).run.run {}).1 = .ok r ∧
        ((Reflection.ofListings .hlsl ms).run.run {}).1 = .ok r' ∧ r.Shows ls ∧ r'.Shows ms ∧
        (∀ g g' : Registry, g.add r = .ok g' ↔ g.add r' = .ok g') ∧
        buckets r = List.replicate 2 [.constantBuffer, .texture, .sampler] ∧
        buckets r' = List.replicate 2 [.constantBuffer, .sampler, .texture] := by
  intro ls ms buckets
  have hp : surface.Perm surface.reverse := (List.reverse_perm _).symm
  have h : Relisted ls ms :=
    ⟨ls.reverse, (List.reverse_perm ls).symm, .cons ⟨rfl, hp⟩ (.cons ⟨rfl, hp⟩ .nil)⟩
  have hn : (ls.filterMap Listing.stage?).Nodup := by decide
  have hls : (Reflection.ofListed .hlsl ls).toOption.map buckets =
      some (List.replicate 2 [.constantBuffer, .texture, .sampler]) := by cbv
  have hms : (Reflection.ofListed .hlsl ms).toOption.map buckets =
      some (List.replicate 2 [.constantBuffer, .sampler, .texture]) := by cbv
  refine ⟨h, hn, ?_⟩
  obtain ⟨r, r', hr, hr', hs, hs', hg⟩ | ⟨e, e', he, -⟩ := listing_order_does_not_count h hn {} {}
  · refine ⟨r, r', hr, hr', hs, hs', hg, ?_, ?_⟩
    · rw [← (Reflection.ofListings_gives .hlsl ls {} trivial).1, hr] at hls
      exact Option.some.inj hls
    · rw [← (Reflection.ofListings_gives .hlsl ms {} trivial).1, hr'] at hms
      exact Option.some.inj hms
  · rw [← (Reflection.ofListings_gives .hlsl ls {} trivial).1, he] at hls
    cases hls

end ShaderBuild
