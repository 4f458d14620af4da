import Mathlib.Data.List.Nodup
import ShaderBuild.Builtin.Job
import ShaderBuild.Proofs.Outcome

namespace ShaderBuild.Builtin

/-- The name of the second shader goes on behind that of the first, into its entry point. -/
def Shader.RunsInto (s t : Shader) : Prop :=
  ∃ w, t.name = s.name ++ "_" ++ w ∧ s.entryPoint = w ++ "_" ++ t.entryPoint

/-- Manifests that were read one by one and share no name. -/
structure Gathered (ms : List Manifest) : Prop where
  read : ∀ m ∈ ms, ∃ path text, Manifest.parse path text = .ok m
  unique : checkUniqueNames ms = .ok ()

def shadersOf (ms : List Manifest) : List Shader := ms.flatMap (·.shaders)

section Names

theorem nodup_of_findDuplicate?_none {before names : List (String × String)}
    (hb : (before.map (·.1)).Nodup) (h : findDuplicate? before names = none) :
    ((before ++ names).map (·.1)).Nodup := by
  induction names generalizing before with
  | nil => simpa using hb
  | cons p r ih =>
    obtain ⟨name, path⟩ := p
    rw [findDuplicate?] at h
    cases hl : before.lookup name with
    | some first => simp [hl] at h
    | none =>
      rw [hl] at h
      have hnew : name ∉ before.map (·.1) := by
        rw [List.lookup_eq_none_iff] at hl
        intro hmem
        obtain ⟨q, hq, rfl⟩ := List.mem_map.1 hmem
        simpa using hl q hq
      have hsnoc : ((before ++ [(name, path)]).map (·.1)).Nodup := by
        rw [List.map_append, List.map_singleton, ← List.concat_eq_append]
        exact List.Nodup.concat hnew hb
      simpa using ih hsnoc h

theorem checkName_ok {path name : String} (h : checkName path name = .ok ()) :
    Text.isIdentifier name ∧ Code.isReserved name = false := by
  unfold checkName at h
  split at h
  · cases h
  · split at h
    · cases h
    next hident =>
      split at h
      · cases h
      next hres => exact ⟨by simpa using hident, by simpa using hres⟩

theorem Shader.ofEntry_ok {path : String} {k v : Yaml.Value} {s : Shader}
    (h : Shader.ofEntry path k v = .ok s) : checkName path s.name = .ok () := by
  unfold Shader.ofEntry at h
  split at h
  · simp only [bind_ok_iff] at h
    obtain ⟨name, -, ⟨⟩, hname, d, -, h⟩ := h
    split at h
    · cases h
    · split at h
      · cases h
      · cases h
        exact hname
  · cases h

theorem Manifest.parse_ok {path text : String} {m : Manifest} (h : Manifest.parse path text = .ok m) :
    ∀ s ∈ m.shaders, checkName path s.name = .ok () := by
  have hread : ∃ entries : List (Yaml.Value × Yaml.Value),
      entries.mapM (fun e => Shader.ofEntry path e.1 e.2) = .ok m.shaders := by
    simp only [Manifest.parse, bind_ok_iff] at h
    obtain ⟨doc, -, h⟩ := h
    split at h
    · simp only [bind_ok_iff, pure_ok_iff] at h
      obtain ⟨entries, -, shaders, hs, rfl⟩ := h
      exact ⟨entries, hs⟩
    · simp only [bind_ok_iff, pure_ok_iff] at h
      obtain ⟨entries, -, shaders, hs, rfl⟩ := h
      exact ⟨entries, hs⟩
    · cases h
  obtain ⟨entries, hs⟩ := hread
  intro s hmem
  obtain ⟨⟨k, v⟩, -, he⟩ := mem_of_mapM_ok hs hmem
  exact Shader.ofEntry_ok he

theorem names_nodup {ms : List Manifest} (h : checkUniqueNames ms = .ok ()) :
    ((shadersOf ms).map (·.name)).Nodup := by
  unfold checkUniqueNames at h
  cases hd : findDuplicate? [] (declaredNames ms) with
  | some f => simp [hd] at h
  | none =>
    have hn := @nodup_of_findDuplicate?_none [] _ List.nodup_nil hd
    simpa [shadersOf, declaredNames, List.map_flatMap, Function.comp_def] using hn

variable {ms : List Manifest} (h : Gathered ms)

include h

theorem Gathered.nodup : ((shadersOf ms).map (·.name)).Nodup := names_nodup h.unique

theorem Gathered.isIdentifier {s : Shader} (hs : s ∈ shadersOf ms) : Text.isIdentifier s.name := by
  obtain ⟨m, hm, hs⟩ := List.mem_flatMap.1 hs
  obtain ⟨path, text, hp⟩ := h.read m hm
  exact (checkName_ok (Manifest.parse_ok hp s hs)).1

theorem Gathered.not_count {s : Shader} (hs : s ∈ shadersOf ms) : s.name ≠ Code.countVariant := by
  obtain ⟨m, hm, hs⟩ := List.mem_flatMap.1 hs
  obtain ⟨path, text, hp⟩ := h.read m hm
  have hfree := (checkName_ok (Manifest.parse_ok hp s hs)).2
  simp only [Code.isReserved, Bool.or_eq_false_iff, beq_eq_false_iff_ne] at hfree
  exact hfree.1

end Names

section Glue

theorem glued_eq_iff {n m e f : List Char} (h : n ≠ m) : n ++ '_' :: e = m ++ '_' :: f ↔
    (∃ w, m = n ++ '_' :: w ∧ e = w ++ '_' :: f) ∨ ∃ w, n = m ++ '_' :: w ∧ f = w ++ '_' :: e := by
  constructor
  · intro heq
    rcases List.append_eq_append_iff.1 heq with ⟨as, rfl, hr⟩ | ⟨bs, rfl, hr⟩
    · cases as with
      | nil => simp at h
      | cons c w =>
        obtain ⟨rfl, rfl⟩ := List.cons.inj hr
        exact .inl ⟨w, rfl, rfl⟩
    · cases bs with
      | nil => simp at h
      | cons c w =>
        obtain ⟨rfl, rfl⟩ := List.cons.inj hr
        exact .inr ⟨w, rfl, rfl⟩
  · rintro (⟨w, rfl, rfl⟩ | ⟨w, rfl, rfl⟩) <;> simp

namespace Shader

def stem (s : Shader) : String := s.name ++ "_" ++ s.entryPoint

theorem runsInto_iff {s t : Shader} : s.RunsInto t ↔ ∃ w, t.name.toList = s.name.toList ++ '_' :: w ∧
    s.entryPoint.toList = w ++ '_' :: t.entryPoint.toList := by
  constructor
  · rintro ⟨w, hn, he⟩
    exact ⟨w.toList, by simp [hn], by simp [he]⟩
  · rintro ⟨w, hn, he⟩
    refine ⟨.ofList w, String.toList_injective ?_, String.toList_injective ?_⟩
    · simp [hn]
    · simp [he]

theorem stem_eq_iff {s t : Shader} (h : s.name ≠ t.name) :
    s.stem = t.stem ↔ s.RunsInto t ∨ t.RunsInto s := by
  have hne : s.name.toList ≠ t.name.toList := fun he => h (String.toList_injective he)
  rw [runsInto_iff, runsInto_iff, ← glued_eq_iff hne, ← String.toList_inj]
  simp [stem]

theorem binaryName_eq (s : Shader) (a : Api) :
    s.binaryName a = s.stem ++ ("_" ++ a.name ++ "." ++ a.binaryExtension) := by
  simp only [binaryName, stem, String.append_assoc]
  rfl

theorem binaryName_inj {s t : Shader} {a b : Api} :
    s.binaryName a = t.binaryName b ↔ a = b ∧ s.stem = t.stem := by
  have hlast : ∀ (s : Shader) (a : Api), (s.binaryName a).toList.getLast? =
      a.binaryExtension.toList.getLast? := by
    intro s a
    rw [binaryName_eq, String.toList_append, List.getLast?_append]
    cases a <;> rfl
  constructor
  · intro h
    have hab : a = b := by
      have he := hlast s a
      rw [h, hlast t b] at he
      revert he
      cases a <;> cases b <;> decide
    subst hab
    rw [binaryName_eq, binaryName_eq, String.append_left_inj] at h
    exact ⟨rfl, h⟩
  · rintro ⟨rfl, h⟩
    rw [binaryName_eq, binaryName_eq, h]

end Shader

end Glue

section Plan

variable {ms : List Manifest} {apis : List Api} {directory : String} {platform : Platform}

/-- A job whose binary is named for its shader and its API and stands in a directory. -/
structure Job.PlannedIn (directory : String) (j : Job) : Prop where
  name : j.binaryName = j.shader.binaryName j.api
  output : ∀ d, j.descriptor = some d → d.output = Path.join directory j.binaryName

theorem build_output {r : Request} {d : Descriptor} (h : r.build = .ok d) :
    r.output = some d.output := by
  simp only [Request.build, bind_ok_iff, need_ok_iff] at h
  obtain ⟨_, -, _, -, output, ho, _, -, _, -, h⟩ := h
  obtain ⟨ho, -⟩ := Option.filter_eq_some_iff.1 ho
  split at h
  · cases h
  · cases h
    exact ho

theorem plan_ok {s : Shader} {api : Api} {j : Job}
    (h : Job.plan directory platform s api = .ok j) :
    (j.shader, j.api) = (s, api) ∧ j.PlannedIn directory := by
  unfold Job.plan at h
  split at h
  · simp only [bind_ok_iff, map_ok_iff, pure_ok_iff] at h
    obtain ⟨_, ⟨d, hd, rfl⟩, rfl⟩ := h
    refine ⟨rfl, rfl, fun e he => ?_⟩
    obtain rfl := Option.some.inj he
    exact (Option.some.inj (build_output hd)).symm
  · simp only [bind_ok_iff, pure_ok_iff] at h
    obtain ⟨_, rfl, rfl⟩ := h
    refine ⟨rfl, rfl, fun e he => ?_⟩
    cases he

theorem planJobs_ok {jobs : List Job} (h : planJobs ms apis directory platform = .ok jobs) :
    jobs.map (fun j => (j.shader, j.api)) = pairs ms apis ∧ ∀ j ∈ jobs, j.PlannedIn directory := by
  constructor
  · have hplan : List.Forall₂ (fun p j => Job.plan directory platform p.1 p.2 = .ok j)
        (pairs ms apis) jobs := mapM_ok_iff.1 h
    have heq : List.Forall₂ (fun p (j : Job) => p = (j.shader, j.api)) (pairs ms apis) jobs :=
      hplan.imp fun _ _ hp => (plan_ok hp).1.symm
    rw [← List.forall₂_map_right_iff, List.forall₂_eq_eq_eq] at heq
    exact heq.symm
  · intro j hj
    obtain ⟨⟨s, api⟩, -, hp⟩ := mem_of_mapM_ok h hj
    exact (plan_ok hp).2

theorem pairs_differ (hn : ((shadersOf ms).map (·.name)).Nodup) (ha : apis.Nodup) :
    (pairs ms apis).Pairwise fun p q => p.1.name = q.1.name → p.2 ≠ q.2 := by
  rw [pairs, List.pairwise_flatMap]
  constructor
  · intro s _
    rw [List.pairwise_map]
    refine List.Pairwise.imp ?_ ha
    intro a b hab _
    exact hab
  · refine (List.pairwise_map.1 hn).imp fun hne p hp q hq hpq => ?_
    obtain ⟨a, -, rfl⟩ := List.mem_map.1 hp
    obtain ⟨b, -, rfl⟩ := List.mem_map.1 hq
    exact absurd hpq hne

theorem mem_shadersOf_of_pair {p : Shader × Api} (h : p ∈ pairs ms apis) : p.1 ∈ shadersOf ms := by
  obtain ⟨s, hs, hp⟩ := List.mem_flatMap.1 h
  obtain ⟨a, -, rfl⟩ := List.mem_map.1 hp
  exact hs

theorem join_inj {a b : String} (ha : Path.isAbsolute a = false) (hb : Path.isAbsolute b = false) :
    Path.join directory a = Path.join directory b ↔ a = b := by
  refine ⟨fun h => ?_, fun h => h ▸ rfl⟩
  rw [Path.isAbsolute] at ha hb
  rw [Path.join, Path.join, String.ofList_inj, Path.joinChars, Path.joinChars, ha, hb] at h
  apply String.toList_injective
  cases hl : directory.toList.getLast? with
  | none => simpa [hl] using h
  | some c =>
    by_cases hc : c = Path.separator
    · simpa [hl, hc] using h
    · simpa [hl, hc] using h

theorem Shader.binaryName_relative {s : Shader} (h : Text.isIdentifier s.name) (a : Api) :
    Path.isAbsolute (s.binaryName a) = false := by
  rw [binaryName_eq, stem]
  cases hs : s.name.toList with
  | nil => simp [Text.isIdentifier, hs, Text.isIdentifierChars] at h
  | cons c r =>
    have hc : Text.isWordStart c := by
      rw [Text.isIdentifier, hs, Text.isIdentifierChars, Bool.and_eq_true] at h
      exact h.1
    have hslash : c ≠ Path.separator := by
      rintro rfl
      revert hc
      decide
    simp [Path.isAbsolute, Path.isAbsoluteChars, hs, hslash]

/-- Two jobs of a batch have one binary exactly if they are for one API and the name of one shader
runs into the entry point of the other; they write to one path exactly if they have one binary. -/
theorem jobs_share_binary_iff (hms : Gathered ms) (ha : apis.Nodup) {jobs : List Job}
    (h : planJobs ms apis directory platform = .ok jobs) :
    jobs.Pairwise fun p q =>
      (p.binaryName = q.binaryName ↔
        p.api = q.api ∧ (p.shader.RunsInto q.shader ∨ q.shader.RunsInto p.shader)) ∧
      ∀ d ∈ p.descriptor, ∀ e ∈ q.descriptor,
        (d.output = e.output ↔ p.binaryName = q.binaryName) := by
  obtain ⟨hpairs, hplanned⟩ := planJobs_ok h
  -- jobs for one shader are for different APIs, so it takes two shaders to share a binary
  have hdiffer : jobs.Pairwise fun p q => p.shader.name = q.shader.name → p.api ≠ q.api := by
    rw [← List.pairwise_map (f := fun j : Job => (j.shader, j.api))
      (R := fun p q : Shader × Api => p.1.name = q.1.name → p.2 ≠ q.2), hpairs]
    exact pairs_differ hms.nodup ha
  have hident : ∀ j ∈ jobs, Text.isIdentifier j.shader.name := by
    intro j hj
    have hp : (j.shader, j.api) ∈ pairs ms apis := hpairs ▸ List.mem_map_of_mem hj
    exact hms.isIdentifier (mem_shadersOf_of_pair hp)
  refine hdiffer.imp_of_mem fun {p q} hp hq hne => ⟨?_, fun d hd e he => ?_⟩
  · rw [(hplanned p hp).name, (hplanned q hq).name, Shader.binaryName_inj]
    refine and_congr_right fun hapi => Shader.stem_eq_iff fun hname => hne hname hapi
  · have hrel : ∀ j ∈ jobs, Path.isAbsolute j.binaryName = false := by
      intro j hj
      rw [(hplanned j hj).name]
      exact Shader.binaryName_relative (hident j hj) j.api
    rw [(hplanned p hp).output d hd, (hplanned q hq).output e he]
    exact join_inj (hrel p hp) (hrel q hq)

end Plan

section Blits

def blits : Manifest where
  path := "a.shaders"
  source := "a.hlsl"
  shaders := [⟨"Blit", "fast_main", .pixel, [], "a.hlsl"⟩,
    ⟨"Blit_fast", "main", .pixel, [], "a.hlsl"⟩]

def blitsText : String :=
  "Blit:\n  entrypoint: fast_main\n  stage: Pixel\n" ++
    "Blit_fast:\n  entrypoint: main\n  stage: Pixel\n"

theorem blits_gathered : Gathered [blits] where
  read := by
    intro m hm
    obtain rfl := List.mem_singleton.1 hm
    have hread : (Manifest.parse "a.shaders" blitsText).toOption = some blits := by
      decide +kernel
    exact ⟨_, _, ok_of_toOption hread⟩
  unique := rfl

/-- For two APIs, the jobs of the shaders share a binary for each. -/
theorem blits_share_for_each_api :
    Gathered [blits] ∧ [Api.vulkan, .d3d12].Nodup ∧
    ∃ jobs, planJobs [blits] [.vulkan, .d3d12] "out" .linux = .ok jobs ∧
      jobs.map (·.binaryName) = ["Blit_fast_main_Vulkan.spv", "Blit_fast_main_D3D12.dxil",
        "Blit_fast_main_Vulkan.spv", "Blit_fast_main_D3D12.dxil"] ∧
      jobs.Pairwise fun p q =>
        (p.binaryName = q.binaryName ↔
          p.api = q.api ∧ (p.shader.RunsInto q.shader ∨ q.shader.RunsInto p.shader)) ∧
        ∀ d ∈ p.descriptor, ∀ e ∈ q.descriptor,
          (d.output = e.output ↔ p.binaryName = q.binaryName) := by
  have hplan : (planJobs [blits] [.vulkan, .d3d12] "out" .linux).toOption.map
      (·.map (·.binaryName)) = some ["Blit_fast_main_Vulkan.spv", "Blit_fast_main_D3D12.dxil",
        "Blit_fast_main_Vulkan.spv", "Blit_fast_main_D3D12.dxil"] := by decide +kernel
  obtain ⟨jobs, hjobs, hnames⟩ := Option.map_eq_some_iff.1 hplan
  have hapis : [Api.vulkan, .d3d12].Nodup := by decide
  exact ⟨blits_gathered, hapis, jobs, ok_of_toOption hjobs, hnames,
    jobs_share_binary_iff blits_gathered hapis (ok_of_toOption hjobs)⟩

/-- Shaders with names of their own do not always lead to binaries of their own. -/
theorem blits_write_to_one_path :
    ∃ jobs, Gathered [blits] ∧ [Api.vulkan].Nodup ∧
      planJobs [blits] [.vulkan] "out/Bytecode" .linux = .ok jobs ∧
      ¬(jobs.map (·.binaryName)).Nodup ∧
      ¬((jobs.filterMap (·.descriptor)).map (·.output)).Nodup := by
  have hplan : (planJobs [blits] [.vulkan] "out/Bytecode" .linux).toOption.any (fun jobs =>
      ¬(jobs.map (·.binaryName)).Nodup ∧
        ¬((jobs.filterMap (·.descriptor)).map (·.output)).Nodup) := by decide +kernel
  obtain ⟨jobs, hjobs, hshare⟩ := exists_of_toOption_any hplan
  exact ⟨jobs, blits_gathered, by decide, hjobs, of_decide_eq_true hshare⟩

end Blits

end ShaderBuild.Builtin
