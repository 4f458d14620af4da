import Mathlib.Data.List.Forall2
import Mathlib.Data.Nat.Init
import Mathlib.Data.Set.List
import Mathlib.Logic.Function.Basic
import Mathlib.Logic.Relation
import ShaderBuild.Proofs.Builtin.External

namespace ShaderBuild.Builtin

abbrev FileMap := String → Option (List UInt8)

def Job.Apart (i j : Job) : Prop := ∀ d ∈ i.descriptor, ∀ e ∈ j.descriptor, d.output ≠ e.output

theorem Job.Apart.symm {i j : Job} (h : i.Apart j) : j.Apart i :=
  fun e he d hd => (h d hd e he).symm

namespace Pool

inductive Progress
  | waiting
  | written (d : Descriptor)
  | finished (result : Except Error Variant)

structure Task where
  job : Job
  progress : Progress

structure State where
  files : FileMap
  tasks : List Task

def start (files : FileMap) (jobs : List Job) : State := ⟨files, jobs.map (⟨·, .waiting⟩)⟩

def readBack (files : FileMap) (d : Descriptor) : Except Error Bytecode :=
  match files d.output with
  | none => refuse (CompilationError.unreadableOutput d.output .notFound)
  | some bytes => Bytecode.ofBytes bytes d.entryPoint d.stage

/-- The steps of a job. A compiler that fails may leave anything at its output. -/
inductive JobStep (x : External) (job : Job) : FileMap → Progress → FileMap → Progress → Prop
  | skip {files} (h : job.descriptor = none) :
    JobStep x job files .waiting files (.finished (.ok (job.variant none)))
  | write {files d bytes} (h : job.descriptor = some d) (hx : x d = .ok bytes) :
    JobStep x job files .waiting (Function.update files d.output (some bytes)) (.written d)
  | fail {files d e} (left : Option (List UInt8)) (h : job.descriptor = some d)
      (hx : x d = .error e) :
    JobStep x job files .waiting (Function.update files d.output left) (.finished (.error e))
  | read {files d} :
    JobStep x job files (.written d) files
      (.finished ((fun code => job.variant (some code)) <$> readBack files d))

inductive Step (x : External) : State → State → Prop
  | mk {job files files' p p'} (before after : List Task) (h : JobStep x job files p files' p') :
    Step x ⟨files, before ++ ⟨job, p⟩ :: after⟩ ⟨files', before ++ ⟨job, p'⟩ :: after⟩

/-- Steps in any order, where each job keeps to its own. -/
abbrev Reaches (x : External) : State → State → Prop := Relation.ReflTransGen (Step x)

/-- The result of a pool: the variants in the order of the jobs when all of them are there, or the
error of any job, for which the rest need not be waited for. -/
inductive Yields (s : State) : Except Error (List Variant) → Prop
  | all {vs : List Variant} (h : s.tasks.map (·.progress) = vs.map fun v => .finished (.ok v)) :
    Yields s (.ok vs)
  | fault {job e} (h : ⟨job, .finished (.error e)⟩ ∈ s.tasks) : Yields s (.error e)

variable {x : External}

section Completion

def Progress.left : Progress → Nat
  | waiting => 2
  | written _ => 1
  | finished _ => 0

def left : List Task → Nat
  | [] => 0
  | t :: r => t.progress.left + left r

theorem left_append (ts us : List Task) : left (ts ++ us) = left ts + left us := by
  induction ts with
  | nil => simp [left]
  | cons t r ih => rw [List.cons_append, left, ih, left, Nat.add_assoc]

theorem left_lt_of_step {s t : State} (h : Step x s t) : left t.tasks < left s.tasks := by
  obtain ⟨before, after, h⟩ := h
  simp only [left_append, left]
  cases h <;> simp [Progress.left]

theorem exists_jobStep (files : FileMap) (t : Task) :
    (∃ r, t.progress = .finished r) ∨ ∃ files' p, JobStep x t.job files t.progress files' p := by
  obtain ⟨job, progress⟩ := t
  cases progress with
  | finished r => exact .inl ⟨r, rfl⟩
  | written d => exact .inr ⟨_, _, .read⟩
  | waiting =>
    refine .inr ?_
    cases hd : job.descriptor with
    | none => exact ⟨_, _, .skip hd⟩
    | some d =>
      cases hx : x d with
      | ok bytes => exact ⟨_, _, .write hd hx⟩
      | error e => exact ⟨_, _, .fail none hd hx⟩

theorem yields_of_finished {s : State} (h : ∀ t ∈ s.tasks, ∃ r, t.progress = .finished r) :
    ∃ r, Yields s r := by
  by_cases hf : ∃ t ∈ s.tasks, ∃ e, t.progress = .finished (.error e)
  · obtain ⟨⟨job, _⟩, ht, e, rfl⟩ := hf
    exact ⟨_, .fault ht⟩
  · have hok : ∀ t ∈ s.tasks, ∃ v, Progress.finished (.ok v) = t.progress := by
      intro t ht
      obtain ⟨r, hr⟩ := h t ht
      cases r with
      | ok v => exact ⟨v, hr.symm⟩
      | error e => exact absurd ⟨t, ht, e, hr⟩ hf
    have hmem : s.tasks.map (·.progress) ∈
        Set.range (List.map fun v => Progress.finished (.ok v)) := by
      rw [Set.range_list_map]
      rintro _ hp
      obtain ⟨t, ht, rfl⟩ := List.mem_map.1 hp
      exact hok t ht
    obtain ⟨vs, hvs⟩ := hmem
    exact ⟨_, .all hvs.symm⟩

/-- From wherever a pool is, it comes to a result. -/
theorem exists_yields (s : State) : ∃ t r, Reaches x s t ∧ Yields t r := by
  induction hn : left s.tasks using Nat.strong_induction_on generalizing s with
  | _ n ih =>
    by_cases hf : ∀ t ∈ s.tasks, ∃ r, t.progress = .finished r
    · obtain ⟨r, hr⟩ := yields_of_finished hf
      exact ⟨s, r, .refl, hr⟩
    · -- a job that is not finished takes a step, and less is left after it
      push Not at hf
      obtain ⟨t, ht, hlive⟩ := hf
      obtain ⟨before, after, htasks⟩ := List.append_of_mem ht
      obtain ⟨r, hr⟩ | ⟨files, p, hstep⟩ := exists_jobStep (x := x) s.files t
      · exact absurd hr (hlive r)
      · have hs : Step x s ⟨files, before ++ ⟨t.job, p⟩ :: after⟩ := by
          obtain ⟨_, tasks⟩ := s
          subst htasks
          exact .mk before after hstep
        obtain ⟨u, r, hu, hr⟩ := ih _ (hn ▸ left_lt_of_step hs) _ rfl
        exact ⟨u, r, hu.head hs, hr⟩

end Completion

section Soundness

/-- What is known of a task: what it wrote is still there, and its result is that of its job. -/
def Task.Sound (x : External) (files : FileMap) : Task → Prop
  | ⟨_, .waiting⟩ => True
  | ⟨job, .written d⟩ => job.descriptor = some d ∧ ∃ bytes, x d = .ok bytes ∧
      files d.output = some bytes
  | ⟨job, .finished r⟩ => r = x.variant job

theorem readBack_sound {files : FileMap} {d : Descriptor} {bytes : List UInt8}
    (hx : x d = .ok bytes) (hf : files d.output = some bytes) :
    readBack files d = x.bytecode d := by
  rw [readBack, hf, External.bytecode, hx]
  rfl

theorem sound_of_jobStep {job : Job} {files files' : FileMap} {p p' : Progress}
    (h : JobStep x job files p files' p') (hs : Task.Sound x files ⟨job, p⟩) :
    Task.Sound x files' ⟨job, p'⟩ := by
  cases h with
  | skip hd => exact (External.variant_of_none hd).symm
  | write hd hx => exact ⟨hd, _, hx, Function.update_self ..⟩
  | fail left hd hx =>
    rw [Task.Sound, External.variant_of_some hd, External.bytecode, hx]
    rfl
  | read =>
    obtain ⟨hd, bytes, hx, hf⟩ := hs
    rw [Task.Sound, readBack_sound hx hf, External.variant_of_some hd]

/-- A step changes no file but the output of its job. -/
theorem jobStep_frame {job : Job} {files files' : FileMap} {p p' : Progress}
    (h : JobStep x job files p files' p') {path : String}
    (hp : ∀ d ∈ job.descriptor, d.output ≠ path) : files' path = files path := by
  cases h with
  | skip => rfl
  | read => rfl
  | write hd => exact Function.update_of_ne (hp _ hd).symm _ _
  | fail left hd => exact Function.update_of_ne (hp _ hd).symm _ _

theorem Task.Sound.of_apart {job : Job} {files files' : FileMap} {p p' : Progress} {t : Task}
    (ht : t.Sound x files) (h : JobStep x job files p files' p') (ha : job.Apart t.job) :
    t.Sound x files' := by
  obtain ⟨other, q⟩ := t
  cases q with
  | waiting => trivial
  | finished => exact ht
  | written e =>
    obtain ⟨he, bytes, hx, hf⟩ := ht
    refine ⟨he, bytes, hx, ?_⟩
    rw [jobStep_frame h fun d hd => ha d hd e he]
    exact hf

structure Sound (x : External) (jobs : List Job) (s : State) : Prop where
  jobs : s.tasks.map (·.job) = jobs
  tasks : ∀ t ∈ s.tasks, t.Sound x s.files

theorem sound_start (files : FileMap) (jobs : List Job) : Sound x jobs (start files jobs) where
  jobs := by simp [start, Function.comp_def]
  tasks := by
    intro t ht
    obtain ⟨job, -, rfl⟩ := List.mem_map.1 ht
    trivial

variable {jobs : List Job} (ha : jobs.Pairwise Job.Apart)

include ha

theorem sound_of_step {s t : State} (hs : Sound x jobs s) (h : Step x s t) : Sound x jobs t := by
  obtain @⟨job, files, files', p, p', before, after, h⟩ := h
  have hjobs := hs.jobs
  simp only [List.map_append, List.map_cons] at hjobs
  -- the job that takes the step stands apart from those before and those after it
  have hmid : ∀ u ∈ before ++ after, job.Apart u.job := by
    rw [← hjobs, List.pairwise_middle Job.Apart.symm, List.pairwise_cons, ← List.map_append] at ha
    intro u hu
    exact ha.1 _ (List.mem_map_of_mem hu)
  refine ⟨by simpa using hjobs, fun u hu => ?_⟩
  have hother : ∀ v ∈ before ++ after, v.Sound x files' := by
    intro v hv
    have hv' : v ∈ before ++ ⟨job, p⟩ :: after := by
      rw [List.mem_append, List.mem_cons]
      exact (List.mem_append.1 hv).imp_right .inr
    exact (hs.tasks v hv').of_apart h (hmid v hv)
  rw [List.mem_append, List.mem_cons] at hu
  obtain hu | rfl | hu := hu
  · exact hother u (List.mem_append_left _ hu)
  · exact sound_of_jobStep h (hs.tasks ⟨job, p⟩ (by simp))
  · exact hother u (List.mem_append_right _ hu)

theorem sound_of_reaches {files : FileMap} {s : State} (h : Reaches x (start files jobs) s) :
    Sound x jobs s := by
  induction h with
  | refl => exact sound_start files jobs
  | tail _ hstep ih => exact sound_of_step ha ih hstep

end Soundness

section Results

variable {jobs : List Job} {s : State} (hs : Sound x jobs s)

include hs

theorem Sound.variants {vs : List Variant} (h : Yields s (.ok vs)) :
    List.Forall₂ (fun job v => x.variant job = .ok v) jobs vs := by
  obtain ⟨h⟩ := h
  have hall : List.Forall₂ (fun (t : Task) v => t.progress = .finished (.ok v)) s.tasks vs := by
    rwa [← List.forall₂_eq_eq_eq, List.forall₂_map_left_iff, List.forall₂_map_right_iff] at h
  rw [← hs.jobs, List.forall₂_map_left_iff]
  refine ((List.forall₂_and_left _ _).2 ⟨hs.tasks, hall⟩).imp ?_
  rintro ⟨job, _⟩ v ⟨hsound, rfl⟩
  exact hsound.symm

theorem Sound.fault {e : Error} (h : Yields s (.error e)) :
    ∃ job ∈ jobs, x.variant job = .error e := by
  obtain - | ⟨h⟩ := h
  exact ⟨_, hs.jobs ▸ List.mem_map_of_mem h, (hs.tasks _ h).symm⟩

/-- A pool gives the variants of its jobs, or it fails where one of the jobs does. -/
theorem Sound.ok_iff {r : Except Error (List Variant)} (h : Yields s r) (vs : List Variant) :
    r = .ok vs ↔ jobs.mapM x.variant = .ok vs := by
  cases r with
  | ok us =>
    have hus : jobs.mapM x.variant = .ok us := mapM_ok_iff.2 (hs.variants h)
    rw [hus]
  | error e =>
    obtain ⟨job, hjob, he⟩ := hs.fault h
    refine ⟨nofun, fun hvs => ?_⟩
    obtain ⟨v, hv⟩ := exists_mapM_ok_iff.1 ⟨vs, hvs⟩ job hjob
    rw [he] at hv
    cases hv

end Results

end Pool

section Serial

variable {x : External} {compiler : Compiler} {fit : Workspace → Prop}

theorem compileJob_run {job : Job} {jobs : List Job} (h : Answers x compiler jobs fit)
    (hj : job ∈ jobs) {w : Workspace} (hw : fit w) :
    ((compileJob compiler job).run.run w).1 = (x.variant job).mapError .error ∧
      fit ((compileJob compiler job).run.run w).2 := by
  cases hd : job.descriptor with
  | none =>
    rw [External.variant_of_none hd, compileJob, hd]
    exact ⟨rfl, hw⟩
  | some d =>
    have hres := h.result job hj d hd w hw
    have hkeep := h.keeps job hj d hd w hw
    rw [External.variant_of_some hd, compileJob, hd, Option.mapM_some]
    simp only [map_eq_pure_bind, bind_assoc, pure_bind, run_bind]
    generalize (compiler d).run.run w = out at hres hkeep ⊢
    obtain ⟨result, w'⟩ := out
    obtain rfl : result = _ := hres
    cases x.bytecode d with
    | ok code => exact ⟨rfl, hkeep⟩
    | error e => exact ⟨rfl, hkeep⟩

/-- Jobs one after the other lead to their variants, or to the error of the first that fails. -/
theorem compileJobs_run {jobs : List Job} (h : Answers x compiler jobs fit) {w : Workspace}
    (hw : fit w) :
    ((compileJobs compiler jobs).run.run w).1 = (jobs.mapM x.variant).mapError .error := by
  unfold compileJobs
  induction jobs generalizing w with
  | nil => rfl
  | cons job r ih =>
    obtain ⟨hres, hkeep⟩ := compileJob_run h List.mem_cons_self hw
    have hr : Answers x compiler r fit :=
      ⟨fun j hj => h.result j (List.mem_cons_of_mem _ hj),
        fun j hj => h.keeps j (List.mem_cons_of_mem _ hj)⟩
    rw [List.mapM_cons, List.mapM_cons, run_bind]
    generalize (compileJob compiler job).run.run w = out at hres hkeep ⊢
    obtain ⟨result, w'⟩ := out
    obtain rfl : result = _ := hres
    cases x.variant job with
    | error e => rfl
    | ok v =>
      have hrest := ih hr hkeep
      simp only [Except.mapError, run_bind]
      generalize (r.mapM (compileJob compiler)).run.run w' = outs at hrest ⊢
      obtain ⟨results, w''⟩ := outs
      obtain rfl : results = _ := hrest
      cases r.mapM x.variant with
      | error e => rfl
      | ok vs => rfl

end Serial

section Agreement

variable {x : External} {jobs : List Job} {compiler : Compiler} {fit : Workspace → Prop}

theorem apart_of_outputs (h : ((jobs.filterMap (·.descriptor)).map (·.output)).Nodup) :
    jobs.Pairwise Job.Apart := by
  rw [List.Nodup, List.pairwise_map, List.pairwise_filterMap] at h
  exact h

/-- Jobs with outputs of their own, whatever files there are and in whatever order the steps come:
a result is always within reach, and it is good exactly if every compiler writes something. Then it
is what the jobs lead to one after the other, and it lacks bytecode exactly where nothing was to be
compiled. -/
theorem any_order_of_steps_agrees
    (hout : ((jobs.filterMap (·.descriptor)).map (·.output)).Nodup)
    (hc : Answers x compiler jobs fit) {w : Workspace} (hw : fit w) {files : FileMap}
    {s : Pool.State} (hs : Pool.Reaches x (Pool.start files jobs) s) :
    (∃ t r, Pool.Reaches x s t ∧ Pool.Yields t r) ∧
    ∀ r, Pool.Yields s r →
      ((∃ vs, r = .ok vs) ↔
        ∀ j ∈ jobs, ∀ d ∈ j.descriptor, ∃ bytes, x d = .ok bytes ∧ bytes ≠ []) ∧
      (∀ vs, r = .ok vs ↔ ((compileJobs compiler jobs).run.run w).1 = .ok vs) ∧
      ∀ vs, r = .ok vs → List.Forall₂ (fun j v =>
        v = j.variant v.bytecode ∧ (v.bytecode = none ↔ j.descriptor = none)) jobs vs := by
  have hsound := Pool.sound_of_reaches (apart_of_outputs hout) hs
  refine ⟨Pool.exists_yields s, fun r hr => ⟨?_, fun vs => ?_, fun vs hvs => ?_⟩⟩
  · simp only [hsound.ok_iff hr, exists_mapM_ok_iff, External.exists_variant_iff]
  · rw [hsound.ok_iff hr, compileJobs_run hc hw]
    cases jobs.mapM x.variant <;> simp [Except.mapError]
  · exact (mapM_ok_iff.1 ((hsound.ok_iff hr vs).1 hvs)).imp fun _ _ => External.variant_bytecode

def stub : External := fun d =>
  .ok (if d.api = .vulkan then bytesOfWord spirvMagic else [68, 88, 66, 67])

def blitOn (api : Api) : Job where
  shader := ⟨"Blit", "main", .pixel, [], "a.hlsl"⟩
  api
  binaryName := (Shader.mk "Blit" "main" .pixel [] "a.hlsl").binaryName api
  descriptor := some {
    input := "a.hlsl", output := api.name, scratch := "/tmp", entryPoint := "main", stage := .pixel
    platform := .linux, api, defines := [], reflection := false }

def signature : Job := ⟨⟨"Root", "main", .rootSignature, [], "a.hlsl"⟩, .vulkan, "Root", none⟩

def blitJobs : List Job := [blitOn .vulkan, signature, blitOn .d3d12]

def blitVariants : List Variant :=
  [(blitOn .vulkan).variant (some ⟨bytesOfWord spirvMagic, "main", .pixel⟩), signature.variant none,
    (blitOn .d3d12).variant (some ⟨[68, 88, 66, 67], "main", .pixel⟩)]

def benchConfig : Config := { dxc := "dxc.sh" }

/-- A directory with the compiler, the shader and something in place of both outputs. -/
structure Bench (w : Workspace) : Prop where
  clock : w.clock = 0
  home : w.files.home = ["h"]
  compiler : ∃ bytes, w.files.lookup "dxc.sh" = .ok (.file bytes true)
  shader : ∃ bytes x, w.files.lookup "a.hlsl" = .ok (.file bytes x)
  outputs : ∀ api : Api, ∃ bytes, w.files.read api.name = .ok bytes

open FileTree in
theorem Bench.touches {w : Workspace} (h : Bench w) {t : FileTree} {api : Api} {bytes : List UInt8}
    (ht : w.files.Touches (· = place w.files.home api.name) t)
    (hread : t.read api.name = .ok bytes) : Bench { w with files := t } := by
  have hplace : ∀ n ∈ ["dxc.sh", "a.hlsl"], place w.files.home n ≠ place w.files.home api.name := by
    rw [h.home]
    cases api <;> decide
  obtain ⟨script, hscript⟩ := h.compiler
  obtain ⟨source, x, hsource⟩ := h.shader
  refine ⟨h.clock, ht.home.trans h.home, ⟨script, ht.lookup_file (hplace _ (by simp)) hscript⟩,
    ⟨source, x, ht.lookup_file (hplace _ (by simp)) hsource⟩, fun other => ?_⟩
  by_cases hother : other = api
  · exact ⟨bytes, hother ▸ hread⟩
  · obtain ⟨old, hold⟩ := h.outputs other
    have hne : place w.files.home other.name ≠ place w.files.home api.name := by
      rw [h.home]
      cases api <;> cases other <;> first | exact absurd rfl hother | decide
    exact ⟨old, ht.read hne hold⟩

/-- On a bench the compiler is found, and it writes what the compilation then reads back. -/
theorem bench_performs (api : Api) : ∀ d ∈ (blitOn api).descriptor,
    Performs Launch.press benchConfig stub Bench d := by
  rintro _ ⟨⟩
  refine ⟨fun w hw => ?_, fun w hw => ⟨w.files, by cases api <;> rfl, hw⟩, ?_⟩
  · obtain ⟨bytes, x, h⟩ := hw.shader
    exact FileTree.isFile_iff.2 ⟨bytes, x, h⟩
  · obtain ⟨target, arguments, hb, harguments, hout, hprinted⟩ : ∃ target arguments,
        Backend.forApi benchConfig api = .dxc target ∧ (∀ d ∈ (blitOn api).descriptor,
          commandLine benchConfig d target = .ok arguments) ∧ arguments[5]? = some api.name ∧
        ∀ d ∈ (blitOn api).descriptor, stub d = .ok (Launch.printed arguments) := by
      cases api with
      | vulkan => exact ⟨.spirv, _, rfl, by rintro _ ⟨⟩; rfl, rfl, by rintro _ ⟨⟩; rfl⟩
      | d3d12 => exact ⟨.dxil, _, rfl, by rintro _ ⟨⟩; rfl, rfl, by rintro _ ⟨⟩; rfl⟩
    refine ⟨target, arguments, hb, harguments _ rfl, fun w hw => ?_⟩
    obtain ⟨script, hscript⟩ := hw.compiler
    obtain ⟨old, hold⟩ := hw.outputs api
    have htime : (Launch.deadline? w.clock benchConfig.timeout).isSome := by
      rw [hw.clock]
      rfl
    obtain ⟨t, hrun, htouch, hread⟩ := Launch.press_run hscript hout hold htime
    refine ⟨_, _, hrun, hw.touches htouch hread, ?_⟩
    rw [Leaves, hprinted _ rfl]
    exact ⟨rfl, hread⟩

def benchWorkspace : Workspace where
  files :=
    { home := ["h"]
      entries := [(["h"], .directory), (["h", "dxc.sh"], .file [] true),
        (["h", "a.hlsl"], .file [] false), (["h", "Vulkan"], .file [] false),
        (["h", "D3D12"], .file [] false)] }

/-- Every file is there and empty, and the job that writes first is the last to read. One after the
other, the jobs are compiled on a bench. -/
theorem blits_written_before_read :
    ((blitJobs.filterMap (·.descriptor)).map (·.output)).Nodup ∧
    Answers stub (compile Launch.press benchConfig) blitJobs Bench ∧ Bench benchWorkspace ∧
    ∃ s, Pool.Reaches stub (Pool.start (fun _ => some []) blitJobs) s ∧
      Pool.Yields s (.ok blitVariants) ∧
      (∀ j ∈ blitJobs, ∀ d ∈ j.descriptor, ∃ bytes, stub d = .ok bytes ∧ bytes ≠ []) ∧
      ((compileJobs (compile Launch.press benchConfig) blitJobs).run.run benchWorkspace).1 =
        .ok blitVariants ∧
      List.Forall₂ (fun j v =>
        v = j.variant v.bytecode ∧ (v.bytecode = none ↔ j.descriptor = none))
        blitJobs blitVariants := by
  have hout : ((blitJobs.filterMap (·.descriptor)).map (·.output)).Nodup := by decide
  have hc : Answers stub (compile Launch.press benchConfig) blitJobs Bench := by
    refine answers_of_performs (fun w j hw => ⟨hw.1, hw.2, hw.3, hw.4, hw.5⟩) fun j hj d hd => ?_
    rcases List.mem_cons.1 hj with rfl | hj
    · exact bench_performs .vulkan d hd
    · rcases List.mem_pair.1 hj with rfl | rfl
      · cases hd
      · exact bench_performs .d3d12 d hd
  have hw : Bench benchWorkspace :=
    ⟨rfl, rfl, ⟨[], by decide +kernel⟩, ⟨[], false, by decide +kernel⟩,
      fun api => ⟨[], by cases api <;> decide +kernel⟩⟩
  have hs : ∃ s, Pool.Reaches stub (Pool.start (fun _ => some []) blitJobs) s ∧
      Pool.Yields s (.ok blitVariants) := by
    -- both compilers write before either job reads, and the placeholder comes in between
    refine ⟨_, .tail (.tail (.tail (.tail (.tail .refl
      (.mk [] _ (.write rfl rfl))) (.mk [_, _] [] (.write rfl rfl))) (.mk [_, _] [] .read))
      (.mk [_] _ (.skip rfl))) (.mk [] _ .read), .all rfl⟩
  obtain ⟨s, hs, hr⟩ := hs
  obtain ⟨hok, hserial, hvariants⟩ := (any_order_of_steps_agrees hout hc hw hs).2 _ hr
  exact ⟨hout, hc, hw, s, hs, hr, hok.1 ⟨_, rfl⟩, (hserial _).1 rfl, hvariants _ rfl⟩

end Agreement

end ShaderBuild.Builtin
