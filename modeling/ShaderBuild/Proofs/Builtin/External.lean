import ShaderBuild.Builtin.Batch
import ShaderBuild.Proofs.Compile.Compilation

namespace ShaderBuild.Builtin

/-- What the external compiler writes for a descriptor, or why it fails. -/
abbrev External := Descriptor → Except Error (List UInt8)

namespace External

variable (x : External)

def bytecode (d : Descriptor) : Except Error Bytecode := do
  Bytecode.ofBytes (← x d) d.entryPoint d.stage

def variant (job : Job) : Except Error Variant := do
  return job.variant (← job.descriptor.mapM x.bytecode)

variable {x} {job : Job} {d : Descriptor}

theorem variant_of_none (h : job.descriptor = none) : x.variant job = .ok (job.variant none) := by
  rw [variant, h]
  rfl

theorem variant_of_some (h : job.descriptor = some d) :
    x.variant job = (fun code => job.variant (some code)) <$> x.bytecode d := by
  rw [variant, h, Option.mapM_some]
  cases x.bytecode d <;> rfl

theorem bytecode_ok_iff {code : Bytecode} : x.bytecode d = .ok code ↔
    ∃ bytes, x d = .ok bytes ∧ bytes ≠ [] ∧ code = ⟨bytes, d.entryPoint, d.stage⟩ := by
  simp only [bytecode, bind_ok_iff, Bytecode.ofBytes]
  refine exists_congr fun bytes => and_congr_right fun _ => ?_
  cases bytes <;> simp [refuse, eq_comm]

theorem exists_variant_iff : (∃ v, x.variant job = .ok v) ↔
    ∀ d ∈ job.descriptor, ∃ bytes, x d = .ok bytes ∧ bytes ≠ [] := by
  cases h : job.descriptor with
  | none => simp [variant_of_none h]
  | some d =>
    simp only [variant_of_some h, map_ok_iff, bytecode_ok_iff, Option.mem_some_iff, forall_eq']
    constructor
    · rintro ⟨_, _, ⟨bytes, hx, hne, -⟩, -⟩
      exact ⟨bytes, hx, hne⟩
    · rintro ⟨bytes, hx, hne⟩
      exact ⟨_, _, ⟨bytes, hx, hne, rfl⟩, rfl⟩

theorem variant_bytecode {v : Variant} (h : x.variant job = .ok v) :
    v = job.variant v.bytecode ∧ (v.bytecode = none ↔ job.descriptor = none) := by
  cases hd : job.descriptor with
  | none =>
    obtain rfl := Except.ok.inj ((variant_of_none hd).symm.trans h)
    simp [Job.variant]
  | some d =>
    rw [variant_of_some hd, map_ok_iff] at h
    obtain ⟨code, -, rfl⟩ := h
    simp [Job.variant]

end External

section Answers

/-- A compiler that answers as the external one does, for jobs, in workspaces of some kind, which
it keeps of that kind. -/
structure Answers (x : External) (compiler : Compiler) (jobs : List Job) (fit : Workspace → Prop) :
    Prop where
  result : ∀ j ∈ jobs, ∀ d ∈ j.descriptor, ∀ w, fit w →
    ((compiler d).run.run w).1 = (x.bytecode d).mapError .error
  keeps : ∀ j ∈ jobs, ∀ d ∈ j.descriptor, ∀ w, fit w → fit ((compiler d).run.run w).2

/-- What the external compiler leaves behind for a descriptor: its bytes in the output, or else what
it complains about. -/
def Leaves (x : External) (d : Descriptor) (r : Finished) (t : FileTree) : Prop :=
  match x d with
  | .ok bytes => r.status.isSuccess ∧ t.read d.output = .ok bytes
  | .error e => r.status.isSuccess = false ∧
    e = CompilationError.rejected d.input d.entryPoint r.complaint

/-- A system that does for a descriptor what the external compiler does, in workspaces of some
kind. -/
structure Performs (system : System) (config : Config) (x : External) (fit : Workspace → Prop)
    (d : Descriptor) : Prop where
  input : ∀ w, fit w → w.files.isFile d.input
  parent : ∀ w, fit w → ∃ t, withParent w.files d.output = .ok t ∧ fit { w with files := t }
  runs : ∃ target arguments, Backend.forApi config d.api = .dxc target ∧
    commandLine config d target = .ok arguments ∧ ∀ w, fit w → ∃ r u,
      (Launch.run system config.dxc arguments config.timeout).run.run w = (.ok r, u) ∧ fit u ∧
        Leaves x d r u.files

variable {system : System} {config : Config} {x : External} {jobs : List Job}
  {fit : Workspace → Prop} {d : Descriptor} {w : Workspace} {r : Finished}

theorem output_run {bytes : List UInt8} (hx : x d = .ok bytes)
    (hread : w.files.read d.output = .ok bytes) : ∃ journal, (do
      let bytes ← Build.consult (·.read d.output)
        fun f => CompilationError.unreadableOutput d.output f
      Logged.attempt (Bytecode.ofBytes bytes d.entryPoint d.stage) : Build Bytecode).run.run w =
        ((x.bytecode d).mapError .error, { w with journal }) := by
  have hbytes : x.bytecode d = Bytecode.ofBytes bytes d.entryPoint d.stage := by
    rw [External.bytecode, hx]
    rfl
  rw [run_bind_of_ok (consult_run hread), hbytes]
  cases Bytecode.ofBytes bytes d.entryPoint d.stage <;> exact ⟨_, rfl⟩

/-- What the external compiler leaves behind is read back as it was written. -/
theorem receive_run (h : Leaves x d r w.files) : ∃ journal,
    (receive d r).run.run w = ((x.bytecode d).mapError .error, { w with journal }) := by
  unfold Leaves at h
  cases hx : x d with
  | error e =>
    rw [hx] at h
    obtain ⟨hstatus, rfl⟩ := h
    rw [External.bytecode, hx, receive, if_pos (by simp [hstatus])]
    exact ⟨_, rfl⟩
  | ok bytes =>
    rw [hx] at h
    obtain ⟨hstatus, hread⟩ := h
    rw [receive, if_neg (by simp [hstatus])]
    dsimp only
    by_cases hquiet : (r.diagnostics != "") = true
    · rw [if_pos hquiet, run_bind_of_ok (run_note _ _ _ _)]
      exact output_run hx hread
    · rw [if_neg hquiet]
      exact output_run hx hread

/-- With such a system the compilation itself answers as the external compiler does: it has the
output written, and gives what it reads back from it. -/
theorem answers_of_performs (hj : ∀ w journal, fit w → fit { w with journal })
    (h : ∀ j ∈ jobs, ∀ d ∈ j.descriptor, Performs system config x fit d) :
    Answers x (compile system config) jobs fit := by
  have hcompile : ∀ j ∈ jobs, ∀ d ∈ j.descriptor, ∀ w, fit w → ∃ u,
      (compile system config d).run.run w = ((x.bytecode d).mapError .error, u) ∧ fit u := by
    intro j hjob d hd w hw
    obtain ⟨hinput, hparent, target, arguments, hb, harguments, hruns⟩ := h j hjob d hd
    obtain ⟨before, hrun⟩ := compile_run hb system w
    have hbefore := hj w before hw
    obtain ⟨t, ht, hfit⟩ := hparent _ hbefore
    obtain ⟨journal, hdxc⟩ := compileWithDxc_run (hinput _ hbefore) harguments ht
    obtain ⟨r, u, hlaunch, hu, hleaves⟩ := hruns _ (hj _ journal hfit)
    obtain ⟨after, hreceive⟩ := receive_run hleaves
    rw [run_bind_of_ok hlaunch, hreceive] at hdxc
    obtain ⟨_, hcompile⟩ := hrun _ _ hdxc
    exact ⟨_, hcompile, hj _ _ (hj _ _ hu)⟩
  refine ⟨fun j hjob d hd w hw => ?_, fun j hjob d hd w hw => ?_⟩
  · obtain ⟨u, hu, -⟩ := hcompile j hjob d hd w hw
    rw [hu]
  · obtain ⟨u, hu, hfit⟩ := hcompile j hjob d hd w hw
    rwa [hu]

end Answers

end ShaderBuild.Builtin
