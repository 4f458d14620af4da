import ShaderBuild.Compile.Compilation
import ShaderBuild.Proofs.Compile.Launch

namespace ShaderBuild

section Parent

variable {w : Workspace}

def withParent (t : FileTree) (path : String) : Except FileFault FileTree :=
  match parentOf path with
  | none => .ok t
  | some parent =>
    match t.createDirectories parent with
    | (u, none) => .ok u
    | (_, some f) => .error f

theorem createParent_run_of_ok {path : String} {error : String → FileFault → Error} {t : FileTree}
    (h : withParent w.files path = .ok t) :
    (createParent path error).run.run w = (.ok (), { w with files := t }) := by
  unfold withParent at h
  cases hp : parentOf path with
  | none =>
    rw [hp] at h
    cases h
    rw [createParent_none hp]
    rfl
  | some parent =>
    rw [createParent_run hp]
    cases hc : w.files.createDirectories parent with
    | mk u fault =>
      simp only [hp, hc] at h
      cases fault with
      | none =>
        cases h
        rfl
      | some f => cases h

theorem of_createParent_run {path : String} {error : String → FileFault → Error} {u : Workspace}
    (h : (createParent path error).run.run w = (.ok (), u)) :
    ∃ t, withParent w.files path = .ok t ∧ u = { w with files := t } := by
  unfold withParent
  cases hp : parentOf path with
  | none =>
    rw [createParent_none hp] at h
    cases h
    exact ⟨w.files, rfl, rfl⟩
  | some parent =>
    rw [createParent_run hp] at h
    cases hc : w.files.createDirectories parent with
    | mk t fault =>
      rw [hc] at h
      cases fault with
      | none =>
        cases h
        exact ⟨t, by simp only [hc], rfl⟩
      | some f => cases h

end Parent

section Dxc

/-- What is made of what the external compiler leaves behind. -/
def receive (d : Descriptor) (r : Finished) : Build Bytecode := do
  if !r.status.isSuccess then
    Logged.attempt (refuse (CompilationError.rejected d.input d.entryPoint r.complaint))
  if r.diagnostics != "" then
    Logged.note .warn .dxc s!"{d.input} ({d.entryPoint}): {r.diagnostics}"
  let bytes ← Build.consult (·.read d.output)
    fun f => CompilationError.unreadableOutput d.output f
  Logged.attempt (Bytecode.ofBytes bytes d.entryPoint d.stage)

theorem receive_calm (d : Descriptor) (r : Finished) : Calm (receive d r) := by
  unfold receive
  apply Fails.ite_bind (logged_calm _)
  apply Fails.ite_bind (logged_calm _)
  exact (consult_calm _ _).bind fun _ => logged_calm _

variable {system : System} {config : Config} {target : DxcTarget} {d : Descriptor}
  {w w' : Workspace}

theorem compileWithDxc_eq (system : System) (config : Config) (target : DxcTarget)
    (d : Descriptor) : compileWithDxc system config target d = (do
      if !(← Build.files).isFile d.input then
        Logged.attempt (refuse (CompilationError.noInput d.input))
      let arguments ← Logged.attempt (commandLine config d target)
      createParent d.output fun path f => CompilationError.noOutputDirectory path f
      Logged.note .debug .dxc (" ".intercalate (config.dxc :: arguments))
      receive d (← Launch.run system config.dxc arguments config.timeout)) := rfl

/-- Once everything else is in place, the external compiler is run. -/
theorem compileWithDxc_run {arguments : List String} {t : FileTree}
    (hinput : w.files.isFile d.input)
    (harguments : commandLine config d target = .ok arguments)
    (hparent : withParent w.files d.output = .ok t) :
    ∃ journal, (compileWithDxc system config target d).run.run w =
      (Launch.run system config.dxc arguments config.timeout >>= receive d).run.run
        { w with files := t, journal } := by
  have hattempt {k : List String → Build Bytecode} :
      (liftM (Logged.attempt (.ok arguments)) >>= k).run.run w = (k arguments).run.run w := rfl
  rw [compileWithDxc_eq, run_bind_of_ok (run_files w), if_neg (by simp [hinput]), harguments,
    hattempt, run_bind_of_ok (createParent_run_of_ok hparent), run_bind_of_ok (run_note _ _ _ _)]
  exact ⟨_, rfl⟩

/-- Everything that comes before the external compiler goes well, and it is started. -/
structure Starts (system : System) (config : Config) (target : DxcTarget) (d : Descriptor)
    (w : Workspace) (later : Nat) : Prop where
  input : w.files.isFile d.input
  started : ∃ arguments t, commandLine config d target = .ok arguments ∧
    withParent w.files d.output = .ok t ∧
    Launch.Starts system config.dxc arguments t w.clock later

theorem of_compileWithDxc_breakdown {message : String}
    (h : (compileWithDxc system config target d).run.run w = (.error (.breakdown message), w')) :
    message = Launch.beyondClock ∧ Starts system config target d w w'.clock ∧
      Launch.deadline? w'.clock config.timeout = none := by
  rw [compileWithDxc_eq] at h
  obtain ⟨t, u, ht, h⟩ := breakdown_of_bind files_calm h
  cases ht
  obtain ⟨hinput, h⟩ := breakdown_of_guard h
  obtain ⟨arguments, harguments, h⟩ := breakdown_of_attempt h
  obtain ⟨_, u, hparent, h⟩ := breakdown_of_bind (createParent_calm _ _) h
  obtain ⟨t, ht, rfl⟩ := of_createParent_run hparent
  obtain ⟨_, u, hnote, h⟩ := breakdown_of_bind (logged_calm _) h
  cases hnote
  obtain ⟨hmessage, hstarts, hlate⟩ :=
    Launch.of_run_breakdown (breakdown_of_bind_calm h (receive_calm d))
  exact ⟨hmessage, ⟨by simpa using hinput, arguments, t, harguments, ht, hstarts⟩, hlate⟩

theorem compileWithDxc_of_late {later : Nat} (h : Starts system config target d w later)
    (hlate : Launch.deadline? later config.timeout = none) :
    ∃ w', (compileWithDxc system config target d).run.run w =
      (.error (.breakdown Launch.beyondClock), w') := by
  obtain ⟨hinput, arguments, t, harguments, ht, hstarts⟩ := h
  obtain ⟨journal, hrun⟩ : ∃ journal, (compileWithDxc system config target d).run.run w =
      (Launch.run system config.dxc arguments config.timeout >>= receive d).run.run
        { w with files := t, journal } := compileWithDxc_run hinput harguments ht
  obtain ⟨w', hw'⟩ := Launch.run_of_late (w := { w with files := t, journal }) hstarts hlate
  exact ⟨w', hrun.trans (run_bind_of_error hw')⟩

end Dxc

section Compile

variable {system : System} {config : Config} {d : Descriptor} {w w' : Workspace}

/-- The external compiler is to be started, and it is. -/
def Launches (system : System) (config : Config) (d : Descriptor) (w : Workspace) (later : Nat) :
    Prop :=
  ∃ target, Backend.forApi config d.api = .dxc target ∧ Starts system config target d w later

/-- A compilation gives what its backend gives; it only adds to the journal. -/
theorem compile_run {backend : Backend} (hb : Backend.forApi config d.api = backend)
    (system : System) (w : Workspace) :
    ∃ journal, ∀ result u, (backend.compile system config d).run.run { w with journal } =
        (result, u) →
      ∃ journal, (compile system config d).run.run w = (result, { u with journal }) := by
  refine ⟨w.journal.record ⟨.debug, Component.compiler.tag,
    s!"Compiling {d.input} '{d.entryPoint}' ({d.stage.name}, {d.api.name}) with {backend.name}",
    none⟩, fun result u h => ?_⟩
  unfold compile
  dsimp only
  rw [hb, run_bind_of_ok (run_getThe w), run_bind_of_ok (run_note _ _ _ _), run_bind, Build.onError,
    run_tryCatch, h]
  cases result with
  | ok code => exact ⟨_, rfl⟩
  | error f => cases f <;> exact ⟨_, rfl⟩

theorem of_compile_breakdown {message : String}
    (h : (compile system config d).run.run w = (.error (.breakdown message), w')) :
    message = Launch.beyondClock ∧ Launches system config d w w'.clock ∧
      Launch.deadline? w'.clock config.timeout = none := by
  cases hb : Backend.forApi config d.api with
  | glslang =>
    obtain ⟨journal, hrun⟩ := compile_run hb system w
    obtain ⟨_, hcompile⟩ := hrun _ _ rfl
    cases h.symm.trans hcompile
  | dxc target =>
    obtain ⟨journal, hrun⟩ := compile_run hb system w
    rcases hdxc : (compileWithDxc system config target d).run.run { w with journal } with
      ⟨result, u⟩
    obtain ⟨_, hcompile⟩ := hrun _ _ hdxc
    cases h.symm.trans hcompile
    obtain ⟨hmessage, ⟨hinput, hstarted⟩, hlate⟩ := of_compileWithDxc_breakdown hdxc
    exact ⟨hmessage, ⟨target, hb, hinput, hstarted⟩, hlate⟩

theorem compile_of_late {later : Nat} (h : Launches system config d w later)
    (hlate : Launch.deadline? later config.timeout = none) :
    ∃ w', (compile system config d).run.run w = (.error (.breakdown Launch.beyondClock), w') := by
  obtain ⟨target, hb, hinput, hstarted⟩ := h
  obtain ⟨journal, hrun⟩ := compile_run hb system w
  obtain ⟨u, hu⟩ := compileWithDxc_of_late (w := { w with journal }) ⟨hinput, hstarted⟩ hlate
  obtain ⟨_, hcompile⟩ := hrun _ _ hu
  exact ⟨_, hcompile⟩

end Compile

end ShaderBuild
