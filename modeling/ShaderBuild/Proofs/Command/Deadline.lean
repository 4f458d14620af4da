import ShaderBuild.Command.Run
import ShaderBuild.Proofs.Builtin.Preparing
import ShaderBuild.Proofs.Command.Grammar
import ShaderBuild.Proofs.Compile.Compilation

namespace ShaderBuild

section Late

/-- A breakdown that comes where the clock cannot show the end of a limit, and says so. -/
def Late (timeout : Nat) (e : Failure) (w : Workspace) : Prop :=
  ∀ message, e = .breakdown message →
    message = Launch.beyondClock ∧ Launch.deadline? w.clock timeout = none

variable {α : Type} {timeout : Nat}

theorem Calm.late {x : Build α} (h : Calm x) : Fails (Late timeout) x :=
  h.mono fun _ _ he message hb => absurd hb (he message)

theorem onError_late {x : Build α} {report : Error → Build Unit} (hx : Fails (Late timeout) x)
    (hr : ∀ e, Calm (report e)) : Fails (Late timeout) (Build.onError x report) := by
  intro w e w' h message he
  subst he
  exact hx w _ w' (breakdown_of_onError h hr) message rfl

theorem compile_late (system : System) (config : Config) (d : Descriptor) :
    Fails (Late config.timeout) (compile system config d) := by
  intro w e w' h message he
  subst he
  obtain ⟨hmessage, -, hlate⟩ := of_compile_breakdown h
  exact ⟨hmessage, hlate⟩

end Late

namespace Builtin

variable {compiler : Compiler} {timeout : Nat}

theorem during_late {α : Type} {x : Build α} (state : BatchState) (hx : Fails (Late timeout) x) :
    Fails (fun e => Late timeout e.2) (Batch.during state x) := by
  intro w e w' h
  rw [during_run] at h
  cases hr : x.run.run w with
  | mk result u =>
    rw [hr] at h
    cases result with
    | ok a => cases h
    | error f =>
      cases h
      exact hx w f u hr

theorem compileJobs_late (hc : ∀ d, Fails (Late timeout) (compiler d)) (jobs : List Job) :
    Fails (Late timeout) (compileJobs compiler jobs) := by
  apply Fails.mapM
  intro job
  unfold compileJob
  cases job.descriptor with
  | none => exact .pure _
  | some d => exact ((hc d).map _).bind fun _ => .pure _

theorem build_late (hc : ∀ d, Fails (Late timeout) (compiler d)) (o : Options) :
    Fails (Late timeout) (build compiler o) := by
  have hsteps : Fails (fun e => Late timeout e.2) (steps compiler o) := by
    unfold steps
    apply Fails.bind (during_late _ (plan_calm o).late)
    intro jobs
    apply Fails.bind (during_late _ (compileJobs_late hc jobs))
    intro vs
    split
    · exact during_late _ (generate_calm o vs).late
    · exact .pure _
  intro w e w' h message he
  subst he
  have hrun : (build compiler o).run.run w = ((run compiler o w).1.2, (run compiler o w).2) := rfl
  rw [hrun, run] at h
  cases hr : (steps compiler o).run.run w with
  | mk result u =>
    rw [hr] at h
    cases result with
    | ok r => cases h
    | error f =>
      obtain ⟨state, f⟩ := f
      cases f with
      | error e => cases h
      | breakdown =>
        cases h
        exact hsteps w _ u hr message rfl

end Builtin

namespace Command

variable {system : System} {a : Arguments} {dxcPath : Option String}

theorem compileOne_late (system : System) (a : Arguments) (dxcPath : Option String) :
    Fails (Late (a.config dxcPath).timeout) (compileOne system a dxcPath) := by
  unfold compileOne
  apply Fails.bind (logged_calm _).late
  intro d
  apply Fails.ite_bind (logged_calm _).late
  apply Fails.bind (compile_late _ _ d)
  intro code
  apply Fails.bind (logged_calm _).late
  intro _
  split
  · split
    · apply Fails.bind (logged_calm _).late
      intro r
      apply Fails.bind (writeSidecar_calm _ _).late
      intro written
      exact (logged_calm _).late
    · exact (logged_calm _).late
  · exact .pure _

theorem discard_calm (path : String) : Calm (discard path) := .modify _

theorem compileScratch_late (system : System) (config : Config) (d : Descriptor) :
    Fails (Late config.timeout) (compileScratch system config d) := by
  apply Fails.bind (onError_late (compile_late _ _ d) fun _ => discard_calm _)
  intro code
  exact (discard_calm _).late.bind fun _ => .pure _

theorem generateMetadata_late (system : System) (a : Arguments) (dxcPath : Option String) :
    Fails (Late (a.config dxcPath).timeout) (generateMetadata system a dxcPath) := by
  unfold generateMetadata
  apply Fails.bind (logged_calm _).late
  intro wanted
  apply Fails.bind get_calm.late
  intro w
  apply Fails.bind (logged_calm _).late
  intro d
  apply Fails.bind (compileScratch_late _ _ d)
  intro code
  apply Fails.bind (logged_calm _).late
  intro r
  have hgenerate : Calm (do
      let fs ← Metadata.filesOfReflectionLogged r
      let emitted ← Logged.attempt (a.language.emitAll fs)
      let written ← writeEmitted wanted.output emitted
      Logged.note .info .commandLine
        s!"{written.length} metadata file(s) in {wanted.output}" : Build Unit) := by
    apply (logged_calm _).bind
    intro fs
    apply (logged_calm _).bind
    intro emitted
    exact (writeEmitted_calm _ _).bind fun _ => logged_calm _
  split
  · apply Fails.bind (writeSidecar_calm _ _).late
    intro written
    exact (logged_calm _).late.bind fun _ => hgenerate.late
  · exact hgenerate.late

theorem buildAll_late (system : System) (a : Arguments) (dxcPath : Option String) :
    Fails (Late (a.config dxcPath).timeout) (buildAll system a dxcPath) := by
  unfold buildAll
  apply Fails.bind (logged_calm _).late
  intro o
  apply Fails.bind (Builtin.build_late (compile_late _ _) o)
  intro report
  exact (logged_calm _).late

theorem carryOut_late (system : System) (a : Arguments) (dxcPath : Option String) :
    Fails (Late (a.config dxcPath).timeout) (carryOut system a dxcPath) := by
  unfold carryOut
  cases a.mode with
  | help => exact .pure _
  | compile => exact (compileOne_late system a dxcPath).bind fun _ => .pure _
  | metadata => exact (generateMetadata_late system a dxcPath).bind fun _ => .pure _
  | builtin => exact (buildAll_late system a dxcPath).bind fun _ => .pure _

theorem execute_late {words : List String} (h : Arguments.parse words = .ok a) :
    Fails (Late (a.config dxcPath).timeout) (execute system words dxcPath) := by
  have hinner : Fails (Late (a.config dxcPath).timeout) (do
      let a ← Logged.attempt (Arguments.parse words)
      setFloor a.floor
      return Except.ok (← carryOut system a dxcPath) : Build (Except Error String)) := by
    intro w e w' hrun message he
    subst he
    rw [h] at hrun
    obtain ⟨b, hb, hrun⟩ := breakdown_of_attempt hrun
    cases hb
    have hset : Calm (setFloor a.floor) := .modify _
    obtain ⟨_, u, -, hrun⟩ := breakdown_of_bind hset hrun
    have hbreakdown := breakdown_of_bind_calm hrun fun _ => .pure _
    exact carryOut_late system a dxcPath u _ w' hbreakdown message rfl
  unfold execute
  apply Fails.bind
  · refine Fails.recover hinner ?_
    intro e u hu e' w' hrun
    cases e with
    | error e => cases hrun
    | breakdown =>
      cases hrun
      exact hu
  · intro result
    cases result with
    | ok text => exact .pure _
    | error e => exact .pure _

section Limit

def Arguments.limit (a : Arguments) : Nat := a.timeout.getD 120

theorem config_timeout (a : Arguments) (dxcPath : Option String) :
    (a.config dxcPath).timeout = 1000 * a.limit := by
  have hdefault : (Config.ofEnvironment dxcPath).timeout = 1000 * 120 := by
    cases dxcPath with
    | none => rfl
    | some path =>
      unfold Config.ofEnvironment
      by_cases h : path = ""
      · simp [h]
      · simp [h]
  unfold Arguments.limit
  cases h : a.timeout with
  | none => simp [Arguments.config, h, hdefault]
  | some n => simp [Arguments.config, h]

theorem deadline?_config_eq_none_iff (a : Arguments) (dxcPath : Option String) (now : Nat) :
    Launch.deadline? now (a.config dxcPath).timeout = none ↔
      Launch.lastSecond < now / 1000 + a.limit := by
  rw [Launch.deadline?_eq_none_iff, config_timeout, Nat.add_mul_div_left _ _ (by decide)]

theorem IsSeconds.range {text : String} {n : Nat} (h : IsSeconds text n) :
    0 < n ∧ n < UInt64.size := by
  cases h with
  | inl h => exact h.2.2.2
  | inr h =>
    obtain ⟨digits, -, h⟩ := h
    exact h.2.2.2

theorem limit_range {words : List String} (h : Arguments.parse words = .ok a) :
    0 < a.limit ∧ a.limit < UInt64.size := by
  obtain ⟨gs, hgs⟩ := exists_splits h
  rw [Arguments.parse, read_of_splits hgs] at h
  have htimeout : Option.Rel IsSeconds _ a.timeout := (gathers_nil.run h).values .timeout
  unfold Arguments.limit
  cases ht : a.timeout with
  | none => decide
  | some n =>
    rw [ht] at htimeout
    generalize (valuesOf .timeout ([] ++ gs)).getLast? = value at htimeout
    cases htimeout with
    | some hn => exact hn.range

/-- A limit of a command line has a deadline exactly where the clock goes that far. A compilation
breaks down exactly where the compiler is started and there is no deadline then, and nothing else on
a command line breaks down. -/
theorem limit_breaks_down_iff {words : List String} {a : Arguments}
    (h : Arguments.parse words = .ok a) (dxcPath : Option String) (system : System) :
    (0 < a.limit ∧ a.limit < UInt64.size) ∧
    (∀ now, Launch.deadline? now (a.config dxcPath).timeout = none ↔
      Launch.lastSecond < now / 1000 + a.limit) ∧
    (∀ d w message, BreaksDown (compile system (a.config dxcPath) d) w message ↔
      message = Launch.beyondClock ∧ ∃ later, Launches system (a.config dxcPath) d w later ∧
        Launch.lastSecond < later / 1000 + a.limit) ∧
    ∀ w w' message, (execute system words dxcPath).run.run w = (.error (.breakdown message), w') →
      message = Launch.beyondClock ∧ Launch.lastSecond < w'.clock / 1000 + a.limit := by
  have hdeadline := deadline?_config_eq_none_iff a dxcPath
  refine ⟨limit_range h, hdeadline, fun d w message => ⟨?_, ?_⟩, fun w w' message hrun => ?_⟩
  · intro hrun
    obtain ⟨hmessage, hlaunches, hlate⟩ := of_compile_breakdown (Prod.ext hrun rfl)
    exact ⟨hmessage, _, hlaunches, (hdeadline _).1 hlate⟩
  · rintro ⟨rfl, later, hlaunches, hlate⟩
    obtain ⟨w', hrun⟩ := compile_of_late hlaunches ((hdeadline later).2 hlate)
    exact congrArg Prod.fst hrun
  · obtain ⟨hmessage, hlate⟩ := execute_late h w _ w' hrun message rfl
    exact ⟨hmessage, (hdeadline w'.clock).1 hlate⟩

def patientWords (seconds : String) : List String :=
  ["-dxc", "./dxc.sh", "-input", "s.hlsl", "-output", "out/s.dxil", "-entrypoint", "main",
    "-stage", "pixel", "-graphicsapi", "d3d12", "-timeout", seconds]

def patientArguments (seconds : Nat) : Arguments where
  dxc := some "./dxc.sh"
  input := some "s.hlsl"
  output := some "out/s.dxil"
  entryPoint := some "main"
  stage := some .pixel
  apis := [.d3d12]
  timeout := some seconds

def surface : Descriptor where
  input := "s.hlsl"
  output := "out/s.dxil"
  scratch := "/tmp"
  entryPoint := "main"
  stage := .pixel
  platform := .linux
  api := .d3d12
  defines := []
  reflection := false

def script : List UInt8 := Text.Utf8.encode "#!/bin/sh\nprintf DXBC > \"$6\"\n"

def workshop : FileTree where
  home := ["h"]
  entries := [(["h"], .directory), (["h", "dxc.sh"], .file script true),
    (["h", "s.hlsl"], .file [] false)]

theorem surface_launches (seconds clock later : Nat) :
    Launches Launch.press ((patientArguments seconds).config none) surface
      { files := workshop, clock } later ↔ later = clock := by
  have harguments : (commandLine ((patientArguments seconds).config none) surface .dxil) =
      .ok ["-E", "main", "-T", "ps_6_0", "-Fo", "out/s.dxil", "s.hlsl"] := rfl
  have hparent : (withParent workshop surface.output).toOption.any fun t =>
      t.lookup "./dxc.sh" = .ok (.file script true) := by
    decide +kernel
  have hinput : workshop.isFile surface.input := by decide +kernel
  obtain ⟨t, ht, hfound⟩ := exists_of_toOption_any hparent
  have hstart (words : List String) :
      (Launch.press.start "./dxc.sh" words clock).run t = ((0, .ok words), t) :=
    Launch.press_starts (of_decide_eq_true hfound) clock
  constructor
  · rintro ⟨target, hb, -, arguments, u, harguments', hu, time, p, v, hrun, rfl⟩
    cases hb
    cases harguments.symm.trans harguments'
    cases ht.symm.trans hu
    cases (hstart _).symm.trans hrun
    rfl
  · rintro rfl
    exact ⟨.dxil, rfl, hinput, _, t, harguments, ht, 0, _, t, hstart _, rfl⟩

/-- The last limit that fits lasts for the first second only. -/
theorem last_limit_fits_at_first : Arguments.parse (patientWords "9223372036854775807") =
      .ok (patientArguments 9223372036854775807) ∧
    ∀ clock, BreaksDown (compile Launch.press
      ((patientArguments 9223372036854775807).config none) surface) { files := workshop, clock }
      "overflow when adding duration to instant" ↔ 1000 ≤ clock := by
  have hparse : Arguments.parse (patientWords "9223372036854775807") =
      .ok (patientArguments 9223372036854775807) := ok_of_toOption (by decide +kernel)
  obtain ⟨-, -, hcompile, -⟩ := limit_breaks_down_iff hparse none Launch.press
  refine ⟨hparse, fun clock => ?_⟩
  rw [hcompile]
  simp only [surface_launches, exists_eq_left]
  have hlate : Launch.lastSecond < clock / 1000 + (patientArguments 9223372036854775807).limit ↔
      1000 ≤ clock := by
    show 9223372036854775807 < clock / 1000 + 9223372036854775807 ↔ 1000 ≤ clock
    omega
  exact (and_iff_right rfl).trans hlate

/-- The longest limit that is accepted brings down the compilation and the command line. -/
theorem longest_limit_breaks_down : Arguments.parse (patientWords "18446744073709551615") =
      .ok (patientArguments 18446744073709551615) ∧
    Launch.deadline? 0 ((patientArguments 18446744073709551615).config none).timeout = none ∧
    BreaksDown (compile Launch.press ((patientArguments 18446744073709551615).config none) surface)
      { files := workshop } "overflow when adding duration to instant" ∧
    BreaksDown (execute Launch.press (patientWords "18446744073709551615") none)
      { files := workshop } "overflow when adding duration to instant" :=
  ⟨ok_of_toOption (by decide +kernel), by decide, by decide +kernel, by decide +kernel⟩

end Limit

end Command

end ShaderBuild
