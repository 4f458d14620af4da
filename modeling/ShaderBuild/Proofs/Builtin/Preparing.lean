import ShaderBuild.Builtin.Batch
import ShaderBuild.Proofs.Builtin.Binaries
import ShaderBuild.Proofs.Output
import ShaderBuild.Proofs.Reflection.Listing

namespace ShaderBuild

section Reflecting

open Reflection

theorem ofBytecode_steady (b : Bytecode) : Steady (fun _ => True) (ofBytecode b) := by
  refine (Steady.attempt _).bind fun words => ?_
  unfold ofWords
  split
  · exact .attempt _
  · split
    · exact .attempt _
    · exact ⟨_, ofListings_gives _ _⟩

theorem addLogged_gives (g : Registry) (x : Reflection) :
    Gives (fun _ => True) (g.addLogged x) (g.add x) := .noted _ _ _ _

theorem filesLogged_gives (g : Registry) :
    Gives (fun _ => True) (Metadata.filesLogged g) (Metadata.files g) := .noted _ _ _ _

/-- The journal has no say in the files of a single reflection. -/
theorem filesOfReflectionLogged_gives (x : Reflection) :
    Gives (fun _ => True) (Metadata.filesOfReflectionLogged x) (Metadata.filesOfReflection x) :=
  (addLogged_gives .empty x).both filesLogged_gives

end Reflecting

namespace Builtin

section Rendering

theorem register_steady (g : Registry) (v : Variant) :
    Steady (fun _ => True) (register g v) := by
  unfold register
  split
  · exact .pure g
  · exact (ofBytecode_steady _).bind fun _ =>
      (Steady.note _ _ _).bind fun _ => ⟨_, addLogged_gives g _⟩

theorem batchFiles_steady (vs : List Variant) (apis : List Api) :
    Steady (fun _ => True) (batchFiles vs apis) :=
  (Steady.attempt _).bind fun _ => (Steady.foldlM register_steady vs _).bind fun _ =>
    (Steady.note _ _ _).bind fun _ => Steady.bind ⟨_, filesLogged_gives _⟩ fun _ => .pure _

def render (o : Options) (vs : List Variant) : Build (List Code.EmittedFile) := do
  let fs ← batchFiles vs o.apis
  Logged.attempt (o.language.emitAll fs)

theorem render_steady {s : FileTree → Prop} (o : Options) (vs : List Variant) :
    Steady (Over s) (render o vs) :=
  (batchFiles_steady vs o.apis).lift.bind fun _ => (Steady.attempt _).lift

end Rendering

section Planning

variable {t : FileTree}

def checkSource (path : String) (m : Manifest) : Build Manifest := do
  if !(← Build.files).isFile m.source then
    Logged.attempt (refuse (DiscoveryError.noSource path m.source))
  Logged.note .debug .manifest s!"Found {path} with {m.shaders.length} shader(s)"
  return m

theorem checkSource_gives (path : String) (m : Manifest) :
    Gives (OnFiles t) (checkSource path m) (if t.isFile m.source then .ok m
      else .error (.error (DiscoveryError.noSource path m.source))) := by
  refine Gives.bind .files ?_
  cases t.isFile m.source with
  | true => exact (Gives.note _ _ _).lift.bind (.pure m)
  | false => exact (Gives.attempt (refuse (DiscoveryError.noSource path m.source))).lift.bind_error

theorem loadManifest_steady (path : String) : Steady (OnFiles t) (loadManifest path) :=
  Steady.bind ⟨_, .consult _ _⟩ fun _ => (Steady.attempt _).lift

theorem loadPaired_steady (path : String) : Steady (OnFiles t) (loadPaired path) :=
  (loadManifest_steady path).bind fun m => ⟨_, checkSource_gives path m⟩

theorem visit_steady (root path : String) (entry : FileEntry) :
    Steady (OnFiles t) (visit root path entry) := by
  cases entry with
  | directory => exact Steady.bind ⟨_, .consult _ _⟩ fun _ => .pure none
  | file => exact .ite ((loadPaired_steady path).map some) (.pure none)

theorem discover_steady (root : String) : Steady (OnFiles t) (discover root) :=
  Steady.bind ⟨_, .consult _ _⟩ fun _ =>
    (Steady.filterMapM (fun _ => visit_steady ..) _).bind fun ms =>
      (Steady.attempt _).lift.bind fun _ => .pure ms

/-- The notes of a plan do not matter for its jobs. -/
theorem planJobsLogged_gives (ms : List Manifest) (apis : List Api) (directory : String)
    (platform : Platform) : Gives (fun _ => True) (planJobsLogged ms apis directory platform)
      (planJobs ms apis directory platform) := by
  refine Gives.mapM (fun (s, api) => ?_) _
  dsimp only
  cases h : Job.plan directory platform s api with
  | error e => exact (Gives.attempt _).bind_error
  | ok job =>
    refine (Gives.attempt (.ok job)).bind ?_
    exact Gives.bind (a := ()) (fun _ _ => ⟨rfl, trivial⟩) (.pure job)

theorem plan_gives (o : Options) {ms : List Manifest}
    (h : Gives (OnFiles t) (discover o.input) (.ok ms)) : Gives (OnFiles t) (plan o)
      ((planJobs ms o.apis (bytecodeDirectory o.output) o.platform).mapError .error) := by
  refine h.bind ?_
  have hjobs := (planJobsLogged_gives ms o.apis (bytecodeDirectory o.output) o.platform).lift
    (s := (· = t))
  cases hr : planJobs ms o.apis (bytecodeDirectory o.output) o.platform with
  | error e =>
    rw [hr] at hjobs
    exact hjobs.bind_error
  | ok jobs =>
    rw [hr] at hjobs
    exact hjobs.bind ((Gives.note _ _ _).lift.bind (.pure jobs))

theorem plan_steady (o : Options) : Steady (OnFiles t) (plan o) := by
  obtain ⟨r, hr⟩ := discover_steady (t := t) o.input
  cases r with
  | error e => exact ⟨_, hr.bind_error⟩
  | ok ms => exact ⟨_, plan_gives o hr⟩

theorem plan_ok_iff {o : Options} {jobs : List Job} : Gives (OnFiles t) (plan o) (.ok jobs) ↔
    ∃ ms, Gives (OnFiles t) (discover o.input) (.ok ms) ∧
      planJobs ms o.apis (bytecodeDirectory o.output) o.platform = .ok jobs := by
  have hjobs {ms : List Manifest} (hms : Gives (OnFiles t) (discover o.input) (.ok ms)) :
      Gives (OnFiles t) (plan o) (.ok jobs) ↔
        planJobs ms o.apis (bytecodeDirectory o.output) o.platform = .ok jobs := by
    rw [(plan_gives o hms).gives_iff (exists_onFiles t), mapError_ok_iff]
  constructor
  · intro h
    obtain ⟨r, hr⟩ := discover_steady (t := t) o.input
    cases r with
    | error e => cases (Gives.gives_iff hr.bind_error (exists_onFiles t)).1 h
    | ok ms => exact ⟨ms, hr, (hjobs hr).1 h⟩
  · rintro ⟨ms, hms, h⟩
    exact (hjobs hms).2 h

end Planning

section Compiling

variable {compiler : Compiler} {jobs : List Job}

/-- A compiler whose result depends on the descriptor and which writes to its output path. -/
structure Compiler.Faithful (compiler : Compiler) : Prop where
  steady : ∀ d, Steady (Over fun _ => True) (compiler d)
  confined : ∀ d, Confined (· = d.output) (compiler d)

def IsOutput (jobs : List Job) (path : String) : Prop :=
  ∃ j ∈ jobs, ∃ d, j.descriptor = some d ∧ path = d.output

theorem compileJob_steady (hc : compiler.Faithful) (j : Job) :
    Steady (Over fun _ => True) (compileJob compiler j) := by
  unfold compileJob
  cases j.descriptor with
  | none => exact .pure _
  | some d => exact ((hc.steady d).map some).bind fun _ => .pure _

theorem compileJobs_steady (hc : compiler.Faithful) (jobs : List Job) :
    Steady (Over fun _ => True) (compileJobs compiler jobs) :=
  .mapM (compileJob_steady hc) jobs

theorem compileJobs_confined (hc : compiler.Faithful) (jobs : List Job) :
    Confined (IsOutput jobs) (compileJobs compiler jobs) := by
  refine .mapM fun j hj => ?_
  unfold compileJob
  cases hd : j.descriptor with
  | none => exact .pure _
  | some d =>
    have hcompile : Confined (IsOutput jobs) (compiler d) :=
      (hc.confined d).mono fun _ hp => ⟨j, hj, d, hd, hp⟩
    rw [Option.mapM_some, map_eq_pure_bind]
    exact (hcompile.bind fun _ => .pure _).bind fun _ => .pure _

end Compiling

section Halves

variable {compiler : Compiler} {o : Options}

theorem during_run {α : Type} (state : BatchState) (x : Build α) (w : Workspace) :
    (Batch.during state x).run.run w =
      ((x.run.run w).1.mapError (state, ·), (x.run.run w).2) := rfl

theorem during_bind {α β : Type} (state : BatchState) (x : Build α) (f : α → Build β) :
    Batch.during state (x >>= f) =
      Batch.during state x >>= fun a => Batch.during state (f a) := by
  refine ExceptT.ext (StateT.ext fun w => ?_)
  rw [during_run, run_bind, run_bind, during_run]
  rcases x.run.run w with ⟨_ | a, w'⟩ <;> rfl

theorem during_ok {α : Type} {state : BatchState} {x : Build α} {a : α} {w w' : Workspace} :
    (Batch.during state x).run.run w = (.ok a, w') ↔ x.run.run w = (.ok a, w') := by
  rw [during_run]
  rcases x.run.run w with ⟨_ | b, v⟩ <;>
  · constructor <;>
    · intro h
      cases h <;> rfl

theorem during_steady {α : Type} {p : Workspace → Prop} {x : Build α} (state : BatchState)
    (h : Steady p x) : Steady p (Batch.during state x) := by
  obtain ⟨r, hr⟩ := h
  refine ⟨r.mapError (state, ·), fun w hw => ?_⟩
  obtain ⟨hresult, hp⟩ := hr w hw
  exact ⟨congrArg (Except.mapError (state, ·)) hresult, hp⟩

theorem during_confined {α : Type} {q : String → Prop} {x : Build α} (state : BatchState)
    (h : Confined q x) : Confined q (Batch.during state x) := h

def rendered (o : Options) (vs : List Variant) : Batch (List Code.EmittedFile) :=
  if o.metadata then Batch.during .generating (render o vs) else pure []

def carryOut (compiler : Compiler) (o : Options) (jobs : List Job) :
    Batch (List Variant × List Code.EmittedFile) := do
  let vs ← Batch.during .compiling (compileJobs compiler jobs)
  let emitted ← rendered o vs
  return (vs, emitted)

/-- What a batch does before it writes code: its variants and its rendered files. -/
def prepare (compiler : Compiler) (o : Options) : Batch (List Variant × List Code.EmittedFile) := do
  let jobs ← Batch.during .discovering (plan o)
  carryOut compiler o jobs

/-- Write what was rendered, and put the marker when all of it is there. -/
def publish (o : Options) (vs : List Variant) (emitted : List Code.EmittedFile) : Build Report := do
  let files ← writeEmitted o.output emitted
  let marker := markerPath o.output
  touchMarker marker
  let changed := (files.filter (·.2 == .written)).length
  Logged.note .info .batch s!"Generated {files.length} file(s), {changed} changed"
  return { variants := vs, files, marker := some marker }

theorem generate_eq (o : Options) (vs : List Variant) :
    generate o vs = render o vs >>= publish o vs := by
  rw [generate, render, bind_assoc]
  rfl

theorem steps_eq (compiler : Compiler) (o : Options) :
    steps compiler o = prepare compiler o >>= fun x =>
      if o.metadata then Batch.during .generating (publish o x.1 x.2)
      else return { variants := x.1 } := by
  cases ho : o.metadata <;>
  simp [steps, prepare, carryOut, rendered, generate_eq, during_bind, ho]

end Halves

end Builtin

end ShaderBuild
