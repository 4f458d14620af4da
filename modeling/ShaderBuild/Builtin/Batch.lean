import ShaderBuild.Builtin.Discovery
import ShaderBuild.Builtin.Embedding
import ShaderBuild.Builtin.Job
import ShaderBuild.Code.Language
import ShaderBuild.Metadata.Files
import ShaderBuild.Output
import ShaderBuild.Reflection.Discovery

namespace ShaderBuild.Builtin

def register (g : Registry) (v : Variant) : Logged Registry :=
  match v.bytecode.filter (·.isSpirv) with
  | none => return g
  | some code => do
    let r ← Reflection.ofBytecode code
    Logged.note .debug .batch s!"Reflected {v.binaryName}: {r.bindingCount} binding(s)"
    g.addLogged r

def registryOf (vs : List Variant) : Logged Registry := vs.foldlM register .empty

def batchFiles (vs : List Variant) (apis : List Api) : Logged (List Code.File) := do
  let embedding ← Logged.attempt (embeddingFiles vs apis)
  let g ← registryOf vs
  Logged.note .info .batch
    s!"{g.resourceCount} resource(s) reflected from {g.shaders} SPIR-V shader(s)"
  return embedding ++ (← Metadata.filesLogged g)

/-- What a batch is doing, or how it ended. -/
inductive BatchState
  | discovering | compiling | generating | done | failed
deriving DecidableEq, Repr, Inhabited

def BatchState.name : BatchState → String
  | discovering => "Discover"
  | compiling => "CompileAll"
  | generating => "BuildMetadata"
  | done => "Done"
  | failed => "Failed"

structure Report where
  variants : List Variant
  files : List (String × WriteOutcome) := []
  marker : Option String := none
deriving DecidableEq, Repr, Inhabited

def bytecodeDirectory (output : String) : String := Path.join output "Bytecode"

def markerPath (output : String) : String := Path.join output "BuiltinShaders.uptodate"

abbrev Compiler := Descriptor → Build Bytecode

/-- A build that knows what it is doing when it fails. -/
abbrev Batch := ExceptT (BatchState × Failure) (StateM Workspace)

namespace Batch

def during {α : Type} (state : BatchState) (x : Build α) : Batch α := ExceptT.mk fun w =>
  let (result, w) := x.run.run w
  (result.mapError (state, ·), w)

end Batch

def plan (o : Options) : Build (List Job) := do
  let ms ← discover o.input
  let jobs ← planJobsLogged ms o.apis (bytecodeDirectory o.output) o.platform
  let apis := ", ".intercalate (o.apis.map (·.name))
  Logged.note .info .batch s!"{ms.length} manifest(s), {jobs.length} job(s) for [{apis}]"
  return jobs

def compileJob (compiler : Compiler) (job : Job) : Build Variant :=
  return job.variant (← job.descriptor.mapM compiler)

def compileJobs (compiler : Compiler) (jobs : List Job) : Build (List Variant) :=
  jobs.mapM (compileJob compiler)

/-- Generate code, write it, and put the marker when all of it is there. -/
def generate (o : Options) (vs : List Variant) : Build Report := do
  let fs ← batchFiles vs o.apis
  let emitted ← Logged.attempt (o.language.emitAll fs)
  let files ← writeEmitted o.output emitted
  let marker := markerPath o.output
  touchMarker marker
  let changed := (files.filter (·.2 == .written)).length
  Logged.note .info .batch s!"Generated {files.length} file(s), {changed} changed"
  return { variants := vs, files, marker := some marker }

def steps (compiler : Compiler) (o : Options) : Batch Report := do
  let jobs ← Batch.during .discovering (plan o)
  let vs ← Batch.during .compiling (compileJobs compiler jobs)
  if o.metadata then Batch.during .generating (generate o vs)
  else return { variants := vs }

def run (compiler : Compiler) (o : Options) (w : Workspace) :
    (BatchState × Except Failure Report) × Workspace :=
  match (steps compiler o).run.run w with
  | (.ok r, w) => ((.done, .ok r), w)
  | (.error (state, .error e), w) =>
    let entry : Entry := ⟨.error, Component.batch.tag,
      s!"Builtin batch failed while in {state.name}: {e.kind.name}", none⟩
    ((.failed, .error (.error e)), { w with journal := w.journal.record entry })
  | (.error (state, .breakdown message), w) => ((state, .error (.breakdown message)), w)

def build (compiler : Compiler) (o : Options) : Build Report := ExceptT.mk fun w =>
  let ((_, result), w) := run compiler o w
  (result, w)

end ShaderBuild.Builtin
