import ShaderBuild.Builtin.Batch
import ShaderBuild.Command.Arguments
import ShaderBuild.Compile.Compilation

namespace ShaderBuild.Command

/-- The request for a compilation, with an API and an output that come before those given. -/
def Arguments.request (a : Arguments) (api : Option Api) (output : Option String) : Request where
  input := a.input
  output := output <|> a.output
  entryPoint := a.entryPoint
  stage := a.stage
  platform := a.platform
  api := api <|> a.apis.head?
  defines := a.defines
  reflection := a.reflection

variable (system : System)

def compileOne (a : Arguments) (dxcPath : Option String) : Build Unit := do
  let d ← Logged.attempt (a.request none none).build
  if 1 < a.apis.length then
    Logged.attempt (refuse (ArgumentError.severalApis a.apis.length))
  let code ← compile system (a.config dxcPath) d
  Logged.note .info .commandLine s!"Wrote {d.output} ({code.size} bytes)"
  if d.reflection then
    if code.isSpirv then
      let r ← Reflection.ofBytecode code
      let (path, _) ← writeSidecar d.output r
      Logged.note .info .commandLine s!"Wrote {path}"
    else
      Logged.note .warn .commandLine
        s!"Reflection needs SPIR-V; no sidecar for {d.api.name} output"

/-- Where the binary goes that is only there to be reflected. -/
def scratchPath (d : Descriptor) (stem : String) (process : Nat) : String :=
  Path.join d.scratch s!"galaxy3d_{stem}_{d.entryPoint}_{process}.spv"

def discard (path : String) : Build Unit :=
  modifyThe Workspace fun w =>
    match w.files.removeFile path with
    | .ok files => { w with files }
    | .error _ => w

/-- Compile to a file that is taken away again, whatever comes of it. -/
def compileScratch (config : Config) (d : Descriptor) : Build Bytecode := do
  let code ← Build.onError (compile system config d) fun _ => discard d.output
  discard d.output
  return code

/-- Generate code for the resources of one shader. -/
def generateMetadata (a : Arguments) (dxcPath : Option String) : Build Unit := do
  let wanted ← Logged.attempt (a.request (some .vulkan) none).build
  let stem := (Path.stem? wanted.input).getD ""
  let scratch := scratchPath wanted stem (← getThe Workspace).process
  let d ← Logged.attempt (a.request (some .vulkan) (some scratch)).build
  let code ← compileScratch system (a.config dxcPath) d
  let r ← Reflection.ofBytecode code
  if a.reflection then
    let (path, _) ← writeSidecar (Path.join wanted.output stem) r
    Logged.note .info .commandLine s!"Wrote {path}"
  let fs ← Metadata.filesOfReflectionLogged r
  let emitted ← Logged.attempt (a.language.emitAll fs)
  let written ← writeEmitted wanted.output emitted
  Logged.note .info .commandLine s!"{written.length} metadata file(s) in {wanted.output}"

def buildAll (a : Arguments) (dxcPath : Option String) : Build Unit := do
  let o ← Logged.attempt a.batchOptions
  let report ← Builtin.build (compile system (a.config dxcPath)) o
  Logged.note .info .commandLine s!"Built {report.variants.length} builtin shader variant(s)"

def carryOut (a : Arguments) (dxcPath : Option String) : Build String := do
  match a.mode with
  | .help => return usage ++ "\n"
  | .compile => compileOne system a dxcPath; return ""
  | .metadata => generateMetadata system a dxcPath; return ""
  | .builtin => buildAll system a dxcPath; return ""

def Arguments.floor (a : Arguments) : Severity := if a.verbose then .debug else .info

def setFloor (floor : Severity) : Build Unit :=
  modifyThe Workspace fun w => { w with journal := { w.journal with floor } }

structure Console where
  status : Nat
  stdout : String
  stderr : String
deriving DecidableEq, Repr, Inhabited

def execute (words : List String) (dxcPath : Option String) : Build Console := do
  let result ← tryCatch (do
      let a ← Logged.attempt (Arguments.parse words)
      setFloor a.floor
      return Except.ok (← carryOut system a dxcPath)) fun f =>
    match f with
    | .error e => return .error e
    | .breakdown _ => throw f
  match result with
  | .ok text => return ⟨0, text, ""⟩
  | .error e => return ⟨1, "", s!"Error: {e.message}\n"⟩

end ShaderBuild.Command
