import ShaderBuild.Bytecode.Binary
import ShaderBuild.Compile.Dxc
import ShaderBuild.Output
import ShaderBuild.Launch

namespace ShaderBuild

inductive CompilationError
  | noInput (path : String)
  | noOutputDirectory (path : String) (fault : FileFault)
  | rejected (input entryPoint diagnostics : String)
  | unreadableOutput (path : String) (fault : FileFault)
  | noGlslang (input : String)

namespace CompilationError

def message : CompilationError → String
  | noInput path => s!"Input file '{path}' does not exist"
  | noOutputDirectory path f => s!"Cannot create output directory '{path}': {f.message}"
  | rejected input entryPoint diagnostics => s!"{input} ({entryPoint}): {diagnostics}"
  | unreadableOutput path f => s!"Cannot read compiled output '{path}': {f.message}"
  | noGlslang input =>
    s!"cannot compile '{input}': glslang backend not built " ++
      "(enable the 'glslang' feature or use -spirvbackend dxc)"

def toError : CompilationError → Error
  | e@(rejected ..) => ⟨.compilation, .dxc, e.message⟩
  | e@(noGlslang _) => ⟨.configuration, .glslang, e.message⟩
  | e => ⟨.io, .dxc, e.message⟩

instance : Coe CompilationError Error := ⟨toError⟩

end CompilationError

/-- What the external compiler has to say, or else how it ended. -/
def Finished.complaint (r : Finished) : String :=
  if r.diagnostics == "" then s!"dxc exited with {r.status.text} and no output"
  else r.diagnostics

variable (system : System)

def compileWithDxc (config : Config) (target : DxcTarget) (d : Descriptor) : Build Bytecode := do
  if !(← Build.files).isFile d.input then
    Logged.attempt (refuse (CompilationError.noInput d.input))
  let arguments ← Logged.attempt (commandLine config d target)
  createParent d.output fun path f => CompilationError.noOutputDirectory path f
  Logged.note .debug .dxc (" ".intercalate (config.dxc :: arguments))
  let r ← Launch.run system config.dxc arguments config.timeout
  if !r.status.isSuccess then
    Logged.attempt (refuse (CompilationError.rejected d.input d.entryPoint r.complaint))
  if r.diagnostics != "" then
    Logged.note .warn .dxc s!"{d.input} ({d.entryPoint}): {r.diagnostics}"
  let bytes ← Build.consult (·.read d.output)
    fun f => CompilationError.unreadableOutput d.output f
  Logged.attempt (Bytecode.ofBytes bytes d.entryPoint d.stage)

/-- Compile in this process, which this build does not offer. -/
def compileWithGlslang (d : Descriptor) : Build Bytecode :=
  Logged.attempt (refuse (CompilationError.noGlslang d.input))

def Backend.compile (config : Config) (d : Descriptor) : Backend → Build Bytecode
  | .dxc target => compileWithDxc system config target d
  | .glslang => compileWithGlslang d

def elapsedText (milliseconds : Nat) : String := s!"{milliseconds}.0"

def compile (config : Config) (d : Descriptor) : Build Bytecode := do
  let backend := Backend.forApi config d.api
  let start := (← getThe Workspace).clock
  -- read twice, since a failure takes its time too
  let elapsed : Build String :=
    return elapsedText ((← getThe Workspace).clock - start)
  Logged.note .debug .compiler
    s!"Compiling {d.input} '{d.entryPoint}' ({d.stage.name}, {d.api.name}) with {backend.name}"
  let code ← Build.onError (backend.compile system config d) fun e => do
    let t ← elapsed
    Logged.note .error .compiler s!"Compiling {d.binaryName} failed after {t} ms: {e.kind.name}"
  let t ← elapsed
  Logged.note .debug .compiler s!"Compiled {d.binaryName} ({code.size} bytes) in {t} ms"
  return code

end ShaderBuild
