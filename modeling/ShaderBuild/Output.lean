import ShaderBuild.Code.File
import ShaderBuild.Reflection.Sidecar
import ShaderBuild.Workspace

namespace ShaderBuild

inductive WriteOutcome
  | written | unchanged
deriving DecidableEq, Repr, Inhabited

def WriteOutcome.name : WriteOutcome → String
  | written => "Written"
  | unchanged => "Unchanged"

inductive WriteError
  | directory (path : String) (fault : FileFault)
  | file (path : String) (fault : FileFault)
  | marker (path : String) (fault : FileFault)

namespace WriteError

def message : WriteError → String
  | directory path f => s!"Cannot create directory '{path}': {f.message}"
  | file path f => s!"Cannot write '{path}': {f.message}"
  | marker path f => s!"Cannot write marker '{path}': {f.message}"

def toError (e : WriteError) : Error := ⟨.io, .writer, e.message⟩

end WriteError

def createParent (path : String) (error : String → FileFault → Error) : Build Unit :=
  match (Path.parent? path).filter (· != "") with
  | some parent => do
    let (files, fault) := (← Build.files).createDirectories parent
    modifyThe Workspace fun w => { w with files }
    match fault with
    | some f => Logged.attempt (refuse (error parent f))
    | none => pure ()
  | none => pure ()

/-- Write a text, unless the file holds it already. -/
def writeIfChanged (path text : String) : Build WriteOutcome := do
  let bytes := Text.Utf8.encode text
  match (← Build.files).read path with
  | .ok old =>
    if old = bytes then
      Logged.note .debug .writer s!"Unchanged {path}"
      return .unchanged
  -- a file that cannot be read is written like one that is missing
  | .error _ => pure ()
  createParent path fun parent f => (WriteError.directory parent f).toError
  Build.change (·.write path bytes) fun f => (WriteError.file path f).toError
  Logged.note .debug .writer s!"Wrote {path}"
  return .written

/-- Write an empty file, which says by its date when a build was complete. -/
def touchMarker (path : String) : Build Unit := do
  createParent path fun parent f => (WriteError.directory parent f).toError
  Build.change (·.write path []) fun f => (WriteError.marker path f).toError

def writeEmitted (directory : String) (fs : List Code.EmittedFile) :
    Build (List (String × WriteOutcome)) :=
  fs.mapM fun f => do
    let path := Path.join directory f.name
    return (path, ← writeIfChanged path f.contents)

def writeSidecar (output : String) (r : Reflection) : Build (String × WriteOutcome) := do
  let path := sidecarPath output
  return (path, ← writeIfChanged path r.toYaml)

end ShaderBuild
