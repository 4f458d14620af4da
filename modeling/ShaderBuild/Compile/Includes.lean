import ShaderBuild.Path
import ShaderBuild.Workspace

namespace ShaderBuild

inductive IncludeKind
  | quoted | angled
deriving DecidableEq, Repr, Inhabited

/-- Paths to try, in order. -/
def includeCandidates (dirs : List String) (includer header : String) (kind : IncludeKind) :
    List String :=
  let beside := match kind with
    | .quoted => [Path.join ((Path.parent? includer).getD "") header]
    | .angled => []
  beside ++ dirs.map fun d => Path.join d header

inductive IncludeError
  | unreadable (path : String) (fault : FileFault)
  | notFound (header : String)

namespace IncludeError

def message : IncludeError → String
  | unreadable path f => s!"Cannot read include '{path}': {f.message}"
  | notFound header => s!"Include {header} not found"

def toError : IncludeError → Error
  | e@(unreadable ..) => ⟨.io, .includes, e.message⟩
  | e@(notFound _) => ⟨.compilation, .includes, e.message⟩

instance : Coe IncludeError Error := ⟨toError⟩

end IncludeError

def resolveInclude (dirs : List String) (includer header : String) (kind : IncludeKind) :
    Build (String × String) := do
  let files ← Build.files
  match (includeCandidates dirs includer header kind).find? files.isFile with
  | none => Logged.attempt (refuse (IncludeError.notFound header))
  | some path =>
    let text ← Build.consult (·.readText path) fun f => IncludeError.unreadable path f
    Logged.note .trace .includes s!"'{header}' -> '{path}'"
    return (path, text)

end ShaderBuild
