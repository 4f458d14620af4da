import ShaderBuild.Builtin.Manifest
import ShaderBuild.Workspace

namespace ShaderBuild.Builtin

inductive DiscoveryError
  | unreadable (path : String) (fault : FileFault)
  | unscannable (root path : String) (fault : FileFault)
  | noSource (path source : String)

namespace DiscoveryError

def message : DiscoveryError → String
  | unreadable path f => s!"Cannot read manifest '{path}': {f.message}"
  | unscannable root path f =>
    s!"Cannot scan '{root}': IO error for operation on {path}: {f.message}"
  | noSource path source => s!"Manifest '{path}' has no matching source '{source}'"

def toError : DiscoveryError → Error
  | e@(noSource ..) => ⟨.configuration, .manifest, e.message⟩
  | e => ⟨.io, .manifest, e.message⟩

instance : Coe DiscoveryError Error := ⟨toError⟩

end DiscoveryError

def parseLogged (path text : String) : Logged Manifest :=
  Logged.attempt ((Manifest.parse path text).mapError ManifestFault.toError)

def loadManifest (path : String) : Build Manifest := do
  parseLogged path (← Build.consult (·.readText path) fun f => DiscoveryError.unreadable path f)

def isManifestPath (path : String) : Bool := Path.extension? path == some "shaders"

/-- Load a manifest that has its source file. -/
def loadPaired (path : String) : Build Manifest := do
  let m ← loadManifest path
  if !(← Build.files).isFile m.source then
    Logged.attempt (refuse (DiscoveryError.noSource path m.source))
  Logged.note .debug .manifest s!"Found {path} with {m.shaders.length} shader(s)"
  return m

/-- The manifest that a path leads to, if it is one. A directory must be within reach. -/
def visit (root path : String) : FileEntry → Build (Option Manifest)
  | .file .. => if isManifestPath path then some <$> loadPaired path else return none
  | .directory => do
    let _ ← Build.consult (·.lookup path) fun f => DiscoveryError.unscannable root path f
    return none

/-- All manifests below a root, in the order of their paths; they share no name. -/
def discover (root : String) : Build (List Manifest) := do
  let paths ← Build.consult (·.walk root) fun f => DiscoveryError.unscannable root root f
  let ms ← paths.filterMapM fun (path, entry) => visit root path entry
  Logged.attempt ((checkUniqueNames ms).mapError ManifestFault.toError)
  return ms

end ShaderBuild.Builtin
