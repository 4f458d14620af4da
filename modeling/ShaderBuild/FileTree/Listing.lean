import ShaderBuild.FileTree.Basic

namespace ShaderBuild.FileTree

def lineage (l : Location) : List Location := (List.range l.length).map fun n => l.take (n + 1)

def withHome (home : Location) : FileTree where
  home
  entries := (lineage home).map (·, .directory)

def withDirectories (t : FileTree) (path : String) : Except FileFault FileTree :=
  match t.createDirectories path with
  | (t, none) => .ok t
  | (_, some f) => .error f

def put (t : FileTree) (path : String) (bytes : List UInt8) : Except FileFault FileTree := do
  let t ← match (Path.parent? path).filter (· != "") with
    | some parent => t.withDirectories parent
    | none => .ok t
  t.write path bytes

def allowRunning (t : FileTree) (path : String) : Except FileFault FileTree := do
  let target ← t.locate path
  match ← t.lookup path with
  | .file bytes _ => return t.set target.location (.file bytes true)
  | .directory => .error .isDirectory

def remove (t : FileTree) (path : String) : Except FileFault FileTree := do
  let _ ← t.lookup path
  return t.erase (← t.locate path).location

def listing (t : FileTree) (root : String) : Except FileFault (List (String × FileEntry)) := do
  let target ← t.locate root
  return (t.walkFrom (t.entries.length + 1) "" target.location).filter (·.1 != "")

end ShaderBuild.FileTree
