import ShaderBuild.FileTree.Listing
import ShaderBuild.Shell.Utility

namespace ShaderBuild.Shell

inductive Program
  | utility (u : Utility) (arguments : List String)
  | shell (arguments : List String)
deriving DecidableEq, Repr, Inhabited

namespace Program

def append (p : Program) (more : List String) : Program :=
  match p with
  | utility u arguments => utility u (arguments ++ more)
  | shell arguments => shell (arguments ++ more)

/-- Directories of the system's programs, which no tree of files shows. -/
def systemDirectories : List String := ["/bin", "/usr/bin"]

def idleDirectories : List String := ["/sbin", "/usr/sbin", "/usr/local/bin", "/usr/local/sbin"]

def withSystem (t : FileTree) : FileTree :=
  let locations := (systemDirectories ++ idleDirectories).flatMap fun path =>
    FileTree.lineage ((Path.parts (path.toList.drop 1)).map .ofList)
  { t with entries := t.entries ++ locations.map (·, .directory) }

def isShellName (name : String) : Bool := ["sh", "dash", "bash"].contains name

def ofSystemName? (name : String) : Option Program :=
  if isShellName name then some (shell []) else (Utility.ofName? name).map (utility · [])

def ofSystemPath? (path : String) : Option Program :=
  if (Path.parent? path).any systemDirectories.contains then
    (Path.fileName? path).bind ofSystemName?
  else none

def interpreter? (bytes : List UInt8) : Option (String × List String) :=
  match bytes with
  | 35 :: 33 :: r =>
    let line := (Text.Utf8.decodeLossy (r.takeWhile (· != 10))).toList
    let blank (c : Char) : Bool := c == ' ' || c == '\t'
    let trim (cs : List Char) : List Char :=
      ((cs.dropWhile blank).reverse.dropWhile blank).reverse
    let words := trim line
    let path := words.takeWhile (!blank ·)
    if path.isEmpty then none
    else
      match trim (words.drop path.length) with
      | [] => some (.ofList path, [])
      | argument => some (.ofList path, [.ofList argument])
  | _ => none

def finder : String := "/usr/bin/env"

/-- What a path stands for. The interpreter of a script may be a script, so many times over. -/
def ofPathIn (t : FileTree) : Nat → String → Except FileFault Program
  | 0, _ => .error .tooManyLevels
  | levels + 1, path =>
    match ofSystemPath? path with
    | some p => .ok p
    | none => do
      match ← (withSystem t).lookup path with
      | .directory | .file _ false => .error .denied
      | .file bytes true =>
        match interpreter? bytes with
        | none => .error .notExecutable
        | some (interpreter, front) =>
          match if interpreter == finder then front.head?.bind ofSystemName? else none with
          | some p => return p.append [path]
          | none => return (← ofPathIn t levels interpreter).append (front ++ [path])

def deepest : Nat := 6

def ofPath (t : FileTree) (path : String) : Except FileFault Program := ofPathIn t deepest path

/-- What a name stands for in the directories of a search path: the first hit, or else the worst
fault. -/
def inDirectories (t : FileTree) (name : String) (fault : FileFault) :
    List String → Except FileFault Program
  | [] => .error fault
  | d :: r =>
    match ofPath t (Path.join (if d == "" then "." else d) name) with
    | .ok p => .ok p
    | .error .notFound | .error .notDirectory => inDirectories t name fault r
    | .error .denied => inDirectories t name .denied r
    | .error f => .error f

/-- What a name stands for; one with a slash is a path. -/
def find (t : FileTree) (searchPath name : String) : Except FileFault Program :=
  if name == "" then .error .notFound
  else if name.toList.contains Path.separator then ofPath t name
  else inDirectories t name .notFound (searchPath.splitOn ":")

end Program

end ShaderBuild.Shell
