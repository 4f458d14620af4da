import ShaderBuild.FileTree.Fault
import ShaderBuild.Path
import ShaderBuild.Text.Utf8

namespace ShaderBuild

abbrev Location := List String

inductive FileEntry
  | directory
  | file (bytes : List UInt8) (executable : Bool)
deriving DecidableEq, Repr, Inhabited

structure FileTree where
  home : Location
  entries : List (Location × FileEntry)
deriving DecidableEq, Repr, Inhabited

namespace FileTree

def get? (t : FileTree) (l : Location) : Option FileEntry :=
  if l = [] then some .directory else t.entries.lookup l

def setIn (l : Location) (e : FileEntry) : List (Location × FileEntry) → List (Location × FileEntry)
  | [] => [(l, e)]
  | (m, f) :: r => if l = m then (l, e) :: r else (m, f) :: setIn l e r

def set (t : FileTree) (l : Location) (e : FileEntry) : FileTree :=
  { t with entries := setIn l e t.entries }

def erase (t : FileTree) (l : Location) : FileTree :=
  { t with entries := t.entries.filter fun (m, _) => !l.isPrefixOf m }

theorem lookup_setIn (l m : Location) (e : FileEntry) (es : List (Location × FileEntry)) :
    (setIn l e es).lookup m = if m = l then some e else es.lookup m := by
  induction es with
  | nil =>
    by_cases h : m = l
    · simp [setIn, h]
    · simp [setIn, List.lookup_cons, h, beq_eq_false_iff_ne.2 h]
  | cons p r ih =>
    obtain ⟨k, f⟩ := p
    by_cases hk : l = k
    · subst hk
      by_cases h : m = l
      · simp [setIn, h]
      · simp [setIn, List.lookup_cons, h, beq_eq_false_iff_ne.2 h]
    · by_cases h : m = k
      · subst h
        simp [setIn, hk, Ne.symm hk]
      · simp [setIn, List.lookup_cons, hk, beq_eq_false_iff_ne.2 h, ih]

theorem get?_set (t : FileTree) (l m : Location) (e : FileEntry) (h : l ≠ []) :
    (t.set l e).get? m = if m = l then some e else t.get? m := by
  by_cases hm : m = []
  · subst hm
    simp [get?, Ne.symm h]
  · simp [get?, set, hm, lookup_setIn]

structure Target where
  location : Location
  asDirectory : Bool

def longestName : Nat := 255

def longestPath : Nat := 4095

/-- Go from a location to a part of a path. -/
def step (t : FileTree) (l : Location) (part : List Char) : Except FileFault Location :=
  match t.get? l with
  | none => .error .notFound
  | some (.file ..) => .error .notDirectory
  | some .directory =>
    let name := String.ofList part
    if part = ['.'] then .ok l
    else if part = ['.', '.'] then .ok l.dropLast
    else if longestName < name.utf8ByteSize then .error .nameTooLong
    else .ok (l ++ [name])

/-- Follow a path. Everything but its last part must be there. -/
def locate (t : FileTree) (path : String) : Except FileFault Target := do
  let cs := path.toList
  if cs.isEmpty then .error .notFound
  if cs.contains '\x00' then .error .zeroInName
  if longestPath < path.utf8ByteSize then .error .nameTooLong
  let parts := Path.parts cs
  let start := if Path.isAbsoluteChars cs then [] else t.home
  let location ← (parts.filter (· != [])).foldlM t.step start
  return ⟨location, [[], ['.'], ['.', '.']].contains (parts.getLast?.getD [])⟩

def lookup (t : FileTree) (path : String) : Except FileFault FileEntry := do
  let target ← t.locate path
  match t.get? target.location with
  | none => .error .notFound
  | some .directory => return .directory
  | some (.file bytes x) =>
    if target.asDirectory then .error .notDirectory else return .file bytes x

def isFile (t : FileTree) (path : String) : Bool :=
  match t.lookup path with
  | .ok (.file ..) => true
  | _ => false

def isDirectory (t : FileTree) (path : String) : Bool :=
  match t.lookup path with
  | .ok .directory => true
  | _ => false

def read (t : FileTree) (path : String) : Except FileFault (List UInt8) := do
  match ← t.lookup path with
  | .file bytes _ => return bytes
  | .directory => .error .isDirectory

def readText (t : FileTree) (path : String) : Except FileFault String := do
  match Text.Utf8.decode? (← t.read path) with
  | some text => return text
  | none => .error .notText

/-- Write a file, which keeps its mode if it was there. -/
def write (t : FileTree) (path : String) (bytes : List UInt8) : Except FileFault FileTree := do
  let target ← t.locate path
  if target.asDirectory then .error .isDirectory
  match t.get? target.location with
  | some .directory => .error .isDirectory
  | some (.file _ x) => return t.set target.location (.file bytes x)
  | none => return t.set target.location (.file bytes false)

def createDirectory (t : FileTree) (path : String) : Except FileFault FileTree := do
  let target ← t.locate path
  match t.get? target.location with
  | some _ => .error .alreadyExists
  | none => return t.set target.location .directory

/-- Create the first of some paths, each the parent of the one before it, and before that as many
of the others as it needs. The empty path is the directory that is always there. What was created
stays, also where something stands in the way of the rest. -/
def createChain (t : FileTree) : List String → FileTree × Option FileFault
  | [] => (t, none)
  | path :: parents =>
    if path = "" then (t, none)
    else
      match t.createDirectory path with
      | .ok t => (t, none)
      | .error .notFound =>
        match t.createChain parents with
        | (t, some f) => (t, some f)
        | (t, none) =>
          match t.createDirectory path with
          | .ok t => (t, none)
          | .error f => (t, if t.isDirectory path then none else some f)
      | .error f => (t, if t.isDirectory path then none else some f)

/-- A path and its parents, `fuel` of them at most. -/
def ancestors : Nat → String → List String
  | 0, path => [path]
  | fuel + 1, path =>
    path ::
      match Path.parent? path with
      | some parent => ancestors fuel parent
      | none => []

/-- Create a directory and those above it, as far as they are missing: what is there afterwards,
and what stood in the way. -/
def createDirectories (t : FileTree) (path : String) : FileTree × Option FileFault :=
  t.createChain (ancestors path.length path)

def removeFile (t : FileTree) (path : String) : Except FileFault FileTree := do
  let target ← t.locate path
  match ← t.lookup path with
  | .file .. => return t.erase target.location
  | .directory => .error .isDirectory

def children (t : FileTree) (l : Location) : List String :=
  let below := t.entries.filterMap fun (m, _) => if m.dropLast = l then m.getLast? else none
  below.mergeSort fun a b => !(b < a)

def walkFrom (t : FileTree) : Nat → String → Location → List (String × FileEntry)
  | 0, _, _ => []
  | fuel + 1, path, l =>
    match t.get? l with
    | none => []
    | some (.file bytes x) => [(path, .file bytes x)]
    | some .directory =>
      (path, .directory) ::
        (t.children l).flatMap fun name => t.walkFrom fuel (Path.join path name) (l ++ [name])

/-- All paths from a root downwards, siblings in the order of their names. -/
def walk (t : FileTree) (root : String) : Except FileFault (List (String × FileEntry)) := do
  let target ← t.locate root
  let _ ← t.lookup root
  return t.walkFrom (t.entries.length + 1) root target.location

end FileTree

end ShaderBuild
