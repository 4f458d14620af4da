import ShaderBuild.FileTree.Listing
import ShaderBuild.Shell.Format
import ShaderBuild.Shell.State

namespace ShaderBuild.Shell

inductive Utility
  | cat | copy | move | remove | makeDirectory | touch | head | tail | count | sequence | sleep
  | baseName | directoryName | list | echo | printf | true_ | false_
deriving DecidableEq, Repr, Inhabited

namespace Utility

def all : List Utility :=
  [cat, copy, move, remove, makeDirectory, touch, head, tail, count, sequence, sleep,
    baseName, directoryName, list, echo, printf, true_, false_]

def name : Utility → String
  | cat => "cat"
  | copy => "cp"
  | move => "mv"
  | remove => "rm"
  | makeDirectory => "mkdir"
  | touch => "touch"
  | head => "head"
  | tail => "tail"
  | count => "wc"
  | sequence => "seq"
  | sleep => "sleep"
  | baseName => "basename"
  | directoryName => "dirname"
  | list => "ls"
  | echo => "echo"
  | printf => "printf"
  | true_ => "true"
  | false_ => "false"

def ofName? (s : String) : Option Utility := all.find? (·.name == s)

def splitFlags : List String → List Char × List String
  | [] => ([], [])
  | w :: r =>
    match w.toList with
    | ['-', '-'] => ([], r)
    | '-' :: c :: cs =>
      let (flags, rest) := splitFlags r
      (c :: cs ++ flags, rest)
    | _ => ([], w :: r)

def lastPart (path : String) : String :=
  let cs := (path.toList.reverse.dropWhile (· == '/')).reverse
  if cs.isEmpty && !path.isEmpty then "/" else .ofList ((Path.parts cs).getLast?.getD [])

def fail (u : Utility) (message : String) : Session Nat := do
  Session.write 2 s!"{u.name}: {message}\n"
  return 1

def misused (u : Utility) (message : String) : Session Nat :=
  u.fail s!"{message}\nTry '{u.name} --help' for more information."

/-- Do something for each argument; the status is that of a failure if there is one. -/
def forEach (f : String → Session Nat) (arguments : List String) : Session Nat :=
  arguments.foldlM (fun status a => return max status (← f a)) 0

def change (u : Utility) (failure : String) (action : FileTree → Except FileFault FileTree) :
    Session Nat := do
  match action (← get).files with
  | .ok t =>
    modify fun s => { s with files := t }
    return 0
  | .error f => u.fail s!"{failure}: {f.reason}"

def content (u : Utility) (failure path : String) : Session (Option (List UInt8)) := do
  let s ← get
  if path == "-" then
    set { s with input := [] }
    return some s.input
  match s.files.read path with
  | .ok bytes => return some bytes
  | .error f =>
    let _ ← u.fail s!"{failure}: {f.reason}"
    return none

def filter (u : Utility) (failure : String → String) (f : String → List UInt8 → List UInt8)
    (paths : List String) : Session Nat :=
  forEach (fun path => do
    match ← u.content (failure path) path with
    | some bytes =>
      Session.writeBytes 1 (f path bytes)
      return 0
    | none => return 1) (if paths.isEmpty then ["-"] else paths)

def destination (t : FileTree) (source target : String) : String :=
  if t.isDirectory target then Path.join target (lastPart source) else target

def relocate (t : FileTree) (old new : Location) : FileTree :=
  let moved := t.entries.filterMap fun (l, e) =>
    if old.isPrefixOf l then some (new ++ l.drop old.length, e) else none
  moved.foldl (fun t (l, e) => t.set l e) (t.erase old)

def copyFile (source target : String) : Session Nat := do
  let t := (← get).files
  match t.lookup source with
  | .error f => copy.fail s!"cannot stat '{source}': {f.reason}"
  | .ok .directory => copy.fail s!"-r not specified; omitting directory '{source}'"
  | .ok (.file bytes x) =>
    let path := destination t source target
    let new := !(t.lookup path).toBool
    copy.change s!"cannot create regular file '{path}'" fun t => do
      let t ← t.write path bytes
      let l := (← t.locate path).location
      return if new then t.set l (.file bytes x) else t

def moveEntry (source target : String) : Session Nat := do
  let t := (← get).files
  match t.lookup source with
  | .error f => move.fail s!"cannot stat '{source}': {f.reason}"
  | .ok _ =>
    let path := destination t source target
    move.change s!"cannot move '{source}' to '{path}'" fun t => do
      return relocate t (← t.locate source).location (← t.locate path).location

def transfer (u : Utility) (f : String → String → Session Nat) (paths : List String) :
    Session Nat := do
  match paths.reverse with
  | [] => u.misused "missing file operand"
  | [path] => u.misused s!"missing destination file operand after '{path}'"
  | target :: sources => do
    if sources.length ≤ 1 then forEach (f · target) sources
    else
      match (← get).files.lookup target with
      | .ok .directory => forEach (f · target) sources.reverse
      | .ok (.file ..) => u.fail s!"target '{target}': {FileFault.notDirectory.reason}"
      | .error fault => u.fail s!"target '{target}': {fault.reason}"

def removePath (flags : List Char) (path : String) : Session Nat := do
  let t := (← get).files
  let failure := s!"cannot remove '{path}'"
  match t.lookup path with
  | .error f =>
    if flags.contains 'f' && f == .notFound then return 0
    else remove.fail s!"{failure}: {f.reason}"
  | .ok .directory =>
    if flags.contains 'r' || flags.contains 'R' then
      remove.change failure fun t => do return t.erase (← t.locate path).location
    else remove.fail s!"{failure}: {FileFault.isDirectory.reason}"
  | .ok (.file ..) => remove.change failure (·.removeFile path)

def makePath (flags : List Char) (path : String) : Session Nat :=
  makeDirectory.change s!"cannot create directory '{path}'" fun t =>
    if flags.contains 'p' then t.withDirectories path else t.createDirectory path

def touchPath (path : String) : Session Nat := do
  if ((← get).files.lookup path).toBool then return 0
  touch.change s!"cannot touch '{path}'" (·.write path [])

def lines : List UInt8 → List (List UInt8)
  | [] => []
  | b :: r =>
    if b == 10 then [b] :: lines r
    else
      match lines r with
      | [] => [[b]]
      | l :: ls => (b :: l) :: ls

structure Portion where
  bytes : Bool := false
  fromStart : Bool := false
  amount : Nat := 10
  paths : List String := []

def Portion.parse : Portion → List String → Portion
  | p, [] => p
  | p, w :: r =>
    let number (bytes : Bool) (cs : List Char) : Portion :=
      let digits := if cs.head?.any Char.isDigit then cs else cs.drop 1
      { p with
        bytes, fromStart := cs.head? == some '+'
        amount := (Arithmetic.digits? 10 digits).getD 0 }
    match w.toList, r with
    | ['-', 'c'], v :: r => (number true v.toList).parse r
    | ['-', 'n'], v :: r => (number false v.toList).parse r
    | '-' :: 'c' :: cs, r => (number true cs).parse r
    | '-' :: 'n' :: cs, r => (number false cs).parse r
    | '-' :: c :: cs, r =>
      if c.isDigit then (number false (c :: cs)).parse r else p.parse r
    | _, r => { p with paths := p.paths ++ [w] : Portion }.parse r

def Portion.cut {α : Type} (p : Portion) (start : Bool) (xs : List α) : List α :=
  if start then xs.take p.amount
  else if p.fromStart then xs.drop (p.amount - 1)
  else xs.drop (xs.length - p.amount)

def Portion.apply (p : Portion) (start : Bool) (bytes : List UInt8) : List UInt8 :=
  if p.bytes then p.cut start bytes else (p.cut start (lines bytes)).flatten

def portion (u : Utility) (arguments : List String) : Session Nat :=
  let p := Portion.parse {} arguments
  u.filter (fun path => s!"cannot open '{path}' for reading")
    (fun _ bytes => p.apply (u == head) bytes) p.paths

def countWords : Bool → List UInt8 → Nat
  | _, [] => 0
  | inside, b :: r =>
    let blank := b == 32 || (9 ≤ b && b ≤ 13)
    (if !blank && !inside then 1 else 0) + countWords (!blank) r

def counts (flags : List Char) (path : String) (bytes : List UInt8) : List UInt8 :=
  let wanted (c : Char) : Bool := flags.isEmpty || flags.contains c
  let numbers := (if wanted 'l' then [bytes.count 10] else []) ++
    (if wanted 'w' then [countWords false bytes] else []) ++
    (if wanted 'c' then [bytes.length] else [])
  let shown (n : Nat) : String :=
    let digits := toString n
    let width :=
      if numbers.length == 1 then 0
      else if path == "-" then 7
      else (toString bytes.length).length
    "".pushn ' ' (width - digits.length) ++ digits
  let name := if path == "-" then [] else [path]
  Text.Utf8.encode (" ".intercalate (numbers.map shown ++ name) ++ "\n")

def integer? (s : String) : Option Int :=
  match s.toList with
  | [] => none
  | ['-'] => none
  | '-' :: cs => (Arithmetic.digits? 10 cs).map fun n => -(n : Int)
  | cs => (Arithmetic.digits? 10 cs).map Int.ofNat

def sequenceText (first last : Int) : String :=
  let line (i : Nat) : String := toString (first + i) ++ "\n"
  String.join ((List.range (last - first + 1).toNat).map line)

def runSequence (arguments : List String) : Session Nat := do
  match arguments.mapM integer? with
  | some [last] => Session.write 1 (sequenceText 1 last); return 0
  | some [first, last] => Session.write 1 (sequenceText first last); return 0
  | _ =>
    let first := arguments.headD ""
    sequence.misused s!"invalid floating point argument: '{first}'"

/-- Microseconds of a time such as `5`, `0.25` or `1m`. -/
def duration? (s : String) : Option Nat := do
  let cs := s.toList
  let unit := match cs.getLast? with
    | some 'm' => 60
    | some 'h' => 3600
    | some 'd' => 86400
    | _ => 1
  let cs := if cs.getLast?.any fun c => "smhd".toList.contains c then cs.dropLast else cs
  let whole := cs.takeWhile (· != '.')
  let places := ((cs.dropWhile (· != '.')).drop 1).take 6
  if whole.isEmpty && places.isEmpty then none
  let places := places ++ List.replicate (6 - places.length) '0'
  return unit * (1000000 * (← Arithmetic.digits? 10 whole) + (← Arithmetic.digits? 10 places))

def runSleep (arguments : List String) : Session Nat := do
  match arguments.mapM duration? with
  | some (d :: ds) =>
    Session.spend (ds.foldl (· + ·) d)
    return 0
  | some [] => sleep.misused "missing operand"
  | none =>
    let first := arguments.headD ""
    sleep.misused s!"invalid time interval '{first}'"

def runBaseName (arguments : List String) : Session Nat := do
  match arguments with
  | [path] => Session.write 1 (lastPart path ++ "\n"); return 0
  | [path, ending] =>
    let name := lastPart path
    let cut :=
      if name.endsWith ending && name != ending then (name.dropEnd ending.length).toString
      else name
    Session.write 1 (cut ++ "\n")
    return 0
  | _ => baseName.misused "missing operand"

def front (path : String) : String :=
  let trimmed := (path.toList.reverse.dropWhile (· == '/')).dropWhile (· != '/')
  let cs := (trimmed.dropWhile (· == '/')).reverse
  if !cs.isEmpty then .ofList cs
  else if path.startsWith "/" then "/"
  else "."

def listPath (path : String) : Session Nat := do
  let t := (← get).files
  let line (name : String) : String := name ++ "\n"
  match t.lookup path, t.locate path with
  | .ok (.file ..), _ => Session.write 1 (line path); return 0
  | .ok .directory, .ok target =>
    let names := (t.children target.location).filter fun name => name.toList.head? != some '.'
    Session.write 1 (String.join (names.map line))
    return 0
  | .error f, _ | _, .error f =>
    let _ ← list.fail s!"cannot access '{path}': {f.reason}"
    return 2

def runEcho (arguments : List String) : Session Nat := do
  match arguments with
  | "-n" :: r => Session.write 1 (" ".intercalate r)
  | r => Session.write 1 (" ".intercalate r ++ "\n")
  return 0

def runPrintf (arguments : List String) : Session Nat := do
  match arguments with
  | [] => printf.misused "missing operand"
  | format :: arguments =>
    let p := Format.printf (arguments.length + 1) format.toList arguments
    Session.writeBytes 1 p.bytes
    forEach (fun w => printf.fail s!"'{w}': expected a numeric value") p.wrong

def run (u : Utility) (arguments : List String) : Session Nat := do
  let (flags, paths) := splitFlags arguments
  match u with
  | cat => cat.filter id (fun _ bytes => bytes) paths
  | copy => copy.transfer copyFile paths
  | move => move.transfer moveEntry paths
  | remove => forEach (removePath flags) paths
  | makeDirectory => forEach (makePath flags) paths
  | touch => forEach touchPath paths
  | head => head.portion arguments
  | tail => tail.portion arguments
  | count => count.filter id (counts flags) paths
  | sequence => runSequence arguments
  | sleep => runSleep arguments
  | baseName => runBaseName arguments
  | directoryName =>
    forEach (fun path => do Session.write 1 (front path ++ "\n"); return 0) arguments
  | list => forEach listPath (if paths.isEmpty then ["."] else paths)
  | echo => runEcho arguments
  | printf => runPrintf arguments
  | true_ => return 0
  | false_ => return 1

end Utility

end ShaderBuild.Shell
