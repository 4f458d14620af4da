import ShaderBuild.FileTree.Basic
import ShaderBuild.Shell.Script

namespace ShaderBuild.Shell

inductive Channel
  | pipe (number : Nat)
  | file (location : Location)
  | nowhere
deriving DecidableEq, Repr, Inhabited

inductive Stop
  | exit (status : Nat)
  | killed (signal : Nat)
  | expired
  /-- Out of so many loops, or on with the last of them. -/
  | leave (loops : Nat)
  | again (loops : Nat)
  | returned (status : Nat)
deriving DecidableEq, Repr, Inhabited

structure State where
  files : FileTree
  /-- Microseconds since the start, and how many there may be. -/
  clock : Nat := 0
  limit : Nat
  process : Nat
  name : String
  arguments : List String
  values : List (String × String) := []
  exported : List String := []
  functions : List (String × Command) := []
  hidden : List (String × Option String) := []
  status : Nat := 0
  /-- Whether a failure ends the script, and whether the failure of this command does not count. -/
  strict : Bool := false
  tested : Bool := false
  loops : Nat := 0
  atExit : Option String := none
  descriptors : List (Nat × Channel)
  pipes : Array (List (List UInt8))
  input : List UInt8 := []
deriving Inhabited

namespace State

/-- The state after a process that is done: files, output and time stay. -/
def settle (before after : State) : State :=
  { before with
    files := { after.files with home := before.files.home }
    clock := after.clock, status := after.status, pipes := after.pipes }

def drained (s : State) (pipe : Nat) : List UInt8 :=
  ((s.pipes[pipe]?).getD []).reverse.flatten

end State

abbrev Session := ExceptT Stop (StateM State)

namespace Session

def spend (microseconds : Nat) : Session Unit := do
  modify fun s => { s with clock := s.clock + microseconds }
  let s ← get
  if s.limit < s.clock then throw Stop.expired

def commandTime : Nat := 5

def programTime : Nat := 1000

def appendFile (t : FileTree) (l : Location) (bytes : List UInt8) : FileTree :=
  match t.get? l with
  | some (.file old x) => t.set l (.file (old ++ bytes) x)
  | _ => t

def writeBytes (descriptor : Nat) (bytes : List UInt8) : Session Unit :=
  modify fun s =>
    match s.descriptors.lookup descriptor with
    | some (.pipe n) => { s with pipes := s.pipes.modify n (bytes :: ·) }
    | some (.file l) => { s with files := appendFile s.files l bytes }
    | _ => s

def write (descriptor : Nat) (text : String) : Session Unit :=
  writeBytes descriptor (Text.Utf8.encode text)

def complain (line : Nat) (message : String) : Session Unit := do
  write 2 s!"{(← get).name}: {line}: {message}\n"

def abort {α : Type} (line : Nat) (message : String) : Session α := do
  complain line message
  throw (Stop.exit 2)

def setStatus (n : Nat) : Session Unit := modify fun s => { s with status := n }

def setValue (name value : String) : Session Unit :=
  modify fun s => { s with values := (name, value) :: s.values.filter (·.1 != name) }

def join (separator : String) (ws : List String) : String := separator.intercalate ws

def reveal (hidden : List (String × Option String)) : Session Unit :=
  modify fun s =>
    let back (vs : List (String × String)) (name : String) (value : Option String) :=
      value.toList.map (name, ·) ++ vs.filter (·.1 != name)
    { s with values := hidden.foldl (fun vs (name, value) => back vs name value) s.values }

def value? (name : String) : Session (Option String) := do
  let s ← get
  match name with
  | "@" | "*" => return some (join " " s.arguments)
  | "#" => return some (toString s.arguments.length)
  | "?" => return some (toString s.status)
  | "$" => return some (toString s.process)
  | "0" => return some s.name
  | "!" | "-" => return some ""
  | _ =>
    match name.toNat? with
    | some n => return s.arguments[n - 1]?
    | none => return s.values.lookup name

/-- Do something in a process of its own. -/
def isolated (x : Session Unit) : Session Unit := do
  let before ← get
  let finish (status : Option Nat) : Session Unit :=
    modify fun s => { before.settle s with status := status.getD s.status }
  try
    x
    finish none
  catch
    | .exit n | .returned n => finish (some n)
    | .leave _ | .again _ => finish none
    | stop => throw stop

def captured (x : Session Unit) : Session (List UInt8) := do
  let before ← get
  let pipe := before.pipes.size
  set { before with
    descriptors := (1, .pipe pipe) :: before.descriptors.filter (·.1 != 1)
    pipes := before.pipes.push [] }
  x
  let s ← get
  set { s with descriptors := before.descriptors, pipes := s.pipes.take pipe }
  return s.drained pipe

def iterate {α : Type} (step : α → Session (α × Bool)) : Nat → α → Session α
  | 0, _ => throw Stop.expired
  | n + 1, a => do
    let (a, more) ← step a
    if more then iterate step n a else return a

def loopBody (body : Session Unit) : Session Bool := do
  modify fun s => { s with loops := s.loops + 1 }
  let leave : Session Unit := modify fun s => { s with loops := s.loops - 1 }
  try
    body
    leave
    return true
  catch stop =>
    leave
    match stop with
    | .leave n => if n ≤ 1 then return false else throw (Stop.leave (n - 1))
    | .again n => if n ≤ 1 then return true else throw (Stop.again (n - 1))
    | stop => throw stop

def testing (x : Session Unit) : Session Unit := do
  let before ← get
  set { before with tested := true }
  x
  modify fun s => { s with tested := before.tested }

/-- End a strict script if the last command failed. -/
def checkStrict : Session Unit := do
  let s ← get
  if s.strict && !s.tested && s.status != 0 then throw (Stop.exit s.status)

end Session

end ShaderBuild.Shell
