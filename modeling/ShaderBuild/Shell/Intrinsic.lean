import ShaderBuild.Shell.Format
import ShaderBuild.Signal
import ShaderBuild.Shell.State
import ShaderBuild.Shell.Test

namespace ShaderBuild.Shell.Intrinsic

abbrev Action := Nat → List String → Session Nat

def natural? (s : String) : Option Nat :=
  if s.isEmpty then none else Arithmetic.digits? 10 s.toList

def illegalNumber {α : Type} (name : String) (line : Nat) (s : String) : Session α :=
  Session.abort line s!"{name}: Illegal number: {s}"

def numberOr (name : String) (line : Nat) (default : Nat) : List String → Session Nat
  | [] => return default
  | s :: _ =>
    match natural? s with
    | some n => return n
    | none => illegalNumber name line s

def echo : Action := fun _ arguments => do
  Session.writeBytes 1 (Format.echo arguments)
  return 0

def printf : Action := fun line arguments => do
  match if arguments.head? == some "--" then arguments.tail else arguments with
  | [] => Session.abort line "printf: usage: printf format [arg ...]"
  | format :: arguments =>
    let p := Format.printf (arguments.length + 1) format.toList arguments
    for w in p.wrong do
      Session.complain line s!"printf: {w}: expected numeric value"
    Session.writeBytes 1 p.bytes
    return if p.wrong.isEmpty then 0 else 1

def test : Action := fun line arguments => do
  match Test.holds (← get).files arguments with
  | .ok b => return if b then 0 else 1
  | .error message =>
    Session.complain line s!"test: {message}"
    return 2

def bracket : Action := fun line arguments => do
  if arguments.getLast? != some "]" then
    Session.complain line "[: missing ]"
    return 2
  match Test.holds (← get).files arguments.dropLast with
  | .ok b => return if b then 0 else 1
  | .error message =>
    Session.complain line s!"[: {message}"
    return 2

def signal? (s : String) : Option Signal :=
  match natural? s with
  | some n => Signal.ofNumber? n
  | none => Signal.ofName? s

def killArguments : List String → Option String × List String
  | "-s" :: name :: r => (some name, r)
  | w :: r =>
    match w.toList with
    | '-' :: c :: cs => (some (.ofList (c :: cs)), r)
    | _ => (none, w :: r)
  | [] => (none, [])

def killUsage : String :=
  "kill: Usage: kill [-s sigspec | -signum | -sigspec] [pid | job]... or\nkill -l [exitstatus]"

/-- The only process that a script knows is its own. -/
def kill : Action := fun line arguments => do
  let (name, targets) := killArguments arguments
  let s ← get
  let wanted := name.getD "TERM"
  if targets.isEmpty then
    Session.complain line killUsage
    return 2
  if wanted == "0" then return 0
  match signal? wanted with
  | none =>
    Session.complain line s!"kill: invalid signal number or name: {wanted}"
    return 2
  | some x =>
    if targets.contains (toString s.process) then
      match x.effect with
      | .ends => throw (Stop.killed x.number)
      | .stops => throw Stop.expired
      | .nothing => return 0
    else
      Session.complain line "kill: No such process\n"
      return 1

def exit : Action := fun line arguments => do
  throw (Stop.exit ((← numberOr "exit" line (← get).status arguments) % 256))

def return_ : Action := fun line arguments => do
  throw (Stop.returned ((← numberOr "return" line (← get).status arguments) % 256))

def leaveLoops (name : String) (stop : Nat → Stop) : Action := fun line arguments => do
  let n ← numberOr name line 1 arguments
  let loops := (← get).loops
  if loops = 0 then return 0
  Session.setStatus 0
  throw (stop (min n loops))

def trap : Action := fun _ arguments => do
  match arguments with
  | script :: signals =>
    if signals.contains "EXIT" || signals.contains "0" then
      modify fun s => { s with atExit := if script == "-" then none else some script }
  | [] => pure ()
  return 0

def shift : Action := fun line arguments => do
  let n ← numberOr "shift" line 1 arguments
  let s ← get
  if s.arguments.length < n then Session.abort line "shift: can't shift that many"
  set { s with arguments := s.arguments.drop n }
  return 0

/-- Turn options on or off; what follows them becomes the arguments of the script. -/
def setOptions : List String → Session Unit
  | [] => pure ()
  | w :: r => do
    match w.toList with
    | ['-', '-'] => modify fun s => { s with arguments := r }
    | '-' :: c :: cs =>
      if (c :: cs).contains 'e' then modify fun s => { s with strict := true }
      setOptions r
    | '+' :: c :: cs =>
      if (c :: cs).contains 'e' then modify fun s => { s with strict := false }
      setOptions r
    | _ => modify fun s => { s with arguments := w :: r }

def splitSetting (s : String) : String × Option String :=
  let cs := s.toList
  let name := String.ofList (cs.takeWhile (· != '='))
  match cs.dropWhile (· != '=') with
  | [] => (name, none)
  | _ :: value => (name, some (.ofList value))

def setNames (exported : Bool) (arguments : List String) : Session Unit :=
  arguments.forM fun a => do
    let (name, value) := splitSetting a
    match value with
    | some v => Session.setValue name v
    | none => pure ()
    if exported then modify fun s => { s with exported := name :: s.exported }

def setLocals (arguments : List String) : Session Unit := do
  for a in arguments do
    let name := (splitSetting a).1
    modify fun s => { s with hidden := (name, s.values.lookup name) :: s.hidden }
  setNames false arguments

def unset (arguments : List String) : Session Unit :=
  arguments.forM fun a =>
    modify fun s => { s with
      values := s.values.filter (·.1 != a)
      functions := s.functions.filter (·.1 != a) }

def assign (words : List (List Char)) : List String → Session Unit
  | [] => pure ()
  | [name] => Session.setValue name (.ofList ([' '].intercalate words))
  | name :: names => do
    Session.setValue name (.ofList (words.headD []))
    assign words.tail names

def blankParts (cs : List Char) : List (List Char) :=
  (cs.splitBy fun a b => (a == ' ' || a == '\t') == (b == ' ' || b == '\t')).filter
    fun part => !part.all fun c => c == ' ' || c == '\t'

def read : Action := fun _ arguments => do
  let s ← get
  let line := s.input.takeWhile (· != 10)
  let rest := s.input.drop line.length
  set { s with input := rest.drop 1 }
  let cs := (Text.Utf8.decodeLossy line).toList
  let names := arguments.filter (· != "-r")
  let words := if s.values.lookup "IFS" == some "" then [cs] else blankParts cs
  assign words names
  return if rest.isEmpty then 1 else 0

def changeDirectory : Action := fun line arguments => do
  let path := arguments.headD "/"
  let s ← get
  let target : Option Location :=
    match s.files.locate path with
    | .ok target => if s.files.isDirectory path then some target.location else none
    | .error _ => none
  match target with
  | some l =>
    set { s with files := { s.files with home := l } }
    return 0
  | none =>
    Session.complain line s!"cd: can't cd to {path}"
    return 2

def printDirectory : Action := fun _ _ => do
  Session.write 1 ("/" ++ "/".intercalate (← get).files.home ++ "\n")
  return 0

def succeed (x : List String → Session Unit) : Action := fun _ arguments => do
  x arguments
  return 0

def find? (name : String) : Option Action :=
  match name with
  | ":" | "true" | "umask" | "wait" => some (succeed fun _ => pure ())
  | "false" => some fun _ _ => return 1
  | "echo" => some echo
  | "printf" => some printf
  | "test" => some test
  | "[" => some bracket
  | "kill" => some kill
  | "exit" => some exit
  | "return" => some return_
  | "break" => some (leaveLoops "break" .leave)
  | "continue" => some (leaveLoops "continue" .again)
  | "trap" => some trap
  | "shift" => some shift
  | "set" => some (succeed setOptions)
  | "export" => some (succeed (setNames true))
  | "readonly" => some (succeed (setNames false))
  | "local" => some (succeed setLocals)
  | "unset" => some (succeed unset)
  | "read" => some read
  | "cd" => some changeDirectory
  | "pwd" => some printDirectory
  | _ => none

end ShaderBuild.Shell.Intrinsic
