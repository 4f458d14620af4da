import ShaderBuild.Decimal.Shortest
import ShaderBuild.Signal
import ShaderBuild.Text.Basic
import ShaderBuild.Workspace

namespace ShaderBuild

inductive ExitStatus
  | exited (code : Nat)
  | signaled (number : Nat)
deriving DecidableEq, Repr, Inhabited

namespace ExitStatus

def isSuccess (s : ExitStatus) : Bool := s == exited 0

def text : ExitStatus → String
  | exited n => s!"exit status: {n}"
  | signaled n =>
    match Signal.ofNumber? n with
    | some x => s!"signal: {n} (SIG{x.name})"
    | none => s!"signal: {n}"

end ExitStatus

/-- What a program leaves behind. -/
structure Finished where
  status : ExitStatus
  stdout : String
  stderr : String
deriving DecidableEq, Repr, Inhabited

def Finished.diagnostics (r : Finished) : String :=
  "\n".intercalate ([Text.trim r.stdout, Text.trim r.stderr].filter (· != ""))

/-- What programs are started with. Times are milliseconds, and every step may change the files. -/
structure System where
  Process : Type
  /-- Start a program with arguments: the time that this takes and the process, or why there is
  none. -/
  start (program : String) (arguments : List String) (now : Nat) :
    StateM FileTree (Nat × Except String Process)
  /-- What a process has left behind, if it has ended, or why nobody knows. -/
  poll (p : Process) (now : Nat) : StateM FileTree (Except String (Option Finished))
  kill (p : Process) (now : Nat) : StateM FileTree Unit

inductive LaunchError
  | launch (program fault : String)
  | lost (program fault : String)
  | overtime (program seconds : String)

namespace LaunchError

def message : LaunchError → String
  | launch program fault => s!"Cannot launch '{program}': {fault}"
  | lost program fault => s!"Cannot wait for '{program}': {fault}"
  | overtime program seconds => s!"'{program}' did not finish within {seconds} s and was killed"

def toError : LaunchError → Error
  | e@(launch ..) => ⟨.configuration, .process, e.message⟩
  | e@(lost ..) => ⟨.io, .process, e.message⟩
  | e@(overtime ..) => ⟨.timeout, .process, e.message⟩

instance : Coe LaunchError Error := ⟨toError⟩

end LaunchError

namespace Launch

open Decimal

def interval : Nat := 10

def nearest (num den : Nat) : Magnitude := (single.round? num den).getD ⟨0, single.least⟩

/-- Seconds in single precision; the whole part and the rest are rounded before they are added. -/
def seconds (milliseconds : Nat) : Magnitude :=
  let whole := nearest (milliseconds / 1000) 1
  let rest := nearest (milliseconds % 1000) 1000
  let (a, b) := scaleTwo whole.significand 1 whole.exponent
  let (c, d) := scaleTwo rest.significand 1 rest.exponent
  nearest (a * d + c * b) (b * d)

def secondsText (milliseconds : Nat) : String :=
  (shortest single (seconds milliseconds)).positional

def lastSecond : Nat := UInt64.size / 2 - 1

/-- The time at which a program is out of time, if the clock can show it. -/
def deadline? (now timeout : Nat) : Option Nat :=
  if (now + timeout) / 1000 ≤ lastSecond then some (now + timeout) else none

/-- What a build breaks down with where there is no deadline. -/
def beyondClock : String := "overflow when adding duration to instant"

variable (system : System)

def start (program : String) (arguments : List String) : Build system.Process := do
  let w ← getThe Workspace
  let ((time, result), files) := (system.start program arguments w.clock).run w.files
  set { w with files, clock := w.clock + time }
  match result with
  | .ok p => return p
  | .error fault => Logged.attempt (refuse (LaunchError.launch program fault))

/-- Look at a process in intervals until it has ended or its time is over, and end it then. -/
def await (program : String) (timeout : Nat) (p : system.Process) (deadline : Nat)
    (w : Workspace) : Except LaunchError Finished × Workspace :=
  let (found, files) := (system.poll p w.clock).run w.files
  let killed := { w with files := ((system.kill p w.clock).run files).2 }
  match found with
  | .ok (some r) => (.ok r, { w with files })
  | .error fault => (.error (.lost program fault), killed)
  | .ok none =>
    if deadline ≤ w.clock then (.error (.overtime program (secondsText timeout)), killed)
    else await program timeout p deadline { w with files, clock := w.clock + interval }
termination_by deadline - w.clock
decreasing_by
  simp only [interval]
  omega

/-- Run a program with arguments for at most some milliseconds, counted from when it has been
started. -/
def run (program : String) (arguments : List String) (timeout : Nat) : Build Finished := do
  let p ← start system program arguments
  let w ← getThe Workspace
  match deadline? w.clock timeout with
  | none => throw (Failure.breakdown beyondClock)
  | some deadline =>
    let (result, w) := await system program timeout p deadline w
    set w
    match result with
    | .ok r => return r
    | .error e => Logged.attempt (refuse e)

end Launch

end ShaderBuild
