import ShaderBuild.Error

namespace ShaderBuild

inductive Severity
  | trace | debug | info | warn | error
deriving DecidableEq, Repr, Inhabited

namespace Severity

def all : List Severity := [trace, debug, info, warn, error]

def rank : Severity → Nat
  | trace => 0
  | debug => 1
  | info => 2
  | warn => 3
  | error => 4

def name : Severity → String
  | trace => "Trace"
  | debug => "Debug"
  | info => "Info"
  | warn => "Warn"
  | error => "Error"

def ofName? (s : String) : Option Severity := all.find? (·.name == s)

def label : Severity → String
  | trace => "TRACE"
  | debug => "DEBUG"
  | info => "INFO "
  | warn => "WARN "
  | error => "ERROR"

end Severity

structure Entry where
  severity : Severity
  source : String
  message : String
  location : Option (String × Nat) := none
deriving DecidableEq, Repr, Inhabited

def Entry.line (time : String) (e : Entry) : String :=
  let text := s!"[{time}] [{e.severity.label}] [{e.source}] {e.message}"
  match e.location with
  | some (file, line) => s!"{text} ({file}:{line})"
  | none => text

/-- Warnings and errors go to the error stream, the rest to standard output. -/
def Entry.isAlert (e : Entry) : Bool := Severity.warn.rank ≤ e.severity.rank

structure Journal where
  floor : Severity := .trace
  entries : Array Entry := #[]
deriving Repr, Inhabited

namespace Journal

def admits (j : Journal) (s : Severity) : Bool := j.floor.rank ≤ s.rank

def record (j : Journal) (e : Entry) : Journal :=
  if j.admits e.severity then { j with entries := j.entries.push e } else j

end Journal

def Error.entry (e : Error) : Entry := ⟨.error, e.component.tag, e.message, none⟩

/-- A computation that may fail and keeps a journal, also when it fails. -/
abbrev Logged := ExceptT Error (StateM Journal)

namespace Logged

def note (severity : Severity) (component : Component) (message : String) : Logged Unit :=
  modify (·.record ⟨severity, component.tag, message, none⟩)

def notes (entries : List Entry) : Logged Unit :=
  modify fun j => entries.foldl Journal.record j

/-- Take over a result, recording its failure. -/
def attempt {α : Type} : Except Error α → Logged α
  | .ok a => pure a
  | .error e => do
    modify (·.record e.entry)
    throw e

def start {α : Type} (x : Logged α) (floor : Severity) : Except Error α × Journal :=
  x.run.run ⟨floor, #[]⟩

end Logged

end ShaderBuild
