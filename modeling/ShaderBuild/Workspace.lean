import ShaderBuild.FileTree.Basic
import ShaderBuild.Journal

namespace ShaderBuild

structure Workspace where
  files : FileTree
  journal : Journal := {}
  /-- Milliseconds since the start. -/
  clock : Nat := 0
  /-- Tells this build from others that run at the same time. -/
  process : Nat := 1
deriving Repr, Inhabited

/-- Why a build ends early: an error, which is reported, or a breakdown, which nothing reports. -/
inductive Failure
  | error (e : Error)
  | breakdown (message : String)
deriving DecidableEq, Repr, Inhabited

abbrev Build := ExceptT Failure (StateM Workspace)

namespace Build

/-- Keep the journal of a step in the workspace. -/
def ofLogged {α : Type} (x : Logged α) : Build α := ExceptT.mk fun w =>
  let (result, journal) := x.run.run w.journal
  (result.mapError .error, { w with journal })

instance : MonadLift Logged Build := ⟨ofLogged⟩

def files : Build FileTree := return (← getThe Workspace).files

def change (action : FileTree → Except FileFault FileTree) (error : FileFault → Error) :
    Build Unit := do
  match action (← files) with
  | .ok t => modifyThe Workspace fun w => { w with files := t }
  | .error f => Logged.attempt (refuse (error f))

def consult {α : Type} (query : FileTree → Except FileFault α) (error : FileFault → Error) :
    Build α := do
  match query (← files) with
  | .ok a => return a
  | .error f => Logged.attempt (refuse (error f))

/-- Do something more about an error before it goes on. -/
def onError {α : Type} (x : Build α) (report : Error → Build Unit) : Build α :=
  tryCatch x fun f => do
    match f with
    | .error e => report e
    | .breakdown _ => pure ()
    throw f

end Build

end ShaderBuild
