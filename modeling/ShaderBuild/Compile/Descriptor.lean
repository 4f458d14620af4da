import ShaderBuild.Error
import ShaderBuild.Path
import ShaderBuild.Stage
import ShaderBuild.Text.Basic

namespace ShaderBuild

structure Descriptor where
  input : String
  output : String
  scratch : String
  entryPoint : String
  stage : Stage
  platform : Platform
  api : Api
  defines : List String
  reflection : Bool
deriving DecidableEq, Repr, Inhabited

/-- One compilation as far as it is known. -/
structure Request where
  input : Option String := none
  output : Option String := none
  scratch : Option String := none
  entryPoint : Option String := none
  stage : Option Stage := none
  platform : Option Platform := none
  api : Option Api := none
  defines : List String := []
  reflection : Bool := false
deriving DecidableEq, Repr, Inhabited

inductive RequestError
  | noEntryPoint
  | noInput
  | noOutput
  | noStage
  | noApi
  | emptyDefine (index : Nat) (input : String)

namespace RequestError

def message : RequestError → String
  | noEntryPoint => "no entry point specified"
  | noInput => "no input file specified"
  | noOutput => "no output file specified"
  | noStage => "no shader stage specified"
  | noApi => "no graphics API specified"
  | emptyDefine i input => s!"define #{i} for '{input}' is empty"

def toError (e : RequestError) : Error := ⟨.configuration, .descriptor, e.message⟩

instance : Coe RequestError Error := ⟨toError⟩

end RequestError

/-- The directory for intermediate files when none is given. -/
def defaultScratch : String := "/tmp"

namespace Request

/-- A descriptor needs an entry point that is not blank, an input, an output, a stage, an API, and
defines that are not blank. -/
def build (r : Request) : Except Error Descriptor := do
  let entryPoint ← need (r.entryPoint.filter (!Text.isAllBlank ·)) RequestError.noEntryPoint
  let input ← need (r.input.filter (· != "")) RequestError.noInput
  let output ← need (r.output.filter (· != "")) RequestError.noOutput
  let stage ← need r.stage RequestError.noStage
  let api ← need r.api RequestError.noApi
  match r.defines.findIdx? Text.isAllBlank with
  | some i => refuse (RequestError.emptyDefine i input)
  | none =>
    return {
      input, output, entryPoint, stage, api
      scratch := r.scratch.getD defaultScratch
      platform := r.platform.getD .current
      defines := r.defines
      reflection := r.reflection }

end Request

def Descriptor.binaryName (d : Descriptor) : String := (Path.stem? d.output).getD ""

/-- A define cut at its first `=` into a name and a value, both trimmed. -/
def splitDefine (define : String) : String × Option String :=
  let cs := define.toList
  let name := Text.trim (.ofList (cs.takeWhile (· != '=')))
  match cs.dropWhile (· != '=') with
  | [] => (name, none)
  | _ :: r => (name, some (Text.trim (.ofList r)))

end ShaderBuild
