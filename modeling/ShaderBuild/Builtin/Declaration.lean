import ShaderBuild.Yaml.Value

namespace ShaderBuild.Builtin

open Yaml (Value)

structure Declaration where
  entryPoint : String
  stage : String
  defines : List String
deriving DecidableEq, Repr, Inhabited

namespace Declaration

inductive Fault
  | wrongType (found : Value) (wanted : String)
  | unknownField (name : String)
  | duplicateField (name : String)
  | missingField (name : String)
  | wrongDefines
  | labelledDefines

def Fault.message : Fault → String
  | wrongType v wanted => s!"invalid type: {v.describe}, expected {wanted}"
  | unknownField name =>
    s!"unknown field \x60{name}\x60, expected one of \x60entrypoint\x60, \x60stage\x60, " ++
      "\x60defines\x60"
  | duplicateField name => s!"duplicate field \x60{name}\x60"
  | missingField name => s!"missing field \x60{name}\x60"
  | wrongDefines => "data did not match any variant of untagged enum RawDefines"
  | labelledDefines => "untagged and internally tagged enums do not support enum input"

structure Fields where
  entryPoint : Option String := none
  stage : Option String := none
  defines : Option (List String) := none

def text (v : Value) (wanted : String) : Except Fault String :=
  match v.bare with
  | .text s => .ok s
  | v => .error (.wrongType v wanted)

def definesOf (v : Value) : Except Fault (List String) :=
  let item : Value → Except Fault String
    | .text s => .ok s
    | _ => .error .wrongDefines
  if v.hasLabel then .error .labelledDefines
  else
    match v with
    | .null => .ok []
    | .text s => .ok [s]
    | .sequence items => items.mapM item
    | _ => .error .wrongDefines

def Fields.add (fs : Fields) (key value : Value) : Except Fault Fields := do
  match ← text key "field identifier" with
  | "entrypoint" =>
    if fs.entryPoint.isSome then .error (.duplicateField "entrypoint")
    return { fs with entryPoint := some (← text value "a string") }
  | "stage" =>
    if fs.stage.isSome then .error (.duplicateField "stage")
    return { fs with stage := some (← text value "a string") }
  | "defines" =>
    if fs.defines.isSome then .error (.duplicateField "defines")
    return { fs with defines := some (← definesOf value) }
  | name => .error (.unknownField name)

/-- Read a declaration. Nothing counts as one without fields. -/
def ofValue (v : Value) : Except Fault Declaration := do
  let entries ← match v.bare with
    | .mapping entries => .ok entries
    | .null => .ok []
    | v => .error (.wrongType v "struct RawDeclaration")
  let fs ← entries.foldlM (fun fs (k, v) => fs.add k v) ({} : Fields)
  match fs.entryPoint, fs.stage with
  | some entryPoint, some stage => return { entryPoint, stage, defines := fs.defines.getD [] }
  | none, _ => .error (.missingField "entrypoint")
  | some _, none => .error (.missingField "stage")

end Declaration

end ShaderBuild.Builtin
