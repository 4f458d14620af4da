import ShaderBuild.Builtin.Declaration
import ShaderBuild.Code.Reserved
import ShaderBuild.Journal
import ShaderBuild.Path
import ShaderBuild.Stage
import ShaderBuild.Text.Basic

namespace ShaderBuild.Builtin

open Yaml (Value)

structure Shader where
  name : String
  entryPoint : String
  stage : Stage
  defines : List String
  source : String
deriving DecidableEq, Repr, Inhabited

structure Manifest where
  path : String
  source : String
  shaders : List Shader
deriving DecidableEq, Repr, Inhabited

inductive ManifestFault
  | malformed (path : String) (fault : Yaml.Fault)
  | notMapping (path : String)
  | nameNotText (path : String)
  | nameWithBlank (path name : String)
  | nameNotIdentifier (path name : String)
  | nameReserved (path name : String)
  | malformedShader (path name : String) (fault : Declaration.Fault)
  | unknownStage (path name stage : String)
  | emptyEntryPoint (path name : String)
  | declaredTwice (name first second : String)

namespace ManifestFault

def message : ManifestFault → String
  | malformed path f => s!"Malformed manifest '{path}': {f.message}"
  | notMapping path => s!"Manifest '{path}' must map shader names to declarations"
  | nameNotText path => s!"Manifest '{path}' has a non-string shader name"
  | nameWithBlank path name =>
    s!"Shader name '{name}' in '{path}' contains a space. Did you miss a ':'?"
  | nameNotIdentifier path name => s!"Shader name '{name}' in '{path}' is not a valid identifier"
  | nameReserved path name => s!"Shader name '{name}' in '{path}' is reserved in generated code"
  | malformedShader path name f => s!"Shader '{name}' in '{path}' is malformed: {f.message}"
  | unknownStage path name stage => s!"Shader '{name}' in '{path}' has unknown stage '{stage}'"
  | emptyEntryPoint path name => s!"Shader '{name}' in '{path}' has an empty entrypoint"
  | declaredTwice name first second =>
    s!"Shader '{name}' is declared in both '{first}' and '{second}'"

def toError (f : ManifestFault) : Error := ⟨.configuration, .manifest, f.message⟩

end ManifestFault

def sourcePath (manifest : String) : String := Path.withExtension manifest "hlsl"

def checkName (path name : String) : Except ManifestFault Unit :=
  if name.toList.any Text.isBlank then .error (.nameWithBlank path name)
  else if !Text.isIdentifier name then .error (.nameNotIdentifier path name)
  else if Code.isReserved name then .error (.nameReserved path name)
  else .ok ()

def Shader.ofEntry (path : String) (key value : Value) : Except ManifestFault Shader := do
  let name ← match key.bare with
    | .text s => .ok s
    | _ => .error (.nameNotText path)
  checkName path name
  let d ← (Declaration.ofValue value).mapError (.malformedShader path name)
  match Stage.ofName? d.stage with
  | none => .error (.unknownStage path name d.stage)
  | some stage =>
    if Text.isAllBlank d.entryPoint then .error (.emptyEntryPoint path name)
    else return ⟨name, d.entryPoint, stage, d.defines, sourcePath path⟩

namespace Manifest

/-- Read a manifest; a document without content declares nothing. -/
def parse (path text : String) : Except ManifestFault Manifest := do
  let entries ← match ← (Value.ofText text).mapError (.malformed path) with
    | .null => .ok []
    | .mapping entries => .ok entries
    | _ => .error (.notMapping path)
  return ⟨path, sourcePath path, ← entries.mapM fun (k, v) => Shader.ofEntry path k v⟩

end Manifest

/-- The first name that a list of manifests declares twice, given the names before it. -/
def findDuplicate? (before : List (String × String)) :
    List (String × String) → Option ManifestFault
  | [] => none
  | (name, path) :: r =>
    match before.lookup name with
    | some first => some (.declaredTwice name first path)
    | none => findDuplicate? (before ++ [(name, path)]) r

def declaredNames (ms : List Manifest) : List (String × String) :=
  ms.flatMap fun m => m.shaders.map fun s => (s.name, m.path)

def checkUniqueNames (ms : List Manifest) : Except ManifestFault Unit :=
  match findDuplicate? [] (declaredNames ms) with
  | none => .ok ()
  | some f => .error f

end ShaderBuild.Builtin
