import ShaderBuild.Builtin.Job
import ShaderBuild.Code.File

namespace ShaderBuild.Builtin

open Code

namespace Names

def typesFile : String := "BuiltinShaderTypes"

def dispatcherFile : String := "BuiltinShaders"

def apiFile (api : Api) : String := s!"{dispatcherFile}_{api.name}"

def shaderEnum : String := "BuiltinShaders"

def stageEnum : String := "ShaderStage"

def apiEnum : String := "GraphicsApi"

def record : String := "BuiltinShaderMetadata"

def missing : String := "BuiltinShaderMetadataInvalid"

def table : String := "BuiltinShaderMetadataTable"

def lookup : String := "GetBuiltinShaderMetadata"

def blob (shader : String) : String := s!"Bytecode_{shader}"

def instance_ (shader : String) : String := s!"{record}_{shader}"

end Names

def recordOf (name type entryPoint binaryName stage : String) (bytecode size : Code.Value) :
    InstanceDecl :=
  ⟨name, Names.record,
    [("name", .str type), ("entryPoint", .str entryPoint), ("uniqueBinaryName", .str binaryName),
      ("shaderStage", .enumVariant Names.stageEnum stage), ("bytecode", bytecode),
      ("bytecodeSize", size)]⟩

def shaderNames (vs : List Variant) : List String := (vs.map (·.name)).eraseDups

def typesFile (names : List String) : File where
  name := Names.typesFile
  headerOnly := false
  dependencies := [.std "cstdint"]
  items :=
    [.enum ⟨Names.shaderEnum, names⟩,
      .enum ⟨Names.stageEnum, Stage.all.map (·.name)⟩,
      .struct ⟨Names.record,
        [.plain "name" .str, .plain "entryPoint" .str, .plain "uniqueBinaryName" .str,
          .plain "shaderStage" (.enum Names.stageEnum), .plain "bytecode" .bytes,
          .plain "bytecodeSize" .uint32]⟩,
      .instance_ (recordOf Names.missing "" "" "" countVariant .noBlob (.uint 0))]

/-- The declarations of one variant: its bytes, if it has any, and its record. -/
def variantItems (v : Variant) : List Item :=
  let blob := Names.blob v.name
  let record := recordOf (Names.instance_ v.name) v.name v.entryPoint v.binaryName v.stage.name
  match v.bytecode with
  | some code =>
    [.blob ⟨blob, code.bytes⟩,
      .instance_ (record (.blob blob) (.blobLength blob (.ofNat code.size)))]
  | none => [.instance_ (record .noBlob (.uint 0))]

def notBuilt (name : String) (api : Api) : Error :=
  ⟨.generation, .embedding, s!"Shader '{name}' was not built for {api.name}"⟩

def apiFile (vs : List Variant) (names : List String) (api : Api) : Except Error File := do
  let items ← names.mapM fun name =>
    match vs.find? fun v => v.name == name && v.api == api with
    | some v => .ok (variantItems v)
    | none => refuse (notBuilt name api)
  let table : TableDecl := {
    name := Names.table, elementType := Names.record, kind := .byEnum Names.shaderEnum
    entries := names.map fun name => (name, Names.instance_ name)
    lookup := Names.lookup, fallback := Names.missing }
  return {
    name := Names.apiFile api, headerOnly := false
    dependencies := [.std "cstdint", .std "array", .sibling Names.typesFile]
    items := [.module api.name (items.flatten ++ [.table table])] }

/-- The dispatcher knows every API, but only those given have routes. -/
def dispatcherFile (apis : List Api) : File where
  name := Names.dispatcherFile
  headerOnly := true
  dependencies :=
    .std "cstdint" :: .sibling Names.typesFile :: apis.map fun a => .sibling (Names.apiFile a)
  items :=
    [.enum ⟨Names.apiEnum, Api.all.map (·.name)⟩,
      .dispatcher {
        name := Names.lookup, returnType := Names.record, keyEnum := Names.shaderEnum
        selectorEnum := Names.apiEnum, routes := apis.map fun a => (a.name, a.name)
        fallback := Names.missing }]

/-- The files that embed variants; every shader needs one for each API. -/
def embeddingFiles (vs : List Variant) (apis : List Api) : Except Error (List File) := do
  let names := shaderNames vs
  let files ← apis.mapM (apiFile vs names)
  return typesFile names :: files ++ [dispatcherFile apis]

end ShaderBuild.Builtin
