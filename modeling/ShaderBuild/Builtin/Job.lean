import ShaderBuild.Builtin.Manifest
import ShaderBuild.Bytecode.Binary
import ShaderBuild.Code.Language
import ShaderBuild.Compile.Descriptor
import ShaderBuild.Stage

namespace ShaderBuild.Builtin

structure Options where
  input : String
  output : String
  apis : List Api := Api.all
  platform : Platform := .current
  metadata : Bool := true
  language : Code.OutputLanguage := .cpp
deriving DecidableEq, Repr, Inhabited

structure Job where
  shader : Shader
  api : Api
  binaryName : String
  /-- Missing where the API does not have the stage. -/
  descriptor : Option Descriptor
deriving DecidableEq, Repr, Inhabited

/-- The result of a job: a shader as one API takes it. -/
structure Variant where
  name : String
  entryPoint : String
  stage : Stage
  api : Api
  binaryName : String
  /-- Missing where nothing was compiled. -/
  bytecode : Option Bytecode
deriving DecidableEq, Repr, Inhabited

def Shader.binaryName (s : Shader) (api : Api) : String :=
  s!"{s.name}_{s.entryPoint}_{api.name}.{api.binaryExtension}"

def pairs (ms : List Manifest) (apis : List Api) : List (Shader × Api) :=
  (ms.flatMap (·.shaders)).flatMap fun s => apis.map (s, ·)

namespace Job

def plan (directory : String) (platform : Platform) (s : Shader) (api : Api) :
    Except Error Job := do
  let binaryName := s.binaryName api
  let descriptor ←
    if s.stage.runsOn api then
      let request : Request := {
        input := s.source, output := Path.join directory binaryName, entryPoint := s.entryPoint
        stage := s.stage, platform, api, defines := s.defines }
      some <$> request.build
    else pure none
  return ⟨s, api, binaryName, descriptor⟩

def notes (job : Job) : List Entry :=
  if job.descriptor.isSome then []
  else
    let message := s!"Skipping {job.shader.name} for {job.api.name} (placeholder)"
    [⟨.debug, Component.batch.tag, message, none⟩]

/-- The variant that a job leads to. -/
def variant (job : Job) (bytecode : Option Bytecode) : Variant :=
  ⟨job.shader.name, job.shader.entryPoint, job.shader.stage, job.api, job.binaryName, bytecode⟩

end Job

def planJobs (ms : List Manifest) (apis : List Api) (directory : String) (platform : Platform) :
    Except Error (List Job) :=
  (pairs ms apis).mapM fun (s, api) => Job.plan directory platform s api

/-- The jobs of a batch, with a note of each that compiles nothing. -/
def planJobsLogged (ms : List Manifest) (apis : List Api) (directory : String)
    (platform : Platform) : Logged (List Job) :=
  (pairs ms apis).mapM fun (s, api) => do
    let job ← Logged.attempt (Job.plan directory platform s api)
    Logged.notes job.notes
    return job

end ShaderBuild.Builtin
