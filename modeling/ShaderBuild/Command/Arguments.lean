import ShaderBuild.Builtin.Job
import ShaderBuild.Compile.Config
import ShaderBuild.Error

namespace ShaderBuild.Command

inductive Switch
  | metadata | reflection | builtin | serial | verbose | help
deriving DecidableEq, Repr, Inhabited

def switch? : String → Option Switch
  | "-metadata" => some .metadata
  | "-reflection" => some .reflection
  | "-builtin" => some .builtin
  | "-serial" => some .serial
  | "-verbose" => some .verbose
  | "-help" | "-h" | "--help" => some .help
  | _ => none

inductive Flag
  | input | output | entryPoint | stage | platform | api
  | define | includeDir | language | dxc | backend | timeout
deriving DecidableEq, Repr, Inhabited

namespace Flag

def all : List Flag :=
  [input, output, entryPoint, stage, platform, api,
    define, includeDir, language, dxc, backend, timeout]

def word : Flag → String
  | input => "-input"
  | output => "-output"
  | entryPoint => "-entrypoint"
  | stage => "-stage"
  | platform => "-platform"
  | api => "-graphicsapi"
  | define => "-D"
  | includeDir => "-I"
  | language => "-language"
  | dxc => "-dxc"
  | backend => "-spirvbackend"
  | timeout => "-timeout"

def ofWord? (s : String) : Option Flag := all.find? (·.word == s)

end Flag

def attachedDefine? (s : String) : Option String :=
  match s.toList with
  | '-' :: 'D' :: r => some (.ofList r)
  | _ => none

inductive ArgumentError
  | missingValue (flag : Flag)
  | unknownValue (what value : String)
  | badTimeout (value : String)
  | unknownOption (word : String)
  | severalApis (count : Nat)
  | noInputDirectory
  | noOutputDirectory

namespace ArgumentError

def message : ArgumentError → String
  | missingValue f => s!"{f.word} expects a value"
  | unknownValue what v => s!"Unknown {what} '{v}'"
  | badTimeout v => s!"-timeout expects a positive number of seconds, got '{v}'"
  | unknownOption w => s!"Unknown option '{w}'"
  | severalApis n => s!"-graphicsapi was given {n} times; only -builtin accepts several"
  | noInputDirectory => "no input directory specified"
  | noOutputDirectory => "no output directory specified"

def toError (e : ArgumentError) : Error := ⟨.configuration, .commandLine, e.message⟩

instance : Coe ArgumentError Error := ⟨toError⟩

end ArgumentError

inductive Mode
  | help | compile | metadata | builtin
deriving DecidableEq, Repr, Inhabited

def Mode.name : Mode → String
  | help => "Help"
  | compile => "Compile"
  | metadata => "Metadata"
  | builtin => "Builtin"

structure Arguments where
  input : Option String := none
  output : Option String := none
  entryPoint : Option String := none
  stage : Option Stage := none
  platform : Option Platform := none
  apis : List Api := []
  defines : List String := []
  includeDirs : List String := []
  metadata : Bool := false
  reflection : Bool := false
  builtin : Bool := false
  language : Code.OutputLanguage := .cpp
  dxc : Option String := none
  backend : Option SpirvBackend := none
  timeout : Option Nat := none
  serial : Bool := false
  verbose : Bool := false
  help : Bool := false
deriving DecidableEq, Repr, Inhabited

def digitsValue (cs : List Char) : Nat := cs.foldl (fun n c => 10 * n + (c.toNat - 48)) 0

/-- A positive 64-bit number in decimal digits, perhaps behind a plus sign. -/
def seconds? (s : String) : Option Nat :=
  let digits := match s.toList with
    | '+' :: r => r
    | cs => cs
  if digits.isEmpty || !digits.all Char.isDigit then none
  else
    let n := digitsValue digits
    if 0 < n ∧ n < UInt64.size then some n else none

namespace Arguments

def enable (a : Arguments) : Switch → Arguments
  | .metadata => { a with metadata := true }
  | .reflection => { a with reflection := true }
  | .builtin => { a with builtin := true }
  | .serial => { a with serial := true }
  | .verbose => { a with verbose := true }
  | .help => { a with help := true }

def set (a : Arguments) (flag : Flag) (value : String) : Except Error Arguments :=
  match flag with
  | .input => .ok { a with input := some value }
  | .output => .ok { a with output := some value }
  | .entryPoint => .ok { a with entryPoint := some value }
  | .stage => do
    let s ← need (Stage.ofFlagWord? value) (ArgumentError.unknownValue "stage" value)
    return { a with stage := some s }
  | .platform => do
    let p ← need (Platform.ofFlagWord? value) (ArgumentError.unknownValue "platform" value)
    return { a with platform := some p }
  | .api => do
    let x ← need (Api.ofFlagWord? value) (ArgumentError.unknownValue "graphics API" value)
    return if a.apis.contains x then a else { a with apis := a.apis ++ [x] }
  | .define => .ok { a with defines := a.defines ++ [value] }
  | .includeDir => .ok { a with includeDirs := a.includeDirs ++ [value] }
  | .language => do
    let l ← need (Code.OutputLanguage.ofFlagWord? value)
      (ArgumentError.unknownValue "language" value)
    return { a with language := l }
  | .dxc => .ok { a with dxc := some value }
  | .backend => do
    let b ← need (SpirvBackend.ofName? value) (ArgumentError.unknownValue "SPIR-V backend" value)
    return { a with backend := some b }
  | .timeout => do
    let n ← need (seconds? value) (ArgumentError.badTimeout value)
    return { a with timeout := some n }

def read (a : Arguments) : List String → Except Error Arguments
  | [] => .ok a
  | w :: r =>
    match switch? w with
    | some s => (a.enable s).read r
    | none =>
      match Flag.ofWord? w with
      | some f =>
        match r with
        | [] => refuse (ArgumentError.missingValue f)
        | v :: r => do (← a.set f v).read r
      | none =>
        match attachedDefine? w with
        | some d => { a with defines := a.defines ++ [d] : Arguments }.read r
        | none => refuse (ArgumentError.unknownOption w)

def parse (words : List String) : Except Error Arguments := read {} words

def mode (a : Arguments) : Mode :=
  if a.help then .help
  else if a.builtin then .builtin
  else if a.metadata then .metadata
  else .compile

/-- The environment's settings, overridden by the command line. -/
def config (a : Arguments) (dxcPath : Option String) : Config :=
  let c := Config.ofEnvironment dxcPath
  { dxc := a.dxc.getD c.dxc
    backend := a.backend.getD c.backend
    timeout := (a.timeout.map (1000 * ·)).getD c.timeout
    includeDirs := a.includeDirs
    parallel := !a.serial }

def batchOptions (a : Arguments) : Except Error Builtin.Options := do
  let input ← need a.input ArgumentError.noInputDirectory
  let output ← need a.output ArgumentError.noOutputDirectory
  return {
    input, output
    apis := if a.apis.isEmpty then Api.all else a.apis
    platform := a.platform.getD .current
    language := a.language
    metadata := a.metadata }

end Arguments

def usage : String := "\n".intercalate
  ["Usage: shader_compiler [options]",
    "",
    "  -input <path>          HLSL source (manifest root with -builtin)",
    "  -output <path>         bytecode file (output directory with -metadata / -builtin)",
    "  -entrypoint <name>     entry point function",
    "  -stage <name>          vertex | pixel | hull | domain | geometry | compute | rootsignature",
    "  -platform <name>       windows | linux | macos | android",
    "  -graphicsapi <name>    vulkan | d3d12 (repeatable with -builtin)",
    "  -D <define>            NAME or NAME=VALUE (repeatable, -DNAME also accepted)",
    "  -I <dir>               include directory (repeatable)",
    "  -metadata              generate binding metadata code (and embedding code with -builtin)",
    "  -reflection            write <output>.reflection.yaml",
    "  -builtin               build every shader declared under -input",
    "  -language <name>       cpp | rust (generated code, default cpp)",
    "  -dxc <path>            DXC executable (default: $DXC_PATH or dxc)",
    "  -spirvbackend <name>   dxc | glslang",
    "  -timeout <seconds>     external compiler timeout",
    "  -serial                compile builtin shaders one at a time",
    "  -verbose               log debug messages",
    "  -help                  print this text"]

end ShaderBuild.Command
