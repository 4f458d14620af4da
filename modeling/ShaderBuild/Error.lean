import ShaderBuild.Text.Quoted

namespace ShaderBuild

inductive Component
  | commandLine | descriptor | bytecode | includes | dxc | process | glslang | compiler
  | reflection | sidecar | manifest | batch | embedding | registry | generator | cppEmitter | writer
deriving DecidableEq, Repr, Inhabited

def Component.tag : Component → String
  | commandLine => "galaxy3d::Cli"
  | descriptor => "galaxy3d::CompilationDescriptor"
  | bytecode => "galaxy3d::Bytecode"
  | includes => "galaxy3d::Include"
  | dxc => "galaxy3d::Dxc"
  | process => "galaxy3d::Process"
  | glslang => "galaxy3d::Glslang"
  | compiler => "galaxy3d::ShaderCompiler"
  | reflection => "galaxy3d::Reflection"
  | sidecar => "galaxy3d::Sidecar"
  | manifest => "galaxy3d::Manifest"
  | batch => "galaxy3d::BuiltinBatch"
  | embedding => "galaxy3d::BuiltinCodegen"
  | registry => "galaxy3d::MetadataRegistry"
  | generator => "galaxy3d::MetadataGenerator"
  | cppEmitter => "galaxy3d::CppEmitter"
  | writer => "galaxy3d::Writer"

inductive ErrorKind
  | configuration | compilation | timeout | reflection | generation | io
deriving DecidableEq, Repr, Inhabited

namespace ErrorKind

def all : List ErrorKind := [configuration, compilation, timeout, reflection, generation, io]

def name : ErrorKind → String
  | configuration => "configuration"
  | compilation => "compilation"
  | timeout => "timeout"
  | reflection => "reflection"
  | generation => "generation"
  | io => "io"

def ofName? (s : String) : Option ErrorKind := all.find? (·.name == s)

def heading : ErrorKind → String
  | configuration => "Configuration error"
  | compilation => "Compilation failed"
  | timeout => "Timed out"
  | reflection => "Reflection failed"
  | generation => "Metadata generation failed"
  | io => "I/O error"

def label : ErrorKind → String
  | configuration => "Configuration"
  | compilation => "Compilation"
  | timeout => "Timeout"
  | reflection => "Reflection"
  | generation => "Generation"
  | io => "Io"

end ErrorKind

structure Error where
  kind : ErrorKind
  component : Component
  message : String
deriving DecidableEq, Repr, Inhabited

namespace Error

def display (e : Error) : String := s!"{e.kind.heading}: {e.message}"

def outline (e : Error) : String := s!"{e.kind.label}({Text.quoted e.message})"

end Error

def refuse {α : Type} (e : Error) : Except Error α := .error e

def need {α : Type} (x : Option α) (e : Error) : Except Error α :=
  match x with
  | some a => .ok a
  | none => .error e

end ShaderBuild
