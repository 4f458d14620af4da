namespace ShaderBuild

inductive SpirvBackend
  | dxc | glslang
deriving DecidableEq, Repr, Inhabited

namespace SpirvBackend

def all : List SpirvBackend := [dxc, glslang]

def name : SpirvBackend → String
  | dxc => "dxc"
  | glslang => "glslang"

def ofName? (s : String) : Option SpirvBackend := all.find? (·.name == s)

end SpirvBackend

structure Config where
  dxc : String := "dxc"
  backend : SpirvBackend := .dxc
  includeDirs : List String := []
  /-- Milliseconds one external compilation may take. -/
  timeout : Nat := 120000
  parallel : Bool := true
deriving DecidableEq, Repr, Inhabited

namespace Config

/-- The defaults with the external compiler that the environment names, unless that is empty. -/
def ofEnvironment (dxcPath : Option String) : Config :=
  match dxcPath with
  | some path => if path = "" then {} else { dxc := path }
  | none => {}

end Config

/-- The in-process backend is not part of this build. -/
def glslangAvailable : Bool := false

def glslangOutline : String := "GlslangBackend \x7b available: false \x7d"

end ShaderBuild
