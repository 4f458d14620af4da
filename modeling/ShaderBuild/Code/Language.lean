import ShaderBuild.Code.Cpp
import ShaderBuild.Code.Rust

namespace ShaderBuild.Code

inductive OutputLanguage
  | cpp | rust
deriving DecidableEq, Repr, Inhabited

namespace OutputLanguage

def all : List OutputLanguage := [cpp, rust]

def flagWord : OutputLanguage → String
  | cpp => "cpp"
  | rust => "rust"

def ofFlagWord? (s : String) : Option OutputLanguage := all.find? (·.flagWord == s)

def primaryFile (language : OutputLanguage) (name : String) : String :=
  match language with
  | cpp => name ++ ".h"
  | rust => Rust.fileName name

def emit (language : OutputLanguage) (f : File) : Except Error (List EmittedFile) :=
  match language with
  | cpp => Cpp.emit f
  | rust => .ok [Rust.emit f]

def emitAll (language : OutputLanguage) (fs : List File) : Except Error (List EmittedFile) := do
  return (← fs.mapM language.emit).flatten

end OutputLanguage

end ShaderBuild.Code
