import ShaderBuild.Layout.Size
import ShaderBuild.Reflection.Bucket
import ShaderBuild.Stage
import ShaderBuild.Text.Basic

namespace ShaderBuild

inductive SourceLanguage
  | hlsl | glsl
deriving DecidableEq, Repr, Inhabited

namespace SourceLanguage

def all : List SourceLanguage := [hlsl, glsl]

def name : SourceLanguage → String
  | hlsl => "Hlsl"
  | glsl => "Glsl"

def ofName? (s : String) : Option SourceLanguage := all.find? (·.name == s)

/-- Rows and columns of a matrix of so many vectors of so many components: the vectors are the rows
of one language and the columns of the other. -/
def matrixShape (language : SourceLanguage) (vectors size : UInt32) : UInt32 × UInt32 :=
  match language with
  | hlsl => (vectors, size)
  | glsl => (size, vectors)

end SourceLanguage

structure Binding where
  name : String
  typeName : Option String
  bucket : Bucket
  set : UInt32
  slot : UInt32
  /-- Present in structured buckets only. -/
  layout : Option BufferLayout
deriving DecidableEq, Repr, Inhabited

structure StageReflection where
  stage : Stage
  entryPoint : String
  bindings : List Binding
deriving DecidableEq, Repr, Inhabited

structure Reflection where
  language : SourceLanguage
  stages : List StageReflection
deriving DecidableEq, Repr, Inhabited

/-- The last part of a dotted type name without the mark a compiler puts in front. -/
def declaredTypeName (raw : String) : String :=
  let cs := raw.toList
  let mark := "type.".toList
  let body := if mark.isPrefixOf cs then cs.drop mark.length else cs
  .ofList (body.reverse.takeWhile (· != '.')).reverse

/-- The identifier of a binding: its variable name, or else the name of its type. -/
def bindingName (varName typeName : Option String) : String :=
  match varName.filter (· != "") with
  | some name => Text.sanitize name
  | none => (typeName.map Text.sanitize).getD ""

inductive StageError
  | unnamed (binding : Binding)
  | sharedSlot (first second : Binding)
  | sharedName (binding : Binding)

namespace StageReflection

def errorMessage (s : StageReflection) : StageError → String
  | .unnamed b =>
    s!"{b.bucket.name} binding at set {b.set} binding {b.slot} in " ++
      s!"{s.stage.name} '{s.entryPoint}' has no name"
  | .sharedSlot a b =>
    s!"{b.bucket.name} '{a.name}' and '{b.name}' share set {b.set} binding {b.slot} in " ++
      s!"{s.stage.name} '{s.entryPoint}'"
  | .sharedName b =>
    s!"duplicate {b.bucket.name} name '{b.name}' in {s.stage.name} '{s.entryPoint}'"

/-- What is wrong with two bindings of one stage, the second behind the first. -/
def clash? (first second : Binding) : Option StageError :=
  if first.bucket ≠ second.bucket then none
  else if first.set = second.set ∧ first.slot = second.slot then some (.sharedSlot first second)
  else if first.name = second.name then some (.sharedName second)
  else none

def fault? (before : List Binding) : List Binding → Option StageError
  | [] => none
  | b :: r =>
    if b.name = "" then some (.unnamed b)
    else match before.findSome? (clash? · b) with
      | some e => some e
      | none => fault? (before ++ [b]) r

def validate (s : StageReflection) : Except Error Unit :=
  match fault? [] s.bindings with
  | none => .ok ()
  | some e => .error ⟨.generation, .reflection, s.errorMessage e⟩

def bindingsOf (s : StageReflection) (b : Bucket) : List Binding :=
  s.bindings.filter (·.bucket == b)

end StageReflection

namespace Reflection

def empty (language : SourceLanguage) : Reflection := ⟨language, []⟩

/-- The stages of both; the first language counts unless the first has no stage. -/
def merge (a b : Reflection) : Reflection :=
  ⟨if a.stages.isEmpty then b.language else a.language, a.stages ++ b.stages⟩

def validate (r : Reflection) : Except Error Unit := r.stages.forM (·.validate)

def bindingCount (r : Reflection) : Nat := (r.stages.flatMap (·.bindings)).length

end Reflection

end ShaderBuild
