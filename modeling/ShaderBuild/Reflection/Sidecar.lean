import ShaderBuild.Journal
import ShaderBuild.Path
import ShaderBuild.Reflection.Binding
import ShaderBuild.Yaml.Printer
import ShaderBuild.Yaml.Reading

namespace ShaderBuild

def sidecarPath (output : String) : String :=
  Path.withFileName output ((Path.fileName? output).getD "" ++ ".reflection.yaml")

open Yaml (Node Reading wantField wantOption)

def wordNode (n : UInt32) : Node := .ofWord (toString n.toNat)

def optionNode {α : Type} (write : α → Node) : Option α → Node
  | none => .null
  | some a => write a

mutual

def MemberType.toNode : MemberType → Node
  | .scalar k => (Node.ofText k.name).labelled "Scalar"
  | .vector k n =>
    (Node.record [("scalar", .ofText k.name), ("size", wordNode n)]).labelled "Vector"
  | .matrix k n m =>
    (Node.record [("scalar", .ofText k.name), ("vector_count", wordNode n),
      ("vector_size", wordNode m)]).labelled "Matrix"
  | .array e count stride =>
    (Node.record [("element", e.toNode), ("count", optionNode wordNode count),
      ("stride", optionNode wordNode stride)]).labelled "Array"
  | .struct name ms =>
    (Node.record [("name", .ofText name), ("members", .sequence {} (memberNodes ms))]).labelled
      "Struct"

def memberNodes : List Member → List Node
  | [] => []
  | ⟨name, offset, type⟩ :: r =>
    .record [("name", .ofText name), ("offset", wordNode offset), ("member_type", type.toNode)] ::
      memberNodes r

end

def BufferLayout.toNode (l : BufferLayout) : Node :=
  .record [("type_name", .ofText l.typeName), ("size", wordNode l.size),
    ("members", .sequence {} (memberNodes l.members))]

def Binding.toNode (b : Binding) : Node :=
  .record [("name", .ofText b.name), ("type_name", optionNode .ofText b.typeName),
    ("resource_type", .ofText b.bucket.name), ("set", wordNode b.set),
    ("bind_point", wordNode b.slot), ("layout", optionNode BufferLayout.toNode b.layout)]

def StageReflection.toNode (s : StageReflection) : Node :=
  .record [("stage", .ofText s.stage.name), ("entry_point", .ofText s.entryPoint),
    ("bindings", .sequence {} (s.bindings.map Binding.toNode))]

def Reflection.toNode (r : Reflection) : Node :=
  .record [("language", .ofText r.language.name),
    ("stages", .sequence {} (r.stages.map StageReflection.toNode))]

def readScalarKind (n : Node) : Reading ScalarKind := n.readName ScalarKind.ofName?

/-- The member type behind a label, with readers for what nests in it. There may be `room` for a
collection. -/
def MemberType.ofLabelled (room : Bool) (element : Node → Reading MemberType)
    (members : Node → Reading (List Member)) (n : Node) : Reading MemberType := do
  let (label, n) ← n.readLabel
  match label with
  | "Scalar" =>
    match ScalarKind.ofName? (← n.readText) with
    | some k => return .scalar k
    | none => throw (Yaml.Fault.mismatch "a scalar")
  | "Vector" =>
    let fields ← n.readFields room ["scalar", "size"]
    return .vector (← wantField fields "scalar" readScalarKind)
      (← wantField fields "size" Node.readWord)
  | "Matrix" =>
    let fields ← n.readFields room ["scalar", "vector_count", "vector_size"]
    return .matrix (← wantField fields "scalar" readScalarKind)
      (← wantField fields "vector_count" Node.readWord)
      (← wantField fields "vector_size" Node.readWord)
  | "Array" =>
    let fields ← n.readFields room ["element", "count", "stride"]
    return .array (← wantField fields "element" element)
      (← wantOption fields "count" Node.readWord)
      (← wantOption fields "stride" Node.readWord)
  | "Struct" =>
    let fields ← n.readFields room ["name", "members"]
    return .struct (← wantField fields "name" Node.readText)
      (← wantField fields "members" members)
  | _ => throw (Yaml.Fault.mismatch "a member type")

mutual

/-- Read a member type; `depth` collections may still nest. -/
def MemberType.ofNode : Nat → Node → Reading MemberType
  | 0 => MemberType.ofLabelled false (fun _ => throw Yaml.Fault.tooDeep)
      fun _ => throw Yaml.Fault.tooDeep
  | depth + 1 => MemberType.ofLabelled true (MemberType.ofNode depth) (membersOfNode depth)

def membersOfNode : Nat → Node → Reading (List Member)
  | 0 => Node.readList false fun _ => throw Yaml.Fault.tooDeep
  | depth + 1 => Node.readList true (memberOfNode depth)

def memberOfNode : Nat → Node → Reading Member
  | 0, _ => throw Yaml.Fault.tooDeep
  | depth + 1, n => do
    let fields ← n.readFields true ["name", "offset", "member_type"]
    return ⟨← wantField fields "name" Node.readText, ← wantField fields "offset" Node.readWord,
      ← wantField fields "member_type" (MemberType.ofNode depth)⟩

end

def BufferLayout.ofNode (depth : Nat) (n : Node) : Reading BufferLayout := do
  let fields ← n.readFields (0 < depth) ["type_name", "size", "members"]
  return ⟨← wantField fields "type_name" Node.readText, ← wantField fields "size" Node.readWord,
    ← wantField fields "members" (membersOfNode (depth - 1))⟩

def Binding.ofNode (depth : Nat) (n : Node) : Reading Binding := do
  let fields ← n.readFields (0 < depth)
    ["name", "type_name", "resource_type", "set", "bind_point", "layout"]
  return ⟨← wantField fields "name" Node.readText, ← wantOption fields "type_name" Node.readText,
    ← wantField fields "resource_type" (Node.readName Bucket.ofName?),
    ← wantField fields "set" Node.readWord, ← wantField fields "bind_point" Node.readWord,
    ← wantOption fields "layout" (BufferLayout.ofNode (depth - 1))⟩

def StageReflection.ofNode (depth : Nat) (n : Node) : Reading StageReflection := do
  let fields ← n.readFields (0 < depth) ["stage", "entry_point", "bindings"]
  let bindings := Node.readList (1 < depth) (Binding.ofNode (depth - 2))
  return ⟨← wantField fields "stage" (Node.readName Stage.ofName?),
    ← wantField fields "entry_point" Node.readText, ← wantField fields "bindings" bindings⟩

def Reflection.ofNode (depth : Nat) (n : Node) : Reading Reflection := do
  let fields ← n.readFields (0 < depth) ["language", "stages"]
  let stages := Node.readList (1 < depth) (StageReflection.ofNode (depth - 2))
  return ⟨← wantField fields "language" (Node.readName SourceLanguage.ofName?),
    ← wantField fields "stages" stages⟩

def Reflection.toYaml (r : Reflection) : String := r.toNode.render

def malformedSidecar (f : Yaml.Fault) : Error :=
  ⟨.reflection, .sidecar, s!"Malformed reflection sidecar: {f.message}"⟩

def Reflection.ofYaml (text : String) : Except Error Reflection :=
  (Yaml.Document.ofText text >>= fun d =>
    d.read fun
      | some n => Reflection.ofNode Yaml.nestingLimit n
      | none => throw (Yaml.Fault.mismatch "a reflection")).mapError malformedSidecar

end ShaderBuild
