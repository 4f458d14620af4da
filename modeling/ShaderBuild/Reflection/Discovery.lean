import ShaderBuild.Journal
import ShaderBuild.Reflection.Binding
import ShaderBuild.Spirv.Module

namespace ShaderBuild

inductive DiscoveryError
  | notSpirv
  | unreadable (fault : Spirv.Fault)

namespace DiscoveryError

def message : DiscoveryError → String
  | notSpirv => "not a SPIR-V module"
  | unreadable f => s!"SPIR-V reflection failed: {f.message}"

def toError (e : DiscoveryError) : Error := ⟨.reflection, .reflection, e.message⟩

instance : Coe DiscoveryError Error := ⟨toError⟩

end DiscoveryError

def SourceLanguage.ofInstruction? (i : Spirv.Instruction) : Option SourceLanguage :=
  if i.opcode = Spirv.Opcode.source then
    match i.operands with
    | 2 :: _ => some .glsl
    | 5 :: _ => some .hlsl
    | _ => none
  else none

def SourceLanguage.ofWords (words : List UInt32) : SourceLanguage :=
  ((Spirv.cut (words.drop Spirv.headerLength)).1.findSome? ofInstruction?).getD .hlsl

def Stage.ofExecutionModel? : UInt32 → Option Stage
  | 0 => some .vertex
  | 1 => some .hull
  | 2 => some .domain
  | 3 => some .geometry
  | 4 => some .pixel
  | 5 => some .compute
  | _ => none

def Bucket.ofKind? : Spirv.DescriptorKind → Option Bucket
  | .uniformBuffer => some .constantBuffer
  | .sampledImage | .combinedImageSampler => some .texture
  | .sampler => some .sampler
  | .storageImage => some .rwTexture
  | .storageBuffer .readOnly => some .storageBuffer
  | .storageBuffer _ => some .rwStorageBuffer
  | .uniformTexelBuffer => some .typedBuffer
  | .storageTexelBuffer => some .rwTypedBuffer
  | .inputAttachment _ | .accelerationStructure => none

/-- Integers narrower than 64 bits count as plain ones, as do floats that are neither half nor
double. -/
def ScalarKind.ofSpirv : Spirv.Scalar → ScalarKind
  | .void => .float
  | .bool => .bool
  | .int 64 true => .int64
  | .int 64 false => .uint64
  | .int _ true => .int
  | .int _ false => .uint
  | .float 16 => .half
  | .float 64 => .double
  | .float _ => .float

mutual
/-- A type as the member of a buffer. What cannot be one counts as a float. -/
def MemberType.ofSpirv : Spirv.DataType → MemberType
  | .scalar s => .scalar (.ofSpirv s)
  | .vector s n => .vector (.ofSpirv s) n
  | .matrix s n m _ _ => .matrix (.ofSpirv s) n m
  | .array e c s => .array (MemberType.ofSpirv e) c s
  | .struct name fields => .struct ((name.map declaredTypeName).getD "") (membersOfSpirv 0 fields)
  | .image .. | .sampledImage _ | .sampler | .pointer .. | .deviceAddress
  | .accelerationStructure | .rayQuery => .scalar .float
def membersOfSpirv (position : Nat) : List (Spirv.Field Spirv.DataType) → List Member
  | [] => []
  | ⟨name, offset, _, type⟩ :: r =>
    ⟨name.getD s!"_m{position}", offset.getD 0, MemberType.ofSpirv type⟩ ::
      membersOfSpirv (position + 1) r
end

mutual
def Spirv.DataType.unsupported : Spirv.DataType → List Spirv.DataType
  | .scalar _ | .vector .. | .matrix .. => []
  | .array e _ _ => e.unsupported
  | .struct _ fields => unsupportedFields fields
  | t@(.image ..) | t@(.sampledImage _) | t@.sampler | t@(.pointer ..) | t@.deviceAddress
  | t@.accelerationStructure | t@.rayQuery => [t]
def unsupportedFields : List (Spirv.Field Spirv.DataType) → List Spirv.DataType
  | [] => []
  | ⟨_, _, _, type⟩ :: r => type.unsupported ++ unsupportedFields r
end

namespace Binding

def layoutOf (name : String) (bucket : Bucket) (d : Spirv.Descriptor) :
    Except Error (Option BufferLayout) :=
  match bucket.isStructured, d.type with
  | true, .struct typeName fields => do
    let title := (typeName.map declaredTypeName).getD name
    return some (← BufferLayout.ofMembers title (membersOfSpirv 0 fields))
  | _, _ => return none

/-- The binding of a descriptor in a bucket. -/
def ofDescriptor (bucket : Bucket) (d : Spirv.Descriptor) : Except Error Binding := do
  let typeName := d.type.structName?.map declaredTypeName
  let name := bindingName d.name typeName
  return ⟨name, typeName, bucket, d.set, d.slot, ← layoutOf name bucket d⟩

/-- Whether a binding comes no later than another: by set, then slot, then name. -/
def precedes (a b : Binding) : Bool :=
  decide (a.set < b.set) || a.set == b.set &&
    (decide (a.slot < b.slot) || a.slot == b.slot && decide (a.name ≤ b.name))

end Binding

namespace StageReflection

/-- The binding of a descriptor of an entry point, or none, with a warning, if no bucket takes it. -/
def bindingOf? (stage : Stage) (entryPoint : String) (d : Spirv.Descriptor) :
    Logged (Option Binding) :=
  match Bucket.ofKind? d.kind with
  | none => do
    let name := d.name.getD "<unnamed>"
    Logged.note .warn .reflection <|
      s!"Skipping '{name}' (set {d.set}, binding {d.slot}) in '{entryPoint}': " ++
        s!"unsupported descriptor type {d.kind.outline}"
    return none
  | some bucket => do
    if bucket.isStructured then
      for t in d.type.unsupported do
        Logged.note .warn .reflection s!"Unsupported member type {t.outline}, reflected as float"
    let b ← Logged.attempt (Binding.ofDescriptor bucket d)
    Logged.note .trace .reflection
      s!"{stage.name} {bucket.name} '{b.name}' at set {b.set} binding {b.slot}"
    return some b

def ofListing (stage : Stage) (entryPoint : String) (listing : List Spirv.Descriptor) :
    Logged StageReflection := do
  let bindings := (← listing.filterMapM (bindingOf? stage entryPoint)).mergeSort Binding.precedes
  Logged.note .debug .reflection s!"{stage.name} '{entryPoint}': {bindings.length} binding(s)"
  return ⟨stage, entryPoint, bindings⟩

end StageReflection

namespace Reflection

/-- The reflection of one entry point, or none, with a warning, if no stage runs it. -/
def stageOf? (e : Spirv.EntryPoint) (listing : List Spirv.Descriptor) :
    Logged (Option StageReflection) :=
  match Stage.ofExecutionModel? e.model with
  | some stage => some <$> StageReflection.ofListing stage e.name listing
  | none => do
    let model := (Spirv.ExecutionModel.name? e.model).getD ""
    Logged.note .warn .reflection
      s!"Skipping entry point '{e.name}': execution model {model} has no shader stage"
    return none

def ofListings (language : SourceLanguage)
    (listings : List (Spirv.EntryPoint × List Spirv.Descriptor)) : Logged Reflection := do
  let stages ← listings.filterMapM fun (e, listing) => stageOf? e listing
  return ⟨language, stages.mergeSort fun a b => a.stage.index ≤ b.stage.index⟩

/-- The reflection of a module; every entry point sees all of its descriptors. -/
def ofWords (words : List UInt32) : Logged Reflection := do
  if words.length < Spirv.headerLength ∨ words.head? ≠ some spirvMagic then
    Logged.attempt (refuse DiscoveryError.notSpirv)
  else
    match Spirv.Module.ofWords words with
    | .error f => Logged.attempt (refuse (DiscoveryError.unreadable f))
    | .ok m => ofListings (.ofWords words) (m.entryPoints.map (·, m.descriptors))

def ofBytecode (b : Bytecode) : Logged Reflection := do
  ofWords (← Logged.attempt b.words)

end Reflection

end ShaderBuild
