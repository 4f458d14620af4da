import ShaderBuild.Spirv.Annotations
import ShaderBuild.Spirv.DataType

namespace ShaderBuild.Spirv

inductive DescriptorKind
  | sampler
  | combinedImageSampler
  | sampledImage
  | storageImage
  | uniformTexelBuffer
  | storageTexelBuffer
  | uniformBuffer
  | storageBuffer (access : Access)
  | inputAttachment (index : UInt32)
  | accelerationStructure
deriving DecidableEq, Repr, Inhabited

namespace DescriptorKind

def outline : DescriptorKind → String
  | sampler => "Sampler"
  | combinedImageSampler => "CombinedImageSampler"
  | sampledImage => "SampledImage"
  | storageImage => "StorageImage"
  | uniformTexelBuffer => "UniformTexelBuffer"
  | storageTexelBuffer => "StorageTexelBuffer"
  | uniformBuffer => "UniformBuffer"
  | storageBuffer _ => "StorageBuffer"
  | inputAttachment n => s!"InputAttachment({n})"
  | accelerationStructure => "AccelStruct"

end DescriptorKind

structure Descriptor where
  name : Option String
  set : UInt32
  slot : UInt32
  kind : DescriptorKind
  type : DataType
deriving Repr, Inhabited

namespace Descriptor

/-- What a variable allows: its own decorations say, or else the members of its struct. -/
def access (a : Annotations) (id : UInt32) (type : DataType) : Access :=
  match a.has ⟨id, none⟩ Decoration.nonWritable, a.has ⟨id, none⟩ Decoration.nonReadable with
  | true, false => .readOnly
  | false, true => .writeOnly
  | true, true => .readWrite
  | false, false => type.access

/-- The kind of descriptor that a variable of a type in a storage class is. -/
def kind? (a : Annotations) (id storage : UInt32) (type : DataType) : Option DescriptorKind :=
  match type with
  | .image .attachment _ =>
    some (.inputAttachment ((a.operand? ⟨id, none⟩ Decoration.inputAttachmentIndex).getD 0))
  | .image .storage true => some .storageTexelBuffer
  | .image .storage false => some .storageImage
  | .image .sampled true => some .uniformTexelBuffer
  | .image .sampled false => some .sampledImage
  | .sampledImage true => some .uniformTexelBuffer
  | .sampledImage false => some .combinedImageSampler
  | .sampler => some .sampler
  | .struct .. =>
    if storage = StorageClass.storageBuffer then some (.storageBuffer (access a id type))
    else some .uniformBuffer
  | .accelerationStructure => some .accelerationStructure
  | _ => none

/-- The descriptor of a variable. The set counts only where a slot is given. -/
def ofVariable? (a : Annotations) (id storage : UInt32) (type : DataType) : Option Descriptor := do
  guard (StorageClass.isBound storage)
  let element := match type with
    | .array e _ _ => e
    | t => t
  let kind ← kind? a id storage element
  let (set, slot) := match a.operand? ⟨id, none⟩ Decoration.binding with
    | some slot => ((a.operand? ⟨id, none⟩ Decoration.descriptorSet).getD 0, slot)
    | none => (0, 0)
  return ⟨a.name? ⟨id, none⟩, set, slot, kind, element⟩

end Descriptor

end ShaderBuild.Spirv
