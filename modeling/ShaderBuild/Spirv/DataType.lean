namespace ShaderBuild.Spirv

inductive Scalar
  | void | bool
  | int (bits : UInt32) (signed : Bool)
  | float (bits : UInt32)
deriving DecidableEq, Repr, Inhabited

inductive MatrixOrder
  | rowMajor | columnMajor
deriving DecidableEq, Repr, Inhabited

inductive Access
  | readOnly | writeOnly | readWrite
deriving DecidableEq, Repr, Inhabited

structure Field (α : Type) where
  name : Option String
  offset : Option UInt32
  access : Access
  type : α
deriving Repr, Inhabited

inductive ImageUse
  | sampled | storage | attachment
deriving DecidableEq, Repr, Inhabited

inductive DataType
  | scalar (kind : Scalar)
  | vector (kind : Scalar) (size : UInt32)
  | matrix (kind : Scalar) (vectors size : UInt32) (order : Option MatrixOrder)
      (stride : Option UInt32)
  | image (use : ImageUse) (buffer : Bool)
  | sampledImage (buffer : Bool)
  | sampler
  /-- A runtime array has no count. -/
  | array (element : DataType) (count stride : Option UInt32)
  | struct (name : Option String) (members : List (Field DataType))
  | pointer (storage : UInt32) (pointee : DataType)
  | deviceAddress
  | accelerationStructure
  | rayQuery
deriving Repr, Inhabited

namespace DataType

def outline : DataType → String
  | scalar _ => "Scalar"
  | vector .. => "Vector"
  | matrix .. => "Matrix"
  | image .sampled _ => "SampledImage"
  | image .storage _ => "StorageImage"
  | image .attachment _ => "SubpassData"
  | sampledImage _ => "CombinedImageSampler"
  | sampler => "Sampler(SamplerType)"
  | array .. => "Array"
  | struct .. => "Struct"
  | pointer .. => "DevicePointer"
  | deviceAddress => "DeviceAddress(DeviceAddressType)"
  | accelerationStructure => "AccelStruct(AccelStructType)"
  | rayQuery => "RayQuery(RayQueryType)"

def structName? : DataType → Option String
  | struct name _ => name
  | _ => none

/-- The type with the order and stride that a struct gives to a matrix member, also to one inside
arrays. -/
def arrangeMatrix (order : Option MatrixOrder) (stride : Option UInt32) : DataType → DataType
  | matrix k n m _ _ => matrix k n m order stride
  | array e c s => array (arrangeMatrix order stride e) c s
  | t => t

/-- What all members of a struct allow, if they agree. -/
def access : DataType → Access
  | struct _ (m :: ms) => if ms.all (·.access == m.access) then m.access else .readWrite
  | _ => .readWrite

end DataType

end ShaderBuild.Spirv
