namespace ShaderBuild

inductive Bucket
  | constantBuffer | texture | sampler | rwTexture
  | storageBuffer | rwStorageBuffer | typedBuffer | rwTypedBuffer
deriving DecidableEq, Repr, Inhabited

namespace Bucket

def all : List Bucket :=
  [constantBuffer, texture, sampler, rwTexture,
    storageBuffer, rwStorageBuffer, typedBuffer, rwTypedBuffer]

def name : Bucket → String
  | constantBuffer => "ConstantBuffer"
  | texture => "Texture"
  | sampler => "Sampler"
  | rwTexture => "RWTexture"
  | storageBuffer => "StorageBuffer"
  | rwStorageBuffer => "RWStorageBuffer"
  | typedBuffer => "TypedBuffer"
  | rwTypedBuffer => "RWTypedBuffer"

/-- Bindings of these buckets carry a member layout. -/
def isStructured : Bucket → Bool
  | constantBuffer | storageBuffer | rwStorageBuffer => true
  | _ => false

/-- A shader may write through bindings of these buckets. -/
def isWritable : Bucket → Bool
  | rwTexture | rwStorageBuffer | rwTypedBuffer => true
  | _ => false

def ofName? (s : String) : Option Bucket := all.find? (·.name == s)

theorem mem_all (b : Bucket) : b ∈ all := by cases b <;> decide

end Bucket

end ShaderBuild
