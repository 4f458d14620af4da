import ShaderBuild.Layout.Scalar
import ShaderBuild.Text.Hex

namespace ShaderBuild.Code

inductive Dependency
  | std (name : String)
  | sibling (name : String)
deriving DecidableEq, Repr, Inhabited

inductive FieldType
  | scalar (kind : ScalarKind)
  | vector (kind : ScalarKind) (size : UInt32)
  /-- The shape has been corrected for the source language. -/
  | matrix (kind : ScalarKind) (rows cols : UInt32)
  | uint32
  | str
  | bytes
  | enum (name : String)
  | named (name : String)
deriving DecidableEq, Repr, Inhabited

structure Field where
  name : String
  type : FieldType
  dims : List UInt32
  sourceType : Option String
deriving DecidableEq, Repr, Inhabited

structure StructDecl where
  name : String
  fields : List Field
deriving DecidableEq, Repr, Inhabited

/-- Values `0` to `n - 1` for the variants and then `Count = n`. -/
structure EnumDecl where
  name : String
  variants : List String
deriving DecidableEq, Repr, Inhabited

inductive Value
  | uint (n : UInt32)
  | maxUInt32
  | enumVariant (enum variant : String)
  | enumIndex (enum variant : String)
  | sizeOf (type : String)
  | str (text : String)
  | blob (name : String)
  | blobLength (name : String) (length : UInt32)
  | noBlob
deriving DecidableEq, Repr, Inhabited

structure WrapperDecl where
  name : String
  base : String
  index : Value
  size : Value
  stride : Value
deriving DecidableEq, Repr, Inhabited

/-- A constant of a generated struct type, its values in field order. -/
structure InstanceDecl where
  name : String
  type : String
  values : List (String × Value)
deriving DecidableEq, Repr, Inhabited

inductive TableKind
  | byId
  | byEnum (enum : String)
  | byName
deriving DecidableEq, Repr, Inhabited

/-- A lookup function over instances, with an instance for a miss. -/
structure TableDecl where
  name : String
  elementType : String
  kind : TableKind
  entries : List (String × String)
  lookup : String
  fallback : String
deriving DecidableEq, Repr, Inhabited

structure BlobDecl where
  name : String
  bytes : List UInt8
deriving DecidableEq, Repr, Inhabited

/-- A function that passes its key to the lookup function of the module a selector names. -/
structure DispatcherDecl where
  name : String
  returnType : String
  keyEnum : String
  selectorEnum : String
  routes : List (String × String)
  fallback : String
deriving DecidableEq, Repr, Inhabited

inductive Item
  | comment (text : String)
  | enum (decl : EnumDecl)
  | struct (decl : StructDecl)
  | wrapper (decl : WrapperDecl)
  | instance_ (decl : InstanceDecl)
  | table (decl : TableDecl)
  | blob (decl : BlobDecl)
  | module (name : String) (items : List Item)
  | dispatcher (decl : DispatcherDecl)
deriving Repr, Inhabited

structure File where
  name : String
  headerOnly : Bool
  dependencies : List Dependency
  items : List Item
deriving Repr, Inhabited

/-- The variant behind all others in every generated enum. -/
def countVariant : String := "Count"

namespace Field

def plain (name : String) (type : FieldType) : Field := ⟨name, type, [], none⟩

/-- Product of the dimensions modulo 2³². -/
def elementCount (f : Field) : UInt32 := f.dims.foldl (· * ·) 1

end Field

namespace FieldType

/-- Bytes of one value modulo 2³²; pointers and named structs have no size of their own. -/
def packedSize : FieldType → Option UInt32
  | scalar k => some k.width
  | vector k n => some (k.width * n)
  | matrix k n m => some (k.width * n * m)
  | uint32 | enum _ => some 4
  | str | bytes | named _ => none

end FieldType

structure EmittedFile where
  name : String
  contents : String
deriving DecidableEq, Repr, Inhabited

def banner : String := "// Generated by galaxy_3d_shader_compiler. Do not edit."

def chunks {α : Type} (n : Nat) (xs : List α) : List (List α) :=
  match xs with
  | [] => []
  | x :: r => (x :: r.take (n - 1)) :: chunks n (r.drop (n - 1))
termination_by xs.length
decreasing_by simp only [List.length_drop, List.length_cons]; omega

def hexLiteral (b : UInt8) : List Char := '0' :: 'x' :: Text.hexByte b ++ [',']

/-- Rows of hexadecimal literals, each followed by a comma. -/
def hexRows (bytes : List UInt8) (perRow : Nat) : List String :=
  (chunks perRow bytes).map fun row => .ofList ([' '].intercalate (row.map hexLiteral))

end ShaderBuild.Code
