namespace ShaderBuild

inductive ScalarKind
  | bool | int | uint | int64 | uint64 | half | float | double
deriving DecidableEq, Repr, Inhabited

namespace ScalarKind

def all : List ScalarKind := [bool, int, uint, int64, uint64, half, float, double]

def name : ScalarKind → String
  | bool => "Bool"
  | int => "Int"
  | uint => "UInt"
  | int64 => "Int64"
  | uint64 => "UInt64"
  | half => "Half"
  | float => "Float"
  | double => "Double"

/-- The spelling in shader source, also the stem of vector and matrix names. -/
def sourceName : ScalarKind → String
  | bool => "bool"
  | int => "int"
  | uint => "uint"
  | int64 => "int64_t"
  | uint64 => "uint64_t"
  | half => "half"
  | float => "float"
  | double => "double"

/-- Width in bytes; a truth value takes a whole 32-bit word in a buffer. -/
def width : ScalarKind → UInt32
  | half => 2
  | int64 | uint64 | double => 8
  | _ => 4

def ofName? (s : String) : Option ScalarKind := all.find? (·.name == s)

end ScalarKind

end ShaderBuild
