import ShaderBuild.Code.File
import ShaderBuild.Layout.Size

namespace ShaderBuild.Code

namespace EnumDecl

def cardinality (e : EnumDecl) : Nat := e.variants.length + 1

/-- The number of a variant modulo 2³², `Count` included. -/
def valueOf? (e : EnumDecl) (variant : String) : Option UInt32 :=
  if variant = countVariant then some (.ofNat e.variants.length)
  else (e.variants.findIdx? (· == variant)).map .ofNat

end EnumDecl

mutual
def Item.flatten : Item → List Item
  | .module n is => .module n is :: flattenItems is
  | i => [i]
def flattenItems : List Item → List Item
  | [] => []
  | i :: r => i.flatten ++ flattenItems r
end

namespace Item

def enum? : Item → Option EnumDecl
  | .enum d => some d
  | _ => none

def struct? : Item → Option StructDecl
  | .struct d => some d
  | _ => none

def instance? : Item → Option InstanceDecl
  | .instance_ d => some d
  | _ => none

def table? : Item → Option TableDecl
  | .table d => some d
  | _ => none

end Item

namespace File

def structs (f : File) : List StructDecl := f.items.filterMap Item.struct?

def struct? (f : File) (name : String) : Option StructDecl := f.structs.find? (·.name == name)

def enum? (f : File) (name : String) : Option EnumDecl :=
  ((flattenItems f.items).filterMap Item.enum?).find? (·.name == name)

def table? (f : File) (name : String) : Option TableDecl :=
  ((flattenItems f.items).filterMap Item.table?).find? (·.name == name)

def instance? (f : File) (name : String) : Option InstanceDecl :=
  ((flattenItems f.items).filterMap Item.instance?).find? (·.name == name)

end File

def struct? (files : List File) (name : String) : Option StructDecl :=
  files.findSome? (·.struct? name)

def structCount (files : List File) : Nat := (files.flatMap (·.structs)).length

def FieldType.size? (named : String → Option UInt32) : FieldType → Option UInt32
  | .named n => named n
  | t => t.packedSize

def fieldSize (named : String → Option UInt32) (f : Field) : Option UInt32 := do
  Word.mul? (← f.type.size? named) f.elementCount

def fieldsSize (named : String → Option UInt32) (fields : List Field) : Option UInt32 :=
  fields.foldlM (fun total f => do Word.add? total (← fieldSize named f)) 0

def structSizeWithin (files : List File) : Nat → String → Option UInt32
  | 0, _ => none
  | depth + 1, name => do
    let d ← struct? files name
    fieldsSize (structSizeWithin files depth) d.fields

/-- The size of a struct declared in one of the files. Structs that do not contain themselves are
nested at most as deep as there are structs. -/
def structSize (files : List File) (name : String) : Option UInt32 :=
  structSizeWithin files (structCount files) name

end ShaderBuild.Code
