import ShaderBuild.Code.Reserved
import ShaderBuild.Reflection.Binding

namespace ShaderBuild.Metadata

def umbrellaFile : String := "ShaderMetadata"

def typesFile : String := "ShaderMetadataTypes"

def paddingMark : String := "_pad"

def kindName (b : Bucket) : String := b.name ++ "Metadata"

def enumName (b : Bucket) : String := b.name ++ "s"

def instanceName (b : Bucket) (resource : String) : String := b.name ++ "Metadata_" ++ resource

def invalidName (b : Bucket) : String := b.name ++ "MetadataInvalid"

def idTableName (b : Bucket) : String := b.name ++ "MetadataTable"

def nameTableName (b : Bucket) : String := b.name ++ "MetadataByName"

def wrapperName (resource : String) : String := resource ++ "Metadata"

open Code

/-- Why a layout has no plain struct. -/
inductive StructError
  | reservedMember (owner member : String)
  | overlap (owner member : String) (offset stop : UInt32)
  | memberOverflow (owner member : String)
  | tooLong (owner : String) (span size : UInt32)
  | sameField (owner field : String)
  | oddGap (owner : String) (gap : UInt32)
  | arrayOverflow (owner member : String)
  | reservedStruct (struct owner : String)
  | badStride (owner member : String) (stride each : UInt32)
  | structClash (struct : String)

namespace StructError

def message : StructError → String
  | reservedMember o m => s!"member '{o}.{m}' uses a name reserved in generated code"
  | overlap o m offset stop =>
    s!"member '{o}.{m}' at offset {offset} overlaps the previous member, which ends at {stop}"
  | memberOverflow o m => s!"member '{o}.{m}' ends past 4 GiB"
  | tooLong o span size => s!"'{o}' spans {span} bytes but its layout is {size} bytes"
  | sameField o f => s!"'{o}' has two fields named '{f}'"
  | oddGap o gap => s!"'{o}' has a {gap}-byte gap that cannot be padded"
  | arrayOverflow o m => s!"array '{o}.{m}' is larger than 4 GiB"
  | reservedStruct s o => s!"struct '{s}' in '{o}' uses a name reserved in generated code"
  | badStride o m stride each =>
    s!"array '{o}.{m}' has a {stride}-byte stride for {each}-byte elements"
  | structClash s => s!"struct '{s}' is generated twice with different layouts"

def toError (e : StructError) : Error := ⟨.generation, .generator, e.message⟩

instance : Coe StructError Error := ⟨toError⟩

end StructError

/-- The next padding field, numbered by the fields that look like one. -/
def paddingField (fields : List Field) (kind : ScalarKind) (count : UInt32) : Field :=
  let index := fields.countP fun f => paddingMark.toList.isPrefixOf f.name.toList
  ⟨s!"{paddingMark}{index}", .scalar kind, [count], none⟩

/-- Cover a gap with whole words, or with half words where it is not so long. -/
def pad (owner : String) (fields : List Field) (gap : UInt32) : Except Error (List Field) :=
  if gap = 0 then .ok fields
  else if gap % 4 = 0 then .ok (fields ++ [paddingField fields .uint (gap / 4)])
  else if gap % 2 = 0 then .ok (fields ++ [paddingField fields .half (gap / 2)])
  else refuse (StructError.oddGap owner gap)

def sameName? (before : List Field) : List Field → Option String
  | [] => none
  | f :: r => if before.any (·.name == f.name) then some f.name else sameName? (before ++ [f]) r

/-- Add a struct unless the very same one is there. -/
def addStruct (nested : List StructDecl) (d : StructDecl) : Except Error (List StructDecl) :=
  match nested.find? (·.name == d.name) with
  | some e => if e = d then .ok nested else refuse (StructError.structClash d.name)
  | none => .ok (nested ++ [d])

structure Placement where
  field : Field
  size : UInt32
  nested : List StructDecl

structure Progress where
  fields : List Field
  stop : UInt32
  nested : List StructDecl

/-- Make short scalars and vectors of an array as long as the stride, as vectors of at most four
components. -/
def widen (owner : String) (f : Field) (each stride : UInt32) : Except Error Field :=
  let fail : Except Error Field := refuse (StructError.badStride owner f.name stride each)
  let lanes (k : ScalarKind) : Except Error Field :=
    -- an array of arrays has no room for its stride between the inner elements
    if f.dims.isEmpty ∧ each < stride ∧ stride % k.width = 0 ∧ stride / k.width ≤ 4 then
      .ok { f with
        type := .vector k (stride / k.width)
        sourceType := f.sourceType.map fun t => s!"{t} (stride {stride})" }
    else fail
  match f.type with
  | .scalar k => lanes k
  | .vector k _ => lanes k
  | _ => fail

def stretch (owner : String) (f : Field) (each : UInt32) :
    Option UInt32 → Except Error (Field × UInt32)
  | none => .ok (f, each)
  | some s => if s = each then .ok (f, each) else do return (← widen owner f each s, s)

def arrayField (owner : String) (element : Placement) (count stride : Option UInt32) :
    Except Error Placement := do
  let ⟨f, each, nested⟩ := element
  let (f, each) ← stretch owner f each stride
  let count := count.getD 1
  let size ← need (Word.mul? each count) (StructError.arrayOverflow owner f.name)
  return ⟨{ f with dims := count :: f.dims }, size, nested⟩

/-- The name of the struct generated for a member: a struct without a name takes that of its field. -/
def structName (owner member struct : String) : String :=
  let clean := Text.sanitize struct
  if clean = "" then s!"{owner}_{member}" else clean

/-- The field of a struct, which is added to the collected ones. It is at least as long as the span
asked for, the stride of the array it is an element of. -/
def structField (owner member struct : String) (members : List Member) (span : Option UInt32)
    (fieldsOf : String → UInt32 → Except Error (List Field × List StructDecl)) :
    Except Error Placement := do
  let name := structName owner member struct
  if isReserved name then
    refuse (StructError.reservedStruct name owner)
  let stop ← extent members
  let size := max (span.getD 0) stop
  let (fields, nested) ← fieldsOf name size
  let nested ← addStruct nested ⟨name, fields⟩
  return ⟨⟨member, .named name, [], some name⟩, size, nested⟩

/-- Pad to the end of a struct and check that its field names differ. -/
def finish (owner : String) (size : UInt32) (p : Progress) :
    Except Error (List Field × List StructDecl) := do
  if size < p.stop then
    refuse (StructError.tooLong owner p.stop size)
  let fields ← pad owner p.fields (size - p.stop)
  match sameName? [] fields with
  | some name => refuse (StructError.sameField owner name)
  | none => return (fields, p.nested)

mutual
/-- The field of one member. A struct spans at least the bytes asked for. -/
def place (language : SourceLanguage) (owner name : String) (span : Option UInt32)
    (nested : List StructDecl) : MemberType → Except Error Placement
  | .scalar k => do
    let size ← (MemberType.scalar k).packedSize
    return ⟨⟨name, .scalar k, [], some k.sourceName⟩, size, nested⟩
  | .vector k n => do
    let size ← (MemberType.vector k n).packedSize
    return ⟨⟨name, .vector k n, [], some s!"{k.sourceName}{n}"⟩, size, nested⟩
  | .matrix k n m => do
    let (rows, cols) := language.matrixShape n m
    let size ← (MemberType.matrix k n m).packedSize
    return ⟨⟨name, .matrix k rows cols, [], some s!"{k.sourceName}{rows}x{cols}"⟩, size, nested⟩
  | .array e count stride => do
    arrayField owner (← place language owner name stride nested e) count stride
  | .struct s ms =>
    structField owner name s ms span fun struct size => do
      finish struct size (← placeAll language struct ⟨[], 0, nested⟩ ms)
def placeAll (language : SourceLanguage) (owner : String) (p : Progress) :
    List Member → Except Error Progress
  | [] => .ok p
  | ⟨raw, offset, type⟩ :: r => do
    let name := Text.sanitize raw
    if isCppKeyword name then
      refuse (StructError.reservedMember owner name)
    if offset < p.stop then
      refuse (StructError.overlap owner name offset p.stop)
    let fields ← pad owner p.fields (offset - p.stop)
    let placed ← place language owner name none p.nested type
    let stop ← need (Word.add? offset placed.size) (StructError.memberOverflow owner name)
    placeAll language owner ⟨fields ++ [placed.field], stop, placed.nested⟩ r
end

def fieldsOf (language : SourceLanguage) (owner : String) (members : List Member) (size : UInt32)
    (nested : List StructDecl) : Except Error (List Field × List StructDecl) := do
  finish owner size (← placeAll language owner ⟨[], 0, nested⟩ members)

end ShaderBuild.Metadata
