import ShaderBuild.Code.File
import ShaderBuild.Error
import ShaderBuild.Text.Page

namespace ShaderBuild.Code.Cpp

open Text (Directive)

def scalarType : ScalarKind → String
  | .float => "float"
  | .int => "int32_t"
  | .uint => "uint32_t"
  | .bool => "uint32_t"
  | .half => "uint16_t"
  | .double => "double"
  | .int64 => "int64_t"
  | .uint64 => "uint64_t"

def enumType (enum : String) : String := enum ++ "::Type"

/-- The base type of a field and the dimensions that its type adds to the array dimensions. -/
def baseType : FieldType → String × List UInt32
  | .scalar k => (scalarType k, [])
  | .vector k n => (scalarType k, [n])
  | .matrix k n m => (scalarType k, [n, m])
  | .uint32 => ("uint32_t", [])
  | .str => ("const char*", [])
  | .bytes => ("const uint8_t*", [])
  | .enum n => (enumType n, [])
  | .named n => (n, [])

/-- The dimensions of a declarator, outermost first. -/
def dimensions (f : Field) : List UInt32 := f.dims ++ (baseType f.type).2

def declarator (f : Field) : String :=
  s!"{(baseType f.type).1} {f.name}" ++ String.join ((dimensions f).map fun d => s!"[{d}]")

/-- One character of a string literal. A byte that is not printable becomes a hexadecimal escape,
which ends with the literal so that a digit behind it stands apart. -/
def literalChar (c : Char) : List Char :=
  if c == '"' then ['\\', '"']
  else if c == '\\' then ['\\', '\\']
  else if c == '\n' then ['\\', 'n']
  else if 0x20 ≤ c.toNat && c.toNat < 0x7F then [c]
  else (String.singleton c).toUTF8.toList.flatMap fun b => '\\' :: 'x' :: Text.hexByte b ++ ['"', '"']

def stringLiteral (s : String) : String :=
  .ofList ('"' :: (s.toList.flatMap literalChar ++ ['"']))

def value : Value → String
  | .uint n => s!"{n}u"
  | .maxUInt32 => "UINT32_MAX"
  | .enumVariant e v => s!"{e}::{v}"
  | .enumIndex e v => s!"static_cast<uint32_t>({e}::{v})"
  | .sizeOf t => s!"static_cast<uint32_t>(sizeof({t}))"
  | .str s => stringLiteral s
  | .blob n => n
  | .blobLength n _ => s!"static_cast<uint32_t>(sizeof({n}))"
  | .noBlob => "nullptr"

def block (body : List Directive) (close : String) : List Directive :=
  .opening "\x7b" :: body ++ [.closing close, .blank]

def enumDecl (d : EnumDecl) : List Directive :=
  let variants := d.variants.mapIdx fun i v => Directive.line s!"{v} = {i},"
  [.line s!"namespace {d.name}", .opening "\x7b", .line "enum Type : uint32_t", .opening "\x7b"] ++
    variants ++
    [.line s!"{countVariant} = {d.variants.length}", .closing "\x7d;",
      .closing s!"\x7d // namespace {d.name}", .blank]

def fieldLine (f : Field) : Directive :=
  match f.sourceType with
  | some t => .line s!"{declarator f}; // {t}"
  | none => .line s!"{declarator f};"

def structDecl (d : StructDecl) : List Directive :=
  .line s!"struct {d.name}" :: block (d.fields.map fieldLine) "\x7d;"

def wrapperDecl (d : WrapperDecl) : List Directive :=
  .line s!"struct {d.name} : public {d.base}" ::
    block
      [.line s!"static constexpr uint32_t index = {value d.index};",
        .line s!"static constexpr uint32_t size = {value d.size};",
        .line s!"static constexpr uint32_t stride = {value d.stride};"] "\x7d;"

/-- What stands in front of a definition: in a header it must be inline. -/
def linkage (inHeader : Bool) : String := if inHeader then "inline " else ""

def storage (inHeader : Bool) : String := if inHeader then "inline" else "static"

def instanceHead (d : InstanceDecl) : String := s!"const {d.type} {d.name}"

def instanceDefinition (inHeader : Bool) (d : InstanceDecl) : List Directive :=
  .line s!"{linkage inHeader}{instanceHead d} =" ::
    block (d.values.map fun (field, v) => .line s!"{value v}, // {field}") "\x7d;"

def blobHead (d : BlobDecl) : String := s!"const uint8_t {d.name}[{d.bytes.length}]"

def blobDefinition (inHeader : Bool) (d : BlobDecl) : List Directive :=
  .line s!"{linkage inHeader}{blobHead d} =" :: block ((hexRows d.bytes 16).map .line) "\x7d;"

def lookupParameter : TableKind → String
  | .byId => "uint32_t id"
  | .byEnum key => s!"{enumType key} key"
  | .byName => "std::string_view name"

def lookupIndex : TableKind → String
  | .byId => "id"
  | .byEnum _ => "static_cast<uint32_t>(key)"
  | .byName => ""

def tableSignature (d : TableDecl) : String :=
  s!"const {d.elementType}& {d.lookup}({lookupParameter d.kind})"

def arrayTable (inHeader : Bool) (d : TableDecl) : List Directive :=
  let index := lookupIndex d.kind
  .line (s!"{storage inHeader} const std::array<const {d.elementType}*, {d.entries.length}> " ++
      s!"{d.name} =") ::
    block (d.entries.map fun e => .line s!"&{e.2},") "\x7d;" ++
  .line s!"{linkage inHeader}{tableSignature d}" ::
    block [.line s!"return {index} < {d.name}.size() ? *{d.name}[{index}] : {d.fallback};"] "\x7d"

def mapTable (inHeader : Bool) (d : TableDecl) : List Directive :=
  .line (s!"{storage inHeader} const std::unordered_map<std::string_view, const {d.elementType}*> " ++
      s!"{d.name} =") ::
    block (d.entries.map fun e => .line s!"\x7b {stringLiteral e.1}, &{e.2} \x7d,") "\x7d;" ++
  .line s!"{linkage inHeader}{tableSignature d}" ::
    block
      [.line s!"const auto it = {d.name}.find(name);",
        .line s!"return it != {d.name}.end() ? *it->second : {d.fallback};"] "\x7d"

def tableDefinition (inHeader : Bool) (d : TableDecl) : List Directive :=
  match d.kind with
  | .byName => mapTable inHeader d
  | _ => arrayTable inHeader d

def dispatcherSignature (d : DispatcherDecl) : String :=
  s!"const {d.returnType}& {d.name}({enumType d.keyEnum} key, {enumType d.selectorEnum} selector)"

def dispatcherDefinition (inHeader : Bool) (d : DispatcherDecl) : List Directive :=
  let routes := d.routes.flatMap fun (variant, module) =>
    [Directive.line s!"case {d.selectorEnum}::{variant}:",
      .line s!"    return {module}::{d.name}(key);"]
  [.line s!"{linkage inHeader}{dispatcherSignature d}", .opening "\x7b",
      .line "switch (selector)", .opening "\x7b"] ++
    routes ++
    [.line "default:", .line s!"    return {d.fallback};", .closing "\x7d", .closing "\x7d", .blank]

/-- What a file writes into its header and into its source. -/
structure Sides where
  header : List Directive
  source : List Directive
deriving Repr, Inhabited

namespace Sides

def append (a b : Sides) : Sides := ⟨a.header ++ b.header, a.source ++ b.source⟩

/-- A definition: inline in the header, or in the source with a declaration in the header. -/
def define (headerOnly : Bool) (declaration : String) (definition : Bool → List Directive) : Sides :=
  if headerOnly then ⟨definition true, []⟩
  else ⟨[.line s!"{declaration};", .blank], definition false⟩

def inNamespace (headerOnly : Bool) (name : String) (u : Sides) : Sides :=
  let wrap (body : List Directive) : List Directive :=
    .line s!"namespace {name}" :: block body s!"\x7d // namespace {name}"
  ⟨wrap u.header, if headerOnly then u.source else wrap u.source⟩

end Sides

mutual
def itemSides (headerOnly : Bool) : Item → Sides
  | .comment text => ⟨[.line s!"// {text}"], []⟩
  | .enum d => ⟨enumDecl d, []⟩
  | .struct d => ⟨structDecl d, []⟩
  | .wrapper d => ⟨wrapperDecl d, []⟩
  | .instance_ d =>
    .define headerOnly s!"extern {instanceHead d}" fun h => instanceDefinition h d
  | .table d => .define headerOnly (tableSignature d) fun h => tableDefinition h d
  | .blob d => .define headerOnly s!"extern {blobHead d}" fun h => blobDefinition h d
  | .module name items => (itemsSides headerOnly items).inNamespace headerOnly name
  | .dispatcher d => .define headerOnly (dispatcherSignature d) fun h => dispatcherDefinition h d
def itemsSides (headerOnly : Bool) : List Item → Sides
  | [] => ⟨[], []⟩
  | i :: r => (itemSides headerOnly i).append (itemsSides headerOnly r)
end

mutual
/-- The first blob without bytes, for which C++ has no array. -/
def emptyBlob? : Item → Option String
  | .blob d => if d.bytes.isEmpty then some d.name else none
  | .module _ items => emptyBlobs? items
  | _ => none
def emptyBlobs? : List Item → Option String
  | [] => none
  | i :: r => (emptyBlob? i).or (emptyBlobs? r)
end

def includeLine : Dependency → Directive
  | .std name => .line s!"#include <{name}>"
  | .sibling name => .line s!"#include \"{name}.h\""

def preamble (f : File) : Sides :=
  ⟨[.line banner, .line "#pragma once", .blank] ++ f.dependencies.map includeLine ++ [.blank],
    if f.headerOnly then [] else [.line banner, includeLine (.sibling f.name), .blank]⟩

def fileSides (f : File) : Sides := (preamble f).append (itemsSides f.headerOnly f.items)

def emptyBlobError (name : String) : Error :=
  ⟨.generation, .cppEmitter, s!"blob '{name}' is empty; zero-sized arrays are not valid C++"⟩

/-- The header, and the source unless the file is header only. -/
def emit (f : File) : Except Error (List EmittedFile) :=
  match emptyBlobs? f.items with
  | some name => refuse (emptyBlobError name)
  | none =>
    let u := fileSides f
    let header : EmittedFile := ⟨f.name ++ ".h", Text.render u.header⟩
    if f.headerOnly then .ok [header]
    else .ok [header, ⟨f.name ++ ".cpp", Text.render u.source⟩]

end ShaderBuild.Code.Cpp
