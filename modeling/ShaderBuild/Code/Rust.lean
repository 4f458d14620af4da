import ShaderBuild.Code.File
import ShaderBuild.Code.Reserved
import ShaderBuild.Text.Page
import ShaderBuild.Text.Quoted

namespace ShaderBuild.Code.Rust

open Text (Directive)

def allowance : String :=
  "#[allow(non_snake_case, non_camel_case_types, non_upper_case_globals, dead_code)]"

/-- A name that can stand in source: keywords are written raw, or get an underscore. -/
def ident (name : String) : String :=
  if rustPathWords.contains name then name ++ "_"
  else if rustKeywords.contains name then "r#" ++ name
  else name

def scalarType : ScalarKind → String
  | .float => "f32"
  | .int => "i32"
  | .uint => "u32"
  | .bool => "u32"
  | .half => "u16"
  | .double => "f64"
  | .int64 => "i64"
  | .uint64 => "u64"

def baseType : FieldType → String × List UInt32
  | .scalar k => (scalarType k, [])
  | .vector k n => (scalarType k, [n])
  | .matrix k rows cols => (scalarType k, [rows, cols])
  | .uint32 => ("u32", [])
  | .str => ("&\x27static str", [])
  | .bytes => ("&\x27static [u8]", [])
  | .enum n => (ident n, [])
  | .named n => (ident n, [])

def dimensions (f : Field) : List UInt32 := f.dims ++ (baseType f.type).2

def fieldType (f : Field) : String :=
  (dimensions f).foldr (fun d inner => s!"[{inner}; {d}]") (baseType f.type).1

def value : Value → String
  | .uint n => toString n
  | .maxUInt32 => "u32::MAX"
  | .enumVariant e v => s!"{ident e}::{ident v}"
  | .enumIndex e v => s!"{ident e}::{ident v} as u32"
  | .sizeOf t => s!"::core::mem::size_of::<{ident t}>() as u32"
  | .str s => Text.quoted s
  | .blob n => "&" ++ ident n
  | .blobLength _ n => toString n
  | .noBlob => "&[]"

def block (head : String) (body : List Directive) (close : String) : List Directive :=
  .opening head :: body ++ [.closing close]

def dataAttributes : List Directive :=
  [.line allowance, .line "#[repr(C)]", .line "#[derive(Debug, Clone, Copy)]"]

def enumDecl (d : EnumDecl) : List Directive :=
  let variants := d.variants.mapIdx fun i v => Directive.line s!"{ident v} = {i},"
  [.line allowance, .line "#[repr(u32)]",
      .line "#[derive(Debug, Clone, Copy, PartialEq, Eq, Hash)]"] ++
    block s!"pub enum {ident d.name} \x7b"
      (variants ++ [.line s!"{countVariant} = {d.variants.length},"]) "\x7d" ++ [.blank]

def fieldLine (f : Field) : Directive :=
  let line := s!"pub {ident f.name}: {fieldType f},"
  match f.sourceType with
  | some t => .line s!"{line} // {t}"
  | none => .line line

def structDecl (d : StructDecl) : List Directive :=
  dataAttributes ++ block s!"pub struct {ident d.name} \x7b" (d.fields.map fieldLine) "\x7d" ++
    [.blank]

def wrapperDecl (d : WrapperDecl) : List Directive :=
  dataAttributes ++
    block s!"pub struct {ident d.name} \x7b" [.line s!"pub data: {ident d.base},"] "\x7d" ++
    [.blank, .line allowance] ++
    block s!"impl {ident d.name} \x7b"
      [.line s!"pub const index: u32 = {value d.index};",
        .line s!"pub const size: u32 = {value d.size};",
        .line s!"pub const stride: u32 = {value d.stride};"] "\x7d" ++ [.blank]

def instanceDecl (d : InstanceDecl) : List Directive :=
  .line allowance ::
    block s!"pub static {ident d.name}: {ident d.type} = {ident d.type} \x7b"
      (d.values.map fun (field, v) => .line s!"{ident field}: {value v},") "\x7d;" ++ [.blank]

def blobDecl (d : BlobDecl) : List Directive :=
  .line allowance ::
    block s!"pub static {ident d.name}: [u8; {d.bytes.length}] = ["
      ((hexRows d.bytes 16).map .line) "];" ++ [.blank]

def lookupParameter : TableKind → String
  | .byEnum key => s!"key: {ident key}"
  | _ => "id: u32"

def lookupIndex : TableKind → String
  | .byEnum _ => "key as usize"
  | _ => "id as usize"

def arrayTable (d : TableDecl) : List Directive :=
  let element := ident d.elementType
  .line allowance ::
    block s!"pub static {ident d.name}: [&{element}; {d.entries.length}] = ["
      (d.entries.map fun e => .line s!"&{ident e.2},") "];" ++
    [.blank, .line allowance] ++
    block s!"pub fn {ident d.lookup}({lookupParameter d.kind}) -> &\x27static {element} \x7b"
      [.line (s!"{ident d.name}.get({lookupIndex d.kind}).copied()" ++
        s!".unwrap_or(&{ident d.fallback})")] "\x7d" ++ [.blank]

def nameTable (d : TableDecl) : List Directive :=
  let element := ident d.elementType
  .line allowance ::
    block s!"pub static {ident d.name}: [(&str, &{element}); {d.entries.length}] = ["
      (d.entries.map fun e => .line s!"({Text.quoted e.1}, &{ident e.2}),") "];" ++
    [.blank, .line allowance] ++
    block s!"pub fn {ident d.lookup}(name: &str) -> &\x27static {element} \x7b"
      (block "match name \x7b"
        (d.entries.map (fun e => Directive.line s!"{Text.quoted e.1} => &{ident e.2},") ++
          [.line s!"_ => &{ident d.fallback},"]) "\x7d") "\x7d" ++ [.blank]

def tableDecl (d : TableDecl) : List Directive :=
  match d.kind with
  | .byName => nameTable d
  | _ => arrayTable d

def dispatcherDecl (d : DispatcherDecl) : List Directive :=
  let selector := ident d.selectorEnum
  let name := ident d.name
  let routes := d.routes.map fun (variant, module) =>
    Directive.line s!"{selector}::{ident variant} => {ident module}::{name}(key),"
  .line allowance ::
    block (s!"pub fn {name}(key: {ident d.keyEnum}, selector: {selector}) -> " ++
        s!"&\x27static {ident d.returnType} \x7b")
      (block "match selector \x7b" (routes ++ [.line s!"_ => &{ident d.fallback},"]) "\x7d")
      "\x7d" ++ [.blank]

mutual
def itemLines : Item → List Directive
  | .comment text => [.line s!"// {text}"]
  | .enum d => enumDecl d
  | .struct d => structDecl d
  | .wrapper d => wrapperDecl d
  | .instance_ d => instanceDecl d
  | .table d => tableDecl d
  | .blob d => blobDecl d
  | .module name items =>
    .line allowance ::
      block s!"pub mod {ident name} \x7b"
        ([.line "#[allow(unused_imports)]", .line "use super::*;", .blank] ++ itemsLines items)
        "\x7d" ++ [.blank]
  | .dispatcher d => dispatcherDecl d
def itemsLines : List Item → List Directive
  | [] => []
  | i :: r => itemLines i ++ itemsLines r
end

/-- The root holds its siblings; other files use them. -/
def dependencyLines (headerOnly : Bool) : Dependency → List Directive
  | .std _ => []
  | .sibling name =>
    let module := Text.snakeCase name
    if headerOnly then
      .line allowance ::
        block s!"pub mod {module} \x7b" [.line s!"include!(\"{module}.rs\");"] "\x7d" ++
          [.line s!"pub use {module}::*;"]
    else [.line "#[allow(unused_imports)]", .line s!"use super::{module}::*;"]

def fileLines (f : File) : List Directive :=
  [.line banner, .blank] ++ f.dependencies.flatMap (dependencyLines f.headerOnly) ++ [.blank] ++
    itemsLines f.items

def fileName (name : String) : String := Text.snakeCase name ++ ".rs"

def emit (f : File) : EmittedFile := ⟨fileName f.name, Text.render (fileLines f)⟩

end ShaderBuild.Code.Rust
