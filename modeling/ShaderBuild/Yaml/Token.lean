import ShaderBuild.Yaml.Scalar
import ShaderBuild.Yaml.Tag

namespace ShaderBuild.Yaml

inductive Token
  | versionDirective (major minor : Nat)
  | tagDirective (handle : String) (start : List UInt8)
  | documentStart
  | documentEnd
  | blockSequenceStart
  | blockMappingStart
  | blockEnd
  | flowSequenceStart
  | flowSequenceEnd
  | flowMappingStart
  | flowMappingEnd
  | blockEntry
  | flowEntry
  | key
  | value
  | reference (name : String)
  | anchor (name : String)
  | tag (handle : String) (suffix : List UInt8)
  | scalar (style : ScalarStyle) (text : String)
deriving DecidableEq, Repr, Inhabited

namespace Token

def name (c : Cursor) : Except Fault (String × Cursor) :=
  let (name, c) := c.span isNameChar
  let ends := endsWord c.rest || match c.rest with
    | [] => true
    | d :: _ => d == '?' || d == ':' || d == ',' || d == ']' || d == '\x7d' || d == '%' ||
        d == '@' || d == '\x60'
  if name.isEmpty || !ends then .error c.fault else .ok (.ofList name, c)

/-- The bytes that the characters of a tag stand for, up to the first zero. -/
def tagBytes (bounded : Bool) (c : Cursor) : Except Fault (List UInt8 × Cursor) :=
  let (text, c) := c.span (Tag.isChar bounded)
  match Tag.unescape? 0 text with
  | some bytes => .ok (Tag.untilZero bytes, c)
  | none => .error c.fault

def someTagBytes (bounded : Bool) (c : Cursor) : Except Fault (List UInt8 × Cursor) :=
  if c.rest.head?.any (Tag.isChar bounded) then tagBytes bounded c else .error c.fault

def tagHandle (c : Cursor) : List Char × Bool × Cursor :=
  let (name, c) := (c.skip 1).span isNameChar
  if c.rest.head? == some '!' then ('!' :: name ++ ['!'], true, c.skip 1)
  else ('!' :: name, false, c)

/-- A tag: verbatim between angles, behind a named handle, or behind the plain one. -/
def tagged (inBrackets : Bool) (c : Cursor) : Except Fault (Token × Cursor) := do
  let (token, c) ←
    if (c.rest.drop 1).head? == some '<' then
      let (bytes, c) ← someTagBytes true (c.skip 2)
      if c.rest.head? != some '>' then .error c.fault else .ok (tag "" bytes, c.skip 1)
    else
      let (handle, closed, c) := tagHandle c
      if closed then
        let (bytes, c) ← someTagBytes false c
        .ok (tag (.ofList handle) bytes, c)
      else
        let (bytes, c) ← tagBytes false c
        let suffix := Text.Utf8.encode (.ofList (handle.drop 1)) ++ bytes
        .ok (if suffix.isEmpty then tag "" Tag.plain.bytes else tag "!" suffix, c)
  if endsWord c.rest || inBrackets && c.rest.head? == some ',' then .ok (token, c)
  else .error c.fault

def versionNumber (c : Cursor) : Except Fault (Nat × Cursor) :=
  let (digits, c) := c.span Char.isDigit
  if digits.isEmpty || 9 < digits.length then .error c.fault
  else .ok (digits.foldl (fun n d => 10 * n + (d.toNat - '0'.toNat)) 0, c)

def directive (c : Cursor) : Except Fault (Token × Cursor) := do
  let (name, c) := (c.skip 1).span isNameChar
  if name.isEmpty || !endsWord c.rest then .error c.fault
  let (_, c) := c.span isBlank
  let (token, c) ←
    if name = "YAML".toList then
      let (major, c) ← versionNumber c
      if c.rest.head? != some '.' then .error c.fault
      let (minor, c) ← versionNumber (c.skip 1)
      pure (versionDirective major minor, c)
    else if name = "TAG".toList then
      if c.rest.head? != some '!' then .error c.fault
      let (handle, closed, c) := tagHandle c
      let single := handle = ['!']
      if !(closed || single) || !(c.rest.head?.any isBlank) then .error c.fault
      let (_, c) := c.span isBlank
      let (start, c) ← someTagBytes true c
      if !endsWord c.rest then .error c.fault
      pure (tagDirective (.ofList handle) start, c)
    else .error c.fault
  match c.toLineEnd? with
  | some c => .ok (token, c)
  | none => .error c.fault

end Token

end ShaderBuild.Yaml
