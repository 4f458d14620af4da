import ShaderBuild.Text.Hex
import ShaderBuild.Text.Utf8
import ShaderBuild.Yaml.Source

namespace ShaderBuild.Yaml

structure Tag where
  bytes : List UInt8
deriving DecidableEq, Repr, Inhabited

namespace Tag

def mark : UInt8 := 0x21

def plain : Tag := ⟨[mark]⟩

def ofText (s : String) : Tag := ⟨Text.Utf8.encode s⟩

def core (type : String) : Tag := .ofText ("tag:yaml.org,2002:" ++ type)

/-- The document's own tag for a label. -/
def ofLabel (label : String) : Tag := .ofText ("!" ++ label)

def isLocal (t : Tag) : Bool := t.bytes.head? == some mark

/-- What a tag of the document's own says, if that is text. The mark alone stands for itself. -/
def label? (t : Tag) : Option String :=
  match t.bytes with
  | [] => none
  | [b] => if b = mark then some "!" else none
  | b :: r => if b = mark then Text.Utf8.decode? r else none

def isChar (bounded : Bool) (c : Char) : Bool :=
  isNameChar c || ";/?:@&=+$.!~*'()%".toList.contains c || bounded && ",[]".toList.contains c

def following? (b : UInt8) : Option Nat :=
  if b < 0x80 then some 0
  else if b < 0xC0 then none
  else if b < 0xE0 then some 1
  else if b < 0xF0 then some 2
  else if b < 0xF8 then some 3
  else none

/-- The bytes that characters stand for, where an escape is a percent sign in front of two hexadecimal
digits. So many more bytes of one character are to come as escapes. -/
def unescape? (left : Nat) : List Char → Option (List UInt8)
  | [] => if left = 0 then some [] else none
  | '%' :: a :: b :: r => do
    let byte := UInt8.ofNat (16 * (← Text.hexValue? a) + (← Text.hexValue? b))
    let left ←
      if left = 0 then following? byte
      else if 0x80 ≤ byte ∧ byte < 0xC0 then some (left - 1)
      else none
    return byte :: (← unescape? left r)
  | c :: r =>
    if c = '%' ∨ left ≠ 0 then none
    else (unescape? 0 r).map (String.utf8EncodeChar c ++ ·)

def untilZero (bytes : List UInt8) : List UInt8 := bytes.takeWhile (· != 0)

def escape (bounded : Bool) (bytes : List UInt8) : List Char :=
  bytes.flatMap fun b =>
    let c := Char.ofNat b.toNat
    if isChar bounded c && c != '%' && c != '!' then [c]
    else '%' :: (Text.hexByte b).map Char.toUpper

def write (t : Tag) : List Char :=
  if t.isLocal then '!' :: escape false t.bytes.tail
  else '!' :: '<' :: (escape true t.bytes ++ ['>'])

end Tag

end ShaderBuild.Yaml
