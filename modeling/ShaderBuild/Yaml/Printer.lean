import ShaderBuild.Text.Hex
import ShaderBuild.Yaml.Node
import ShaderBuild.Yaml.Style

namespace ShaderBuild.Yaml

def pad (n : Nat) : List Char := List.replicate n ' '

def endLine (cs : List Char) : List Char :=
  if cs.getLast?.any isBreak then cs else cs ++ ['\n']

namespace Node

def writeLines (margin : Nat) (fresh : Bool) : List Char → List Char
  | [] => []
  | c :: r =>
    if isBreak c then c :: writeLines margin true r
    else (if fresh then pad margin else []) ++ c :: writeLines margin false r

def writeSingleQuoted (margin : Nat) (cs : List Char) : List Char :=
  let doubled := cs.flatMap fun c => if c == '\'' then ['\'', '\''] else [c]
  let ending := if cs.getLast?.any isBreak then pad margin else []
  '\'' :: (writeLines margin false doubled ++ ending ++ ['\''])

def escape (c : Char) : List Char :=
  match c with
  | '\x00' => ['\\', '0']
  | '\x07' => ['\\', 'a']
  | '\x08' => ['\\', 'b']
  | '\t' => ['\\', 't']
  | '\n' => ['\\', 'n']
  | '\x0b' => ['\\', 'v']
  | '\x0c' => ['\\', 'f']
  | '\r' => ['\\', 'r']
  | '\x1b' => ['\\', 'e']
  | '"' => ['\\', '"']
  | '\\' => ['\\', '\\']
  | '\u0085' => ['\\', 'N']
  | '\u2028' => ['\\', 'L']
  | '\u2029' => ['\\', 'P']
  | _ =>
    if ScalarStyle.isPrintable c then [c]
    else
      let (letter, width) :=
        if c.toNat < 0x100 then ('x', 2) else if c.toNat < 0x10000 then ('u', 4) else ('U', 8)
      '\\' :: letter :: (Text.hexChars width c.toNat).map Char.toUpper

def writeDoubleQuoted (cs : List Char) : List Char := '"' :: (cs.flatMap escape ++ ['"'])

/-- What a block says about its margin and its last breaks. -/
def blockHeader (cs : List Char) : List Char :=
  let marginHint := if cs.head?.any isGap then ['2'] else []
  let ending :=
    match cs.reverse with
    | [] => ['-']
    | [c] => if isBreak c then ['+'] else ['-']
    | c :: d :: _ => if !isBreak c then ['-'] else if isBreak d then ['+'] else []
  '|' :: (marginHint ++ ending)

def writeScalar (margin : Nat) (style : ScalarStyle) (s : String) : List Char :=
  let cs := s.toList
  match style with
  | .plain => cs
  | .singleQuoted => writeSingleQuoted margin cs
  | .literal => blockHeader cs ++ '\n' :: writeLines margin true cs
  | .doubleQuoted | .folded => writeDoubleQuoted cs

def writeProperties (p : Properties) : List Char :=
  let anchor := match p.anchor with
    | some n => s!" &{n}".toList
    | none => []
  let tag := match p.tag with
    | some t => ' ' :: t.write
    | none => []
  anchor ++ tag

/-- Whether a node can stand in front of a colon. -/
def isSimpleKey : Node → Bool
  | reference _ => true
  | scalar _ style _ => style != .literal
  | _ => false

mutual

/-- A node behind an indicator at a column, to the end of its last line. Untagged collections start
on the line of the indicator, if `compact`; entries of a sequence stand at column `items`. -/
def writeBehind (column items : Nat) (compact : Bool) : Node → List Char
  | reference n => s!" *{n}\n".toList
  | scalar p style s =>
    endLine (writeProperties p ++ ' ' :: writeScalar (column + 2) style s)
  | sequence p [] => writeProperties p ++ " []\n".toList
  | mapping p [] => writeProperties p ++ " \x7b\x7d\n".toList
  | sequence p ns =>
    let head := writeProperties p
    let lines := writeItems items ns
    if compact && head.isEmpty then ' ' :: lines.drop items else head ++ '\n' :: lines
  | mapping p es =>
    let head := writeProperties p
    let lines := writeEntries (column + 2) es
    if compact && head.isEmpty then ' ' :: lines.drop (column + 2) else head ++ '\n' :: lines

def writeItems (column : Nat) : List Node → List Char
  | [] => []
  | n :: r => pad column ++ '-' :: writeBehind column (column + 2) true n ++ writeItems column r

def writeEntries (column : Nat) : List (Node × Node) → List Char
  | [] => []
  | (k, v) :: r =>
    let key :=
      if isSimpleKey k then
        pad column ++ ((writeBehind column column false k).drop 1).dropLast ++
          ':' :: writeBehind column column false v
      else
        pad column ++ '?' :: writeBehind column (column + 2) true k ++
          pad column ++ ':' :: writeBehind column (column + 2) true v
    key ++ writeEntries column r

end

def render (n : Node) : String :=
  .ofList <|
    match n with
    | sequence ⟨none, none⟩ (i :: r) => writeItems 0 (i :: r)
    | mapping ⟨none, none⟩ (e :: r) => writeEntries 0 (e :: r)
    | n => (writeBehind 0 0 false n).drop 1

def ofText (s : String) : Node := scalar {} (.ofText s) s

def ofWord (s : String) : Node := scalar {} .plain s

def null : Node := ofWord "null"

def record (fields : List (String × Node)) : Node :=
  mapping {} (fields.map fun (name, n) => (ofWord name, n))

def labelled (label : String) : Node → Node
  | scalar p style s => scalar { p with tag := some (.ofLabel label) } style s
  | sequence p ns => sequence { p with tag := some (.ofLabel label) } ns
  | mapping p es => mapping { p with tag := some (.ofLabel label) } es
  | n => n

end Node

end ShaderBuild.Yaml
