namespace ShaderBuild.Yaml

inductive Fault
  | character (code : Nat)
  | token (line column : Nat)
  | malformed
  | unknownAnchor (name : String)
  | unknownHandle (handle : String)
  | tooDeep
  | tooManyAliases
  | duplicateKey
  | severalDocuments
  | mismatch (wanted : String)
deriving DecidableEq, Repr, Inhabited

namespace Fault

def message : Fault → String
  | character n => s!"character {n} is not allowed"
  | token line column => s!"nothing can start at line {line + 1} column {column + 1}"
  | malformed => "the document is not well formed"
  | unknownAnchor n => s!"unknown anchor {n}"
  | unknownHandle h => s!"unknown tag handle {h}"
  | tooDeep => "the document nests too deep"
  | tooManyAliases => "the document repeats too much"
  | duplicateKey => "duplicate key"
  | severalDocuments => "more than one document"
  | mismatch wanted => s!"expected {wanted}"

end Fault

def isBlank (c : Char) : Bool := c == ' ' || c == '\t'

def isBreak (c : Char) : Bool := c == '\n' || c == '\u2028' || c == '\u2029'

def isGap (c : Char) : Bool := isBlank c || isBreak c

def endsWord : List Char → Bool
  | [] => true
  | c :: _ => isGap c

def isNameChar (c : Char) : Bool := c.isAlphanum || c == '-' || c == '_'

def isAdmissible (c : Char) : Bool :=
  c == '\t' || c == '\n' || c == '\r' || c == '\u0085' || (' ' ≤ c && c ≤ '~') ||
    ('\u00a0' ≤ c && c ≤ '\ufffd') || '\uffff' < c

def normalize : List Char → List Char
  | [] => []
  | '\r' :: '\n' :: r => '\n' :: normalize r
  | c :: r => (if c == '\r' || c == '\u0085' then '\n' else c) :: normalize r

structure Mark where
  index : Nat := 0
  line : Nat := 0
  column : Nat := 0
deriving DecidableEq, Repr, Inhabited

namespace Mark

def after (m : Mark) (c : Char) : Mark :=
  if isBreak c then ⟨m.index + c.utf8Size, m.line + 1, 0⟩
  else ⟨m.index + c.utf8Size, m.line, m.column + 1⟩

def afterAll (m : Mark) (cs : List Char) : Mark := cs.foldl after m

end Mark

/-- Whether a line starts with three hyphens or three dots that stand alone. -/
def startsBoundary : List Char → Bool
  | '-' :: '-' :: '-' :: r | '.' :: '.' :: '.' :: r => endsWord r
  | _ => false

structure Cursor where
  mark : Mark := {}
  rest : List Char
deriving Repr, Inhabited

namespace Cursor

def fault (c : Cursor) : Fault := .token c.mark.line c.mark.column

def skip (c : Cursor) (n : Nat) : Cursor :=
  ⟨c.mark.afterAll (c.rest.take n), c.rest.drop n⟩

def span (c : Cursor) (p : Char → Bool) : List Char × Cursor :=
  let word := c.rest.takeWhile p
  (word, ⟨c.mark.afterAll word, c.rest.dropWhile p⟩)

def toLineEnd? (c : Cursor) : Option Cursor :=
  let (_, c) := c.span isBlank
  let c := if c.rest.head? == some '#' then (c.span (!isBreak ·)).2 else c
  match c.rest with
  | [] => some c
  | b :: _ => if isBreak b then some (c.skip 1) else none

end Cursor

end ShaderBuild.Yaml
