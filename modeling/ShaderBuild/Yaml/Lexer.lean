import ShaderBuild.Yaml.Token

namespace ShaderBuild.Yaml

/-- A place among the tokens where a key would start. -/
structure Candidate where
  /-- Nothing but a key may stand here. -/
  required : Bool
  position : Nat
  mark : Mark

structure Lexer where
  cursor : Cursor
  tokens : Array Token := #[]
  blocks : List Nat := []
  candidate : Option Candidate := none
  outer : List (Option Candidate) := []
  keyAllowed : Bool := true

namespace Lexer

def inBrackets (s : Lexer) : Bool := !s.outer.isEmpty

def put (s : Lexer) (t : Token) : Lexer := { s with tokens := s.tokens.push t }

def take (s : Lexer) (t : Token) (length : Nat) : Lexer :=
  { s.put t with cursor := s.cursor.skip length }

/-- Behind gaps and comments. A tab belongs to a gap where no key may start, and a byte order mark where
a line starts. -/
def passGap (inBrackets : Bool) (m : Mark) (keyAllowed inComment : Bool) :
    List Char → Bool × Cursor
  | [] => (keyAllowed, ⟨m, []⟩)
  | c :: r =>
    if isBreak c then passGap inBrackets (m.after c) (keyAllowed || !inBrackets) false r
    else if inComment || c == ' ' || c == '\t' && (inBrackets || !keyAllowed) ||
        c == '\ufeff' && m.column == 0 then
      passGap inBrackets (m.after c) keyAllowed inComment r
    else if c == '#' then passGap inBrackets (m.after c) keyAllowed true r
    else (keyAllowed, ⟨m, c :: r⟩)

def toToken (s : Lexer) : Lexer :=
  let (keyAllowed, cursor) := passGap s.inBrackets s.cursor.mark s.keyAllowed false s.cursor.rest
  { s with keyAllowed, cursor }

def drop (s : Lexer) : Except Fault Lexer :=
  if s.candidate.any (·.required) then .error s.cursor.fault
  else .ok { s with candidate := none }

/-- A key stands on one line and is at most 1024 bytes long. -/
def Candidate.isStale (now : Mark) (k : Candidate) : Bool :=
  k.mark.line < now.line || k.mark.index + 1024 < now.index

def dropStale (s : Lexer) : Except Fault Lexer :=
  let stale := fun k : Option Candidate => k.any (Candidate.isStale s.cursor.mark)
  let keep := fun k : Option Candidate => if stale k then none else k
  if (s.candidate :: s.outer).any fun k => stale k && k.any (·.required) then
    .error s.cursor.fault
  else .ok { s with candidate := keep s.candidate, outer := s.outer.map keep }

def closeBlocks (s : Lexer) (ends : Nat → Bool) : Lexer :=
  if s.inBrackets then s
  else
    { s with
      tokens := s.tokens ++ (s.blocks.takeWhile ends).map fun _ => Token.blockEnd
      blocks := s.blocks.dropWhile ends }

def openBlock (s : Lexer) (column position : Nat) (t : Token) : Lexer :=
  if s.inBrackets || s.blocks.head?.any (column ≤ ·) then s
  else { s with tokens := s.tokens.insertIdxIfInBounds position t, blocks := column :: s.blocks }

def openBlockHere (s : Lexer) (t : Token) : Except Fault Lexer :=
  if s.inBrackets then .ok s
  else if !s.keyAllowed then .error s.cursor.fault
  else .ok (s.openBlock s.cursor.mark.column s.tokens.size t)

def nominate (s : Lexer) : Except Fault Lexer :=
  if !s.keyAllowed then .ok s
  else do
    let s ← s.drop
    let required := !s.inBrackets && s.blocks.head? == some s.cursor.mark.column
    return { s with candidate := some ⟨required, s.tokens.size, s.cursor.mark⟩ }

def document (s : Lexer) (read : Cursor → Except Fault (Token × Cursor)) :
    Except Fault Lexer := do
  let s ← (s.closeBlocks fun _ => true).drop
  let (t, cursor) ← read s.cursor
  return { s.put t with cursor, keyAllowed := false }

def openBrackets (s : Lexer) (t : Token) : Except Fault Lexer := do
  let s ← s.nominate
  return { s.take t 1 with
    candidate := none, outer := s.candidate :: s.outer, keyAllowed := true }

def closeBrackets (s : Lexer) (t : Token) : Except Fault Lexer := do
  let s ← s.drop
  return { s.take t 1 with
    candidate := s.outer.head?.join, outer := s.outer.tail, keyAllowed := false }

def flowEntry (s : Lexer) : Except Fault Lexer := do
  let s ← s.drop
  return { s.take .flowEntry 1 with keyAllowed := true }

def blockEntry (s : Lexer) : Except Fault Lexer := do
  let s ← s.openBlockHere .blockSequenceStart
  let s ← s.drop
  return { s.take .blockEntry 1 with keyAllowed := true }

def key (s : Lexer) : Except Fault Lexer := do
  let s ← s.openBlockHere .blockMappingStart
  let s ← s.drop
  return { s.take .key 1 with keyAllowed := !s.inBrackets }

def value (s : Lexer) : Except Fault Lexer := do
  match s.candidate with
  | some k =>
    let s := { s with tokens := s.tokens.insertIdxIfInBounds k.position .key }
    let s := s.openBlock k.mark.column k.position .blockMappingStart
    return { s.take .value 1 with candidate := none, keyAllowed := false }
  | none =>
    let s ← s.openBlockHere .blockMappingStart
    return { s.take .value 1 with keyAllowed := !s.inBrackets }

def nodePart (s : Lexer) (read : Cursor → Except Fault (Token × Cursor)) :
    Except Fault Lexer := do
  let s ← s.nominate
  let (t, cursor) ← read s.cursor
  return { s.put t with cursor, keyAllowed := false }

def quoted (s : Lexer) (single : Bool) : Except Fault Lexer :=
  s.nodePart fun c => do
    let c := c.skip 1
    let read ← Quoted.scan single c.mark .word [] c.rest
    return (.scalar (if single then .singleQuoted else .doubleQuoted) (.ofList read.text),
      read.cursor)

def block (s : Lexer) (literal : Bool) : Except Fault Lexer := do
  let s ← s.drop
  let (chomping, digit, c) ← Block.header (s.cursor.skip 1)
  let indent := digit.map (s.blocks.head?.getD 0 + ·)
  let lowest := s.blocks.head?.elim 1 (· + 1)
  let read ← Block.scan literal chomping lowest c.mark { indent } c.rest
  let t := Token.scalar (if literal then .literal else .folded) (.ofList read.text)
  return { s.put t with cursor := read.cursor, keyAllowed := true }

def plain (s : Lexer) : Except Fault Lexer := do
  let s ← s.nominate
  let indent := s.blocks.head?.elim 0 (· + 1)
  let read ← Plain.scan s.inBrackets indent s.cursor.mark none [] s.cursor.rest
  return { s.put (.scalar .plain (.ofList read.text)) with
    cursor := read.cursor, keyAllowed := read.newLine }

/-- Whether a plain scalar starts with a character, in front of more text. -/
def startsPlain (inBrackets : Bool) (c : Char) (r : List Char) : Bool :=
  if c == '-' then !r.head?.any isBlank
  else if c == '?' || c == ':' then !inBrackets && !endsWord r
  else !isGap c && !(",[]\x7b\x7d#&*!|>'\"%@\x60".toList.contains c)

def token (s : Lexer) (c : Char) (r : List Char) : Except Fault Lexer :=
  let word := endsWord r
  let lineStart := s.cursor.mark.column == 0
  if lineStart && c == '%' then s.document Token.directive
  else if lineStart && startsBoundary (c :: r) then
    s.document fun cursor =>
      .ok (if c == '-' then .documentStart else .documentEnd, cursor.skip 3)
  else if c == '[' then s.openBrackets .flowSequenceStart
  else if c == '\x7b' then s.openBrackets .flowMappingStart
  else if c == ']' then s.closeBrackets .flowSequenceEnd
  else if c == '\x7d' then s.closeBrackets .flowMappingEnd
  else if c == ',' then s.flowEntry
  else if c == '-' && word then s.blockEntry
  else if c == '?' && (s.inBrackets || word) then s.key
  else if c == ':' && (s.inBrackets || word) then s.value
  else if c == '*' then
    s.nodePart fun c => (Token.name (c.skip 1)).map fun (name, c) => (.reference name, c)
  else if c == '&' then
    s.nodePart fun c => (Token.name (c.skip 1)).map fun (name, c) => (.anchor name, c)
  else if c == '!' then s.nodePart (Token.tagged s.inBrackets)
  else if c == '|' && !s.inBrackets then s.block true
  else if c == '>' && !s.inBrackets then s.block false
  else if c == '\'' then s.quoted true
  else if c == '"' then s.quoted false
  else if startsPlain s.inBrackets c r then s.plain
  else .error s.cursor.fault

def run : Nat → Lexer → Except Fault (List Token)
  | 0, s => .error s.cursor.fault
  | fuel + 1, s => do
    let s ← s.toToken.dropStale
    match s.cursor.rest with
    | [] => return (← (s.closeBlocks fun _ => true).drop).tokens.toList
    | c :: r => run fuel (← (s.closeBlocks (s.cursor.mark.column < ·)).token c r)

end Lexer

def Token.scan (text : String) : Except Fault (List Token) :=
  match text.toList.find? (!isAdmissible ·) with
  | some c => .error (.character c.toNat)
  | none =>
    let text := normalize text.toList
    Lexer.run (text.length + 1) { cursor := { rest := text } }

end ShaderBuild.Yaml
