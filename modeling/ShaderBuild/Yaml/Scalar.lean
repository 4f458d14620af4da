import ShaderBuild.Text.Hex
import ShaderBuild.Yaml.Source

namespace ShaderBuild.Yaml

inductive ScalarStyle
  | plain | singleQuoted | doubleQuoted | literal | folded
deriving DecidableEq, Repr, Inhabited

inductive Gap
  | blanks (text : List Char)
  | lines (first others : List Char)
deriving Repr, Inhabited

namespace Gap

def empty : Gap := .blanks []

def add (g : Gap) (c : Char) : Gap :=
  match g, isBreak c with
  | blanks text, false => blanks (text ++ [c])
  | blanks _, true => lines [c] []
  | lines first others, false => lines first others
  | lines first others, true => lines first (others ++ [c])

def text : Gap → List Char
  | blanks text => text
  | lines ['\n'] [] => [' ']
  | lines ['\n'] others => others
  | lines first others => first ++ others

def spansLines : Gap → Bool
  | blanks _ => false
  | lines .. => true

end Gap

/-- A scalar that was read: its text, whether the reading stopped in a gap that spans lines, and
what is left. -/
structure Scanned where
  text : List Char
  newLine : Bool := false
  cursor : Cursor

namespace Plain

def isBracketPart (c : Char) : Bool :=
  c == ',' || c == '[' || c == ']' || c == '\x7b' || c == '\x7d'

/-- Whether a colon ends a word here, `none` where it may not stand. -/
def endsAt? (inBrackets : Bool) (c : Char) (r : List Char) : Option Bool :=
  let clash := inBrackets && c == ':' && match r with
    | [] => false
    | d :: _ => isBracketPart d || d == '?'
  if clash then none
  else some (c == ':' && endsWord r || inBrackets && isBracketPart c)

/-- Read a plain scalar whose further lines are indented by at least `indent`; `gap` is the gap
behind the text so far, which is kept back to front. -/
def scan (inBrackets : Bool) (indent : Nat) (m : Mark) (gap : Option Gap) (text : List Char) :
    List Char → Except Fault Scanned
  | [] => .ok ⟨text.reverse, gap.any Gap.spansLines, ⟨m, []⟩⟩
  | c :: r =>
    let stop : Except Fault Scanned :=
      .ok ⟨text.reverse, gap.any Gap.spansLines, ⟨m, c :: r⟩⟩
    if isGap c then
      if gap.any Gap.spansLines && m.column < indent && c == '\t' then
        .error (.token m.line m.column)
      else scan inBrackets indent (m.after c) (some ((gap.getD .empty).add c)) text r
    else
      let ended := gap.isSome &&
        (!inBrackets && m.column < indent || m.column == 0 && startsBoundary (c :: r) || c == '#')
      if ended then stop
      else
        match endsAt? inBrackets c r with
        | none => .error (.token m.line m.column)
        | some true => stop
        | some false =>
          let between := (gap.map Gap.text).getD []
          scan inBrackets indent (m.after c) none (c :: (between.reverse ++ text)) r

end Plain

namespace Quoted

inductive State
  | word
  | gap (g : Gap)
  | escape
  | code (left value : Nat)
  | quote

def escaped? : Char → Option Char
  | '0' => some '\x00'
  | 'a' => some '\x07'
  | 'b' => some '\x08'
  | 't' | '\t' => some '\t'
  | 'n' => some '\n'
  | 'v' => some '\x0b'
  | 'f' => some '\x0c'
  | 'r' => some '\r'
  | 'e' => some '\x1b'
  | ' ' => some ' '
  | '"' => some '"'
  | '/' => some '/'
  | '\\' => some '\\'
  | 'N' => some '\u0085'
  | '_' => some '\u00a0'
  | 'L' => some '\u2028'
  | 'P' => some '\u2029'
  | _ => none

def codeLength? : Char → Option Nat
  | 'x' => some 2
  | 'u' => some 4
  | 'U' => some 8
  | _ => none

def codePoint? (n : Nat) : Option Char :=
  if h : n.isValidChar then some ⟨n.toUInt32, by
    rcases h with h | ⟨h₁, h₂⟩ <;>
      simp only [UInt32.isValidChar, Nat.isValidChar, Nat.toUInt32, UInt32.toNat_ofNat'] <;>
      omega⟩ else none

/-- What a character does to the reading: it goes on, it ends with the character as its last or
behind it, or it may not go on. -/
inductive Step
  | more (state : State) (text : List Char)
  | last (text : List Char)
  | behind
  | refused

def step (single : Bool) (m : Mark) (state : State) (text : List Char) (c : Char)
    (r : List Char) : Step :=
  match state with
  | .quote => if c == '\'' then .more .word ('\'' :: text) else .behind
  | .escape =>
    if isBreak c then .more (.gap (.lines [] [])) text
    else
      match escaped? c, codeLength? c with
      | some d, _ => .more .word (d :: text)
      | none, some n => .more (.code n 0) text
      | none, none => .refused
  | .code left value =>
    match Text.hexValue? c with
    | none => .refused
    | some d =>
      let value := 16 * value + d
      if 1 < left then .more (.code (left - 1) value) text
      else
        match codePoint? value with
        | some d => .more .word (d :: text)
        | none => .refused
  | .word | .gap _ =>
    let gap := match state with
      | .gap g => g
      | _ => .empty
    if m.column == 0 && startsBoundary (c :: r) then .refused
    else if isGap c then .more (.gap (gap.add c)) text
    else
      let text := gap.text.reverse ++ text
      if single then
        if c == '\'' then .more .quote text else .more .word (c :: text)
      else if c == '"' then .last text
      else if c == '\\' then .more .escape text
      else .more .word (c :: text)

def scan (single : Bool) (m : Mark) (state : State) (text : List Char) :
    List Char → Except Fault Scanned
  | [] =>
    match state with
    | .quote => .ok ⟨text.reverse, false, ⟨m, []⟩⟩
    | _ => .error (.token m.line m.column)
  | c :: r =>
    match step single m state text c r with
    | .more state text => scan single (m.after c) state text r
    | .last text => .ok ⟨text.reverse, false, ⟨m.after c, r⟩⟩
    | .behind => .ok ⟨text.reverse, false, ⟨m, c :: r⟩⟩
    | .refused => .error (.token m.line m.column)

end Quoted

inductive Chomping
  | strip | clip | keep
deriving DecidableEq, Repr, Inhabited

namespace Block

def header (c : Cursor) : Except Fault (Chomping × Option Nat × Cursor) :=
  let chomping? : Option Char → Option Chomping
    | some '+' => some .keep
    | some '-' => some .strip
    | _ => none
  let digit? : Option Char → Option Nat
    | some d => if d.isDigit then some (d.toNat - '0'.toNat) else none
    | none => none
  let first := c.rest.head?
  let second := (c.rest.drop 1).head?
  let (chomping, digit, length) :=
    match chomping? first, digit? first with
    | some k, _ => (some k, digit? second, if (digit? second).isSome then 2 else 1)
    | none, some d => (chomping? second, some d, if (chomping? second).isSome then 2 else 1)
    | none, none => (none, none, 0)
  if digit = some 0 then .error c.fault
  else
    match (c.skip length).toLineEnd? with
    | some c => .ok (chomping.getD .clip, digit, c)
    | none => .error c.fault

structure Progress where
  text : List Char := []
  indent : Option Nat
  widest : Nat := 0
  lineBreak : List Char := []
  emptyLines : List Char := []
  blankStart : Bool := false
  inLine : Bool := false

/-- The text with the breaks in front of a line that starts with `c`. A single break between two
lines that start with no blank folds to a space. -/
def Progress.join (p : Progress) (literal : Bool) (c : Char) : List Char :=
  let folds := !literal && p.lineBreak == ['\n'] && !p.blankStart && !isBlank c
  let breaks :=
    if folds then (if p.emptyLines.isEmpty then [' '] else p.emptyLines)
    else p.lineBreak ++ p.emptyLines
  breaks.reverse ++ p.text

def Progress.finish (p : Progress) (chomping : Chomping) : List Char :=
  p.text.reverse ++ (if chomping = .strip then [] else p.lineBreak) ++
    (if chomping = .keep then p.emptyLines else [])

/-- Where a character leads that belongs to the block, `none` where the block ends before it. -/
def Progress.step (p : Progress) (literal : Bool) (lowest : Nat) (m : Mark) (c : Char) :
    Except Fault (Option Progress) :=
  if p.inLine then
    if isBreak c then .ok (some { p with lineBreak := [c], emptyLines := [], inLine := false })
    else .ok (some { p with text := c :: p.text })
  else
    -- until a line has text the indentation is not known, and every column is in the margin
    let inMargin := p.indent.all (m.column < ·)
    let p := { p with widest := max p.widest (m.column + if inMargin && c == ' ' then 1 else 0) }
    if inMargin && c == ' ' then .ok (some p)
    else if inMargin && c == '\t' then .error (.token m.line m.column)
    else if isBreak c then .ok (some { p with emptyLines := p.emptyLines ++ [c] })
    else
      let indent := p.indent.getD (max p.widest lowest)
      if m.column = indent then
        .ok (some
          { text := c :: p.join literal c, indent := some indent, blankStart := isBlank c,
            inLine := true })
      else .ok none

/-- Read the lines of a block that are indented as its first one, by at least `lowest`. -/
def scan (literal : Bool) (chomping : Chomping) (lowest : Nat) (m : Mark) (p : Progress) :
    List Char → Except Fault Scanned
  | [] => .ok ⟨p.finish chomping, false, ⟨m, []⟩⟩
  | c :: r =>
    match p.step literal lowest m c with
    | .error fault => .error fault
    | .ok (some p) => scan literal chomping lowest (m.after c) p r
    | .ok none => .ok ⟨p.finish chomping, false, ⟨m, c :: r⟩⟩

end Block

end ShaderBuild.Yaml
