namespace ShaderBuild.Shell

inductive Treatment
  | plain
  | length
  | apply (sign : String) (text : List Char)
deriving DecidableEq, Repr, Inhabited

inductive Part
  | text (cs : List Char) (quoted : Bool)
  | parameter (name : String) (treatment : Treatment) (quoted : Bool)
  | output (script : List Char) (quoted : Bool)
  | arithmetic (expression : List Char) (quoted : Bool)
deriving DecidableEq, Repr, Inhabited

abbrev Word := List Part

inductive Token
  | word (parts : Word)
  | mark (text : String)
  | redirect (descriptor : Option Nat) (text : String)
  | here (descriptor : Option Nat) (lines : Word)
deriving DecidableEq, Repr, Inhabited

structure Placed where
  line : Nat
  token : Token
deriving DecidableEq, Repr, Inhabited

namespace Word

def isNameStart (c : Char) : Bool := c.isAlpha || c == '_'

def isNamePart (c : Char) : Bool := c.isAlphanum || c == '_'

def isMeta (c : Char) : Bool := " \t\n;&|<>()".toList.contains c

/-- A kind of bracket: which characters quote text inside, and whether brackets inside open only
behind a dollar sign. -/
structure Bracket where
  opening : Char
  closing : Char
  quotes : List Char := ['\'', '"']
  behindDollar : Bool := false

namespace Bracket

def round : Bracket := { opening := '(', closing := ')' }

def curly : Bracket := { opening := '\x7b', closing := '\x7d', behindDollar := true }

end Bracket

/-- Up to the bracket that closes the one in front; quoted text does not count. `quote` is the
quote that is open. -/
def balanced (b : Bracket) (depth : Nat) (quote : Option Char) (out : List Char) :
    List Char → Option (List Char × List Char)
  | [] => none
  | '\\' :: c :: r =>
    if quote == some '\'' then
      balanced b depth (if c == '\'' then none else quote) (c :: '\\' :: out) r
    else balanced b depth quote (c :: '\\' :: out) r
  | c :: r =>
    if quote == some c then balanced b depth none (c :: out) r
    else if quote.isSome then balanced b depth quote (c :: out) r
    else if b.quotes.contains c then balanced b depth (some c) (c :: out) r
    else if c == b.opening && (!b.behindDollar || out.head? == some '$') then
      balanced b (depth + 1) quote (c :: out) r
    else if c == b.closing then
      match depth with
      | 0 => some (out.reverse, r)
      | d + 1 => balanced b d quote (c :: out) r
    else balanced b depth quote (c :: out) r

def backQuoted (quoted : Bool) (out : List Char) : List Char → Option (List Char × List Char)
  | [] => none
  | '\\' :: c :: r =>
    if c == '\x60' || c == '\\' || c == '$' || (quoted && c == '"') then
      backQuoted quoted (c :: out) r
    else backQuoted quoted (c :: '\\' :: out) r
  | c :: r => if c == '\x60' then some (out.reverse, r) else backQuoted quoted (c :: out) r

/-- The name of a parameter: letters and digits, digits alone, or one special character. -/
def parameterName (cs : List Char) : List Char × List Char :=
  match cs with
  | [] => ([], [])
  | c :: r =>
    if isNameStart c then (cs.takeWhile isNamePart, cs.dropWhile isNamePart)
    else if c.isDigit || "@*#?$!-".toList.contains c then ([c], r)
    else ([], cs)

def signs : List String := [":-", ":=", ":+", ":?", "-", "=", "+", "?", "%%", "%", "##", "#"]

def braced? (cs : List Char) (quoted : Bool) : Option Part :=
  match cs with
  | '#' :: c :: r =>
    let (name, rest) := parameterName (c :: r)
    if rest.isEmpty && !name.isEmpty then some (.parameter (.ofList name) .length quoted) else none
  | _ =>
    let (name, rest) :=
      if cs.head?.any Char.isDigit then (cs.takeWhile Char.isDigit, cs.dropWhile Char.isDigit)
      else parameterName cs
    if name.isEmpty then none
    else if rest.isEmpty then some (.parameter (.ofList name) .plain quoted)
    else
      (signs.find? (·.toList.isPrefixOf rest)).map fun sign =>
        .parameter (.ofList name) (.apply sign (rest.drop sign.length)) quoted

def trims (cs : List Char) : Bool :=
  (parameterName cs).2.head?.any fun c => c == '#' || c == '%'

def dollar? (quoted : Bool) (cs : List Char) : Option (Part × List Char) :=
  match cs with
  | '(' :: '(' :: r =>
    (balanced .round 1 none [] r).bind fun (e, r) =>
      some (.arithmetic e.dropLast quoted, r)
  | '(' :: r => (balanced .round 0 none [] r).map fun (s, r) => (.output s quoted, r)
  | '\x7b' :: r =>
    let bracket := if quoted && !trims r then { Bracket.curly with quotes := ['"'] } else .curly
    (balanced bracket 0 none [] r).bind fun (p, r) => (braced? p quoted).map (·, r)
  | _ =>
    match parameterName cs with
    | ([], _) => some (.text ['$'] quoted, cs)
    | (name, r) => some (.parameter (.ofList name) .plain quoted, r)

def inQuotes (ends : Bool) : Nat → List Char → Option (List Part × List Char)
  | 0, _ => none
  | _, [] => if ends then none else some ([], [])
  | fuel + 1, c :: r =>
    let one (p : Part) (r : List Char) : Option (List Part × List Char) :=
      (inQuotes ends fuel r).map fun (ps, r) => (p :: ps, r)
    if c == '"' && ends then some ([], r)
    else if c == '$' then (dollar? true r).bind fun (p, r) => one p r
    else if c == '\x60' then (backQuoted true [] r).bind fun (s, r) => one (.output s true) r
    else if c == '\\' then
      match r with
      | '\n' :: r => one (.text [] true) r
      | d :: r =>
        if d == '$' || d == '\x60' || d == '\\' || (ends && d == '"') then one (.text [d] true) r
        else one (.text ['\\', d] true) r
      | [] => one (.text ['\\'] true) []
    else one (.text [c] true) r

def scan (ends : Char → Bool) : Nat → List Char → Option (Word × List Char)
  | 0, _ => none
  | _, [] => some ([], [])
  | fuel + 1, c :: r =>
    let one (ps : List Part) (r : List Char) : Option (Word × List Char) :=
      (scan ends fuel r).map fun (qs, r) => (ps ++ qs, r)
    if ends c then some ([], c :: r)
    else if c == '\'' then
      match r.dropWhile (· != '\'') with
      | [] => none
      | _ :: rest => one [.text (r.takeWhile (· != '\'')) true] rest
    else if c == '"' then
      (inQuotes true fuel r).bind fun (ps, r) => one (.text [] true :: ps) r
    else if c == '$' then (dollar? false r).bind fun (p, r) => one [p] r
    else if c == '\x60' then (backQuoted false [] r).bind fun (s, r) => one [.output s false] r
    else if c == '\\' then
      match r with
      | '\n' :: r => one [] r
      | d :: r => one [.text [d] true] r
      | [] => some ([.text ['\\'] true], [])
    else one [.text [c] false] r

def ofText (cs : List Char) : Word :=
  match inQuotes false (cs.length + 1) cs with
  | some (ps, _) => ps
  | none => [.text cs true]

def ofBraces (cs : List Char) (quoted : Bool) : Word :=
  if quoted && !cs.contains '"' then ofText cs
  else
    match scan (fun _ => false) (cs.length + 1) cs with
    | some (w, _) => w
    | none => [.text cs true]

def bare? (w : Word) : Option String :=
  let text? : Part → Option (List Char)
    | .text cs false => some cs
    | _ => none
  (w.mapM text?).map fun cs => .ofList cs.flatten

def known (w : Word) : List Char :=
  List.flatMap (fun
    | .text cs _ => cs
    | _ => []) w

def isQuoted (w : Word) : Bool :=
  List.any w fun
    | .text _ quoted => quoted
    | _ => false

end Word

namespace Token

def marks : List String := ["&&", "||", ";;", "\n", ";", "&", "|", "(", ")"]

def redirections : List String := [">>", ">&", ">|", "<&", "<>", "<", ">"]

def hereLines (delimiter : List Char) (tabs : Bool) : Nat → List Char → List Char × List Char
  | 0, cs => ([], cs)
  | _, [] => ([], [])
  | fuel + 1, cs =>
    let line := cs.takeWhile (· != '\n')
    let rest := (cs.dropWhile (· != '\n')).drop 1
    let line := if tabs then line.dropWhile (· == '\t') else line
    if line == delimiter then ([], rest)
    else
      let (lines, rest) := hereLines delimiter tabs fuel rest
      (line ++ '\n' :: lines, rest)

/-- Lines that a command reads: they start below the line that asks for them. -/
def here? (fuel : Nat) (descriptor : Option Nat) (cs : List Char) :
    Option (Token × List Char) := do
  let (tabs, cs) := if cs.head? == some '-' then (true, cs.drop 1) else (false, cs)
  let (delimiter, rest) ← Word.scan Word.isMeta fuel (cs.dropWhile fun c => c == ' ' || c == '\t')
  let line := rest.takeWhile (· != '\n')
  let (lines, below) := hereLines delimiter.known tabs fuel ((rest.dropWhile (· != '\n')).drop 1)
  let word := if delimiter.isQuoted then [.text lines true] else Word.ofText lines
  return (here descriptor word, line ++ '\n' :: below)

/-- Cut a script into tokens; `none` if a quote or a bracket stays open. -/
def scan (line : Nat) : Nat → List Char → Option (List Placed)
  | 0, _ => none
  | _, [] => some []
  | fuel + 1, c :: r =>
    let put (t : Token) (from_ rest : List Char) : Option (List Placed) :=
      let breaks := (from_.take (from_.length - rest.length)).count '\n'
      (scan (line + breaks) fuel rest).map (⟨line, t⟩ :: ·)
    let cs := c :: r
    let digits := cs.takeWhile Char.isDigit
    let behind := cs.drop digits.length
    let descriptor : Option Nat :=
      if digits.isEmpty then none
      else some (digits.foldl (fun n d => 10 * n + (d.toNat - '0'.toNat)) 0)
    if c == ' ' || c == '\t' then scan line fuel r
    else if c == '\\' && r.head? == some '\n' then scan (line + 1) fuel (r.drop 1)
    else if c == '#' then scan line fuel (r.dropWhile (· != '\n'))
    else if "<<".toList.isPrefixOf behind then
      (here? fuel descriptor (behind.drop 2)).bind fun (t, rest) => put t cs rest
    else
      match redirections.find? (·.toList.isPrefixOf behind) with
      | some sign => put (redirect descriptor sign) cs (behind.drop sign.length)
      | none =>
        match marks.find? (·.toList.isPrefixOf cs) with
        | some sign => put (mark sign) cs (cs.drop sign.length)
        | none => (Word.scan Word.isMeta fuel cs).bind fun (w, rest) => put (word w) cs rest

end Token

end ShaderBuild.Shell
