import ShaderBuild.Shell.Word

namespace ShaderBuild.Shell

inductive Redirection
  | open_ (descriptor : Option Nat) (sign : String) (path : Word)
  | here (descriptor : Option Nat) (lines : Word)
deriving DecidableEq, Repr, Inhabited

inductive Command
  | simple (line : Nat) (settings : List (String × Word)) (words : List Word)
    (redirections : List Redirection)
  | pipeline (commands : List Command)
  | not (command : Command)
  | and (first second : Command)
  | or (first second : Command)
  | sequence (commands : List Command)
  | background (command : Command)
  | choose (branches : List (Command × Command)) (otherwise : Command)
  | repeat_ (whileTrue : Bool) (condition body : Command)
  /-- The words are the script's arguments if none are given. -/
  | each (name : String) (words : Option (List Word)) (body : Command)
  | select (subject : Word) (branches : List (List Word × Command))
  | group (isolated : Bool) (body : Command) (redirections : List Redirection)
  | define (name : String) (body : Command)
deriving Repr, Inhabited

namespace Command

structure Unexpected where
  line : Nat
  reason : String

abbrev Reader := StateT (List Placed) (Except Unexpected)

def peek? : Reader (Option Token) := return (← get).head?.map (·.token)

def skip : Reader Unit := modify List.tail

def line : Reader Nat := return ((← get).head?.map (·.line)).getD 0

def describe : Option Token → String
  | none => "end of file"
  | some (.mark "\n") => "newline"
  | some (.mark m) => s!"\"{m}\""
  | some (.word w) => (Word.bare? w).elim "word" fun s => s!"\"{s}\""
  | some _ => "redirection"

def refuse {α : Type} : Reader α := do
  throw ⟨← line, s!"{describe (← peek?)} unexpected"⟩

def expect {α : Type} (wanted : String) : Reader α := do
  throw ⟨← line, s!"{describe (← peek?)} unexpected (expecting \"{wanted}\")"⟩

def keyword? : Reader (Option String) := do
  match ← peek? with
  | some (.word w) => return Word.bare? w
  | _ => return none

def expectWord (s : String) : Reader Unit := do
  if (← keyword?) == some s then skip else expect s

def passMark (m : String) : Reader Bool := do
  if (← peek?) == some (.mark m) then
    skip
    return true
  else return false

def expectMark (m : String) : Reader Unit := do
  if !(← passMark m) then expect m

def skipBreaks : Reader Unit :=
  modify fun ts => ts.dropWhile fun t => t.token == .mark "\n"

def closers : List String := ["then", "else", "elif", "fi", "do", "done", "esac", "\x7d"]

def atEnd : Reader Bool := do
  match ← peek? with
  | none => return true
  | some (.mark m) => return m == ")" || m == ";;"
  | some (.word w) => return (Word.bare? w).any closers.contains
  | some _ => return false

def setting? (w : Word) : Option (String × Word) :=
  let name := w.takeWhile fun p =>
    match p with
    | .text [c] false => Word.isNamePart c
    | _ => false
  let rest := w.drop name.length
  match rest with
  | .text ['='] false :: value =>
    let cs := Word.known name
    if cs.head?.any Word.isNameStart then some (.ofList cs, value) else none
  | _ => none

def splitSettings : List Word → List (String × Word) × List Word
  | [] => ([], [])
  | w :: r =>
    match setting? w with
    | some s =>
      let (ss, ws) := splitSettings r
      (s :: ss, ws)
    | none => ([], w :: r)

def redirection? : Reader (Option Redirection) := do
  match ← peek? with
  | some (.redirect d sign) =>
    skip
    match ← peek? with
    | some (.word w) => skip; return some (.open_ d sign w)
    | _ => refuse
  | some (.here d lines) => skip; return some (.here d lines)
  | _ => return none

def redirections : Nat → Reader (List Redirection)
  | 0 => return []
  | fuel + 1 => do
    match ← redirection? with
    | some r => return r :: (← redirections fuel)
    | none => return []

def simpleParts : Nat → Reader (List Word × List Redirection)
  | 0 => return ([], [])
  | fuel + 1 => do
    match ← peek? with
    | some (.word w) =>
      skip
      let (ws, rs) ← simpleParts fuel
      return (w :: ws, rs)
    | _ =>
      match ← redirection? with
      | some r =>
        let (ws, rs) ← simpleParts fuel
        return (ws, r :: rs)
      | none => return ([], [])

def wordList : Nat → Reader (List Word)
  | 0 => return []
  | fuel + 1 => do
    match ← peek? with
    | some (.word w) => skip; return w :: (← wordList fuel)
    | _ => return []

def patterns : Nat → Reader (List Word)
  | 0 => refuse
  | fuel + 1 => do
    match ← peek? with
    | some (.word w) =>
      skip
      if ← passMark "|" then return w :: (← patterns fuel) else return [w]
    | _ => refuse

def definition? : Reader (Option String) := do
  let ts : List Token := ((← get).take 3).map (·.token)
  match ts with
  | [.word w, .mark "(", .mark ")"] => return Word.bare? w
  | _ => return none

mutual

def parseList : Nat → Reader Command
  | 0 => refuse
  | fuel + 1 => do
    skipBreaks
    return .sequence (← parseItems fuel)

def parseItems : Nat → Reader (List Command)
  | 0 => refuse
  | fuel + 1 => do
    if ← atEnd then return []
    let c ← parseAndOr fuel
    let behind ← passMark "&"
    let c := if behind then .background c else c
    if !behind then
      if !(← passMark ";") && !(← passMark "\n") && !(← atEnd) then refuse
    skipBreaks
    return c :: (← parseItems fuel)

def parseAndOr : Nat → Reader Command
  | 0 => refuse
  | fuel + 1 => do parseMore (← parsePipeline fuel) fuel

def parseMore (first : Command) : Nat → Reader Command
  | 0 => refuse
  | fuel + 1 => do
    if ← passMark "&&" then
      skipBreaks
      parseMore (.and first (← parsePipeline fuel)) fuel
    else if ← passMark "||" then
      skipBreaks
      parseMore (.or first (← parsePipeline fuel)) fuel
    else return first

def parsePipeline : Nat → Reader Command
  | 0 => refuse
  | fuel + 1 => do
    if (← keyword?) == some "!" then
      skip
      return .not (← parsePipeline fuel)
    let first ← parseCommand fuel
    match ← parseStages fuel with
    | [] => return first
    | more => return .pipeline (first :: more)

def parseStages : Nat → Reader (List Command)
  | 0 => refuse
  | fuel + 1 => do
    if ← passMark "|" then
      skipBreaks
      let c ← parseCommand fuel
      return c :: (← parseStages fuel)
    else return []

def parseCommand : Nat → Reader Command
  | 0 => refuse
  | fuel + 1 => do
    match ← definition? with
    | some name =>
      skip; skip; skip
      skipBreaks
      return .define name (← parseCommand fuel)
    | none =>
      if ← passMark "(" then
        let body ← parseList fuel
        expectMark ")"
        return .group true body (← redirections fuel)
      match ← keyword? with
      | some "\x7b" =>
        skip
        let body ← parseList fuel
        expectWord "\x7d"
        return .group false body (← redirections fuel)
      | some "if" =>
        skip
        let c ← parseBranches fuel
        return .group false c (← redirections fuel)
      | some "while" => skip; parseRepeat true fuel
      | some "until" => skip; parseRepeat false fuel
      | some "for" => skip; parseEach fuel
      | some "case" => skip; parseSelect fuel
      | some s => if closers.contains s then refuse else parseSimple fuel
      | none => parseSimple fuel

def parseSimple : Nat → Reader Command
  | 0 => refuse
  | fuel + 1 => do
    let at_ ← line
    let (words, rs) ← simpleParts fuel
    if words.isEmpty && rs.isEmpty then refuse
    let (settings, words) := splitSettings words
    return .simple at_ settings words rs

def parseBranches : Nat → Reader Command
  | 0 => refuse
  | fuel + 1 => do
    let condition ← parseList fuel
    expectWord "then"
    let body ← parseList fuel
    match ← keyword? with
    | some "elif" => skip; return .choose [(condition, body)] (← parseBranches fuel)
    | some "else" =>
      skip
      let otherwise ← parseList fuel
      expectWord "fi"
      return .choose [(condition, body)] otherwise
    | _ =>
      expectWord "fi"
      return .choose [(condition, body)] (.sequence [])

def parseBody : Nat → Reader Command
  | 0 => refuse
  | fuel + 1 => do
    expectWord "do"
    let body ← parseList fuel
    expectWord "done"
    return body

def parseRepeat (whileTrue : Bool) : Nat → Reader Command
  | 0 => refuse
  | fuel + 1 => do
    let condition ← parseList fuel
    let body ← parseBody fuel
    return .group false (.repeat_ whileTrue condition body) (← redirections fuel)

def parseEach : Nat → Reader Command
  | 0 => refuse
  | fuel + 1 => do
    match ← keyword? with
    | none => refuse
    | some name =>
      skip
      skipBreaks
      let words ←
        if (← keyword?) == some "in" then
          skip
          some <$> wordList fuel
        else pure none
      let _ ← passMark ";"
      skipBreaks
      let body ← parseBody fuel
      return .group false (.each name words body) (← redirections fuel)

def parseSelect : Nat → Reader Command
  | 0 => refuse
  | fuel + 1 => do
    match ← peek? with
    | some (.word subject) =>
      skip
      skipBreaks
      expectWord "in"
      skipBreaks
      let branches ← parseSelectBranches fuel
      return .group false (.select subject branches) (← redirections fuel)
    | _ => refuse

def parseSelectBranches : Nat → Reader (List (List Word × Command))
  | 0 => refuse
  | fuel + 1 => do
    if (← keyword?) == some "esac" then
      skip
      return []
    let _ ← passMark "("
    let ps ← patterns fuel
    expectMark ")"
    let body ← parseList fuel
    let more ← passMark ";;"
    skipBreaks
    if more then return (ps, body) :: (← parseSelectBranches fuel)
    else
      expectWord "esac"
      return [(ps, body)]

end

/-- Read a script. What is missing at its end is missing on its last line. -/
def parse (script : List Char) : Except Unexpected Command := do
  let lines := script.count '\n' + 1
  match Token.scan 1 (script.length + 2) script with
  | none => throw ⟨lines, "Unterminated quoted string"⟩
  | some tokens =>
    let result := (parseList (8 * tokens.length + 16)).run tokens
    let (c, rest) ← result.mapError fun u => if u.line = 0 then { u with line := lines } else u
    match rest with
    | [] => return c
    | t :: _ => throw ⟨t.line, s!"{describe (some t.token)} unexpected"⟩

end Command

end ShaderBuild.Shell
