import ShaderBuild.Shell.Arithmetic
import ShaderBuild.Shell.Pattern
import ShaderBuild.Shell.State

namespace ShaderBuild.Shell

inductive Piece
  | char (c : Char) (quoted : Bool)
  /-- The end of a field, with the blank that stands for it where fields do not count. -/
  | gap (blank : Char)
  | hold
deriving DecidableEq, Repr, Inhabited

namespace Piece

/-- Put pieces together to fields; `field` is the one that is not complete, if there is one. -/
def fieldsFrom (field : Option Pattern) : List Piece → List Pattern
  | [] => field.toList
  | char c quoted :: r => fieldsFrom (some (field.getD [] ++ [(c, quoted)])) r
  | hold :: r => fieldsFrom (some (field.getD [])) r
  | gap _ :: r => field.toList ++ fieldsFrom none r

def fields (ps : List Piece) : List Pattern := fieldsFrom none ps

def flat (ps : List Piece) : Pattern :=
  ps.flatMap fun
    | char c quoted => [(c, quoted)]
    | gap blank => [(blank, false)]
    | hold => []

def isSpace (c : Char) : Bool := c == ' ' || c == '\t' || c == '\n'

def loosen : Piece → Piece
  | char c false => if isSpace c then gap c else char c false
  | p => p

def ofValue (cs : List Char) (quoted : Bool) : List Piece :=
  if quoted then hold :: cs.map (char · true) else cs.map fun c => loosen (char c false)

def ofArguments (arguments : List String) (quoted : Bool) : List Piece :=
  [gap ' '].intercalate (arguments.map fun a => ofValue a.toList quoted)

end Piece

def text (p : Pattern) : String := .ofList (p.map (·.1))

def printed (bytes : List UInt8) : List Char :=
  ((Text.Utf8.decodeLossy bytes).toList.reverse.dropWhile (· == '\n')).reverse

namespace Session

def integerOf (values : List (String × String)) (name : String) : Int :=
  match values.lookup name with
  | some v => ((Arithmetic.evaluate (fun _ => 0) v.toList).toOption.map (·.1)).getD 0
  | none => 0

end Session

structure Expander where
  line : Nat
  print : List Char → Session (List UInt8)

namespace Expander

/-- What is put in for a parameter. `inner` expands the text behind a sign; in a pattern only quotes
of its own count. -/
def parameter (e : Expander) (inner : Bool → List Char → Session (List Piece)) (name : String)
    (treatment : Treatment) (quoted : Bool) : Session (List Piece) := do
  let s ← get
  let value ← Session.value? name
  let current := (value.getD "").toList
  let plain : List Piece :=
    if name == "@" || (name == "*" && !quoted) then Piece.ofArguments s.arguments quoted
    else Piece.ofValue current quoted
  match treatment with
  | .plain => return plain
  | .length =>
    let bytes := (value.getD "").utf8ByteSize
    return Piece.ofValue (toString bytes).toList quoted
  | .apply sign cs =>
    let missing := value.isNone || (sign.startsWith ":" && current.isEmpty)
    match sign with
    | ":-" | "-" => if missing then inner quoted cs else return plain
    | ":+" | "+" => if missing then return [] else inner quoted cs
    | ":=" | "=" =>
      if missing then
        let ps ← inner quoted cs
        Session.setValue name (text (Piece.flat ps))
        return ps
      else return plain
    | ":?" | "?" =>
      if missing then
        let reason := text (Piece.flat (← inner quoted cs))
        let reason := if reason.isEmpty then "parameter not set or null" else reason
        Session.abort e.line s!"{name}: {reason}"
      else return plain
    | _ =>
      let p := Piece.flat (← inner false cs)
      let longest := sign == "##" || sign == "%%"
      let cut := if sign.startsWith "#" then Pattern.dropStart else Pattern.dropEnd
      return Piece.ofValue (cut p longest current) quoted

def part (e : Expander) (inner : Bool → List Char → Session (List Piece)) (p : Part) :
    Session (List Piece) := do
  match p with
  | .text cs quoted => return if quoted then Piece.ofValue cs true else cs.map (.char · false)
  | .parameter name treatment quoted => e.parameter inner name treatment quoted
  | .output script quoted => return Piece.ofValue (printed (← e.print script)) quoted
  | .arithmetic expression quoted =>
    let cs := (Piece.flat (← inner true expression)).map (·.1)
    match Arithmetic.evaluate (Session.integerOf (← get).values) cs with
    | .ok (n, settings) =>
      for (name, value) in settings do
        Session.setValue name (toString value)
      return Piece.ofValue (toString n).toList quoted
    | .error f =>
      let shown := String.ofList cs
      Session.abort e.line s!"arithmetic expression: {f.message}: \"{shown}\""

def isVoid (arguments : List String) : Word → Bool
  | .text [] true :: ps => arguments.isEmpty && !ps.isEmpty && ps.all fun p =>
    match p with
    | .parameter "@" .plain true => true
    | _ => false
  | _ => false

/-- Expand a word in which texts are nested to a depth. -/
def pieces (e : Expander) : Nat → Word → Session (List Piece)
  | 0, _ => return []
  | depth + 1, w => do
    if isVoid (← get).arguments w then return []
    let inner (quoted : Bool) (cs : List Char) : Session (List Piece) := do
      let ps ← e.pieces depth (Word.ofBraces cs quoted)
      return if quoted then ps else ps.map Piece.loosen
    return (← w.mapM (e.part inner)).flatten

def depthOf (w : Word) : Nat :=
  1 + (w.map fun p =>
    match p with
    | .parameter _ (.apply _ cs) _ | .arithmetic cs _ => cs.length
    | _ => 0).foldl max 0

def pattern (e : Expander) (w : Word) : Session Pattern :=
  return Piece.flat (← e.pieces (depthOf w) w)

def single (e : Expander) (w : Word) : Session String := return text (← e.pattern w)

end Expander

def isWild (p : Pattern) : Bool :=
  p.any fun (c, quoted) => !quoted && (c == '*' || c == '?' || c == '[')

def patternParts (p : Pattern) : List Pattern :=
  p.foldr (fun x parts =>
    match parts with
    | [] => [[x]]
    | q :: r => if x.1 == Path.separator then [] :: q :: r else (x :: q) :: r) [[]]

/-- Paths behind a path that match the parts of a pattern; a dot in front is matched by a dot. -/
def pathsIn (t : FileTree) (base : String) : List Pattern → List String
  | [] => [base]
  | p :: r =>
    let under (name : String) : String :=
      if base == "" then name
      else if base == "/" then base ++ name
      else base ++ "/" ++ name
    if !isWild p then
      let path := if base == "" && p.isEmpty then "/" else under (text p)
      if r.isEmpty && !(t.lookup path).toBool then [] else pathsIn t path r
    else
      match t.locate (if base == "" then "." else base) with
      | .error _ => []
      | .ok target =>
        let found (name : String) : Bool :=
          p.fits name.toList && (!name.startsWith "." || p.head?.any (·.1 == '.'))
        ((t.children target.location).filter found).flatMap fun name => pathsIn t (under name) r

/-- The texts that a field stands for: paths if it matches some, itself otherwise. -/
def matched (t : FileTree) (p : Pattern) : List String :=
  if isWild p then
    match pathsIn t "" (patternParts p) with
    | [] => [text p]
    | paths => paths
  else [text p]

namespace Expander

def words (e : Expander) (ws : List Word) : Session (List String) := do
  let ps ← ws.mapM fun w => e.pieces (depthOf w) w
  let t := (← get).files
  return (ps.flatMap Piece.fields).flatMap (matched t)

end Expander

end ShaderBuild.Shell
