import ShaderBuild.Text.Hex

namespace ShaderBuild.Shell.Arithmetic

inductive Atom
  | number (n : Int)
  | name (s : String)
  | sign (s : String)
deriving DecidableEq, Repr, Inhabited

def signs : List String :=
  ["<<=", ">>=", "<<", ">>", "<=", ">=", "==", "!=", "&&", "||", "+=", "-=", "*=", "/=", "%=", "&=",
    "|=", "^=", "<", ">", "+", "-", "*", "/", "%", "(", ")", "!", "~", "&", "|", "^", "?", ":", "="]

inductive Fault
  | divisionByZero
  | noValue
  | noEnd
deriving DecidableEq, Repr, Inhabited

def Fault.message : Fault → String
  | divisionByZero => "division by zero"
  | noValue => "expecting primary"
  | noEnd => "expecting EOF"

def digits? (radix : Nat) (cs : List Char) : Option Nat :=
  cs.foldlM (fun n c => (Text.hexValue? c).bind fun d =>
    if d < radix then some (radix * n + d) else none) 0

def number? (cs : List Char) : Option Int :=
  let n := match cs with
    | '0' :: 'x' :: r | '0' :: 'X' :: r => if r.isEmpty then none else digits? 16 r
    | '0' :: r => digits? 8 r
    | [] => none
    | cs => digits? 10 cs
  n.map Int.ofNat

def scan : Nat → List Char → Option (List Atom)
  | 0, _ => none
  | _, [] => some []
  | fuel + 1, c :: r =>
    if c == ' ' || c == '\t' || c == '\n' then scan fuel r
    else if c.isAlphanum || c == '_' then
      let word := (c :: r).takeWhile fun d => d.isAlphanum || d == '_'
      let rest := (c :: r).drop word.length
      let atom := if c.isDigit then (number? word).map Atom.number else some (.name (.ofList word))
      atom.bind fun a => (scan fuel rest).map (a :: ·)
    else
      (signs.find? (·.toList.isPrefixOf (c :: r))).bind fun s =>
        (scan fuel ((c :: r).drop s.length)).map (.sign s :: ·)

def ofBool (b : Bool) : Int := if b then 1 else 0

def strength? : String → Option Nat
  | "||" => some 1
  | "&&" => some 2
  | "|" => some 3
  | "^" => some 4
  | "&" => some 5
  | "==" | "!=" => some 6
  | "<" | "<=" | ">" | ">=" => some 7
  | "<<" | ">>" => some 8
  | "+" | "-" => some 9
  | "*" | "/" | "%" => some 10
  | _ => none

def bits (f : UInt64 → UInt64 → UInt64) (a b : Int) : Int :=
  (f (Int64.ofInt a).toUInt64 (Int64.ofInt b).toUInt64).toInt64.toInt

def combine (op : String) (a b : Int) : Except Fault Int :=
  match op with
  | "||" => .ok (ofBool (a != 0 || b != 0))
  | "&&" => .ok (ofBool (a != 0 && b != 0))
  | "|" => .ok (bits (· ||| ·) a b)
  | "^" => .ok (bits (· ^^^ ·) a b)
  | "&" => .ok (bits (· &&& ·) a b)
  | "==" => .ok (ofBool (a == b))
  | "!=" => .ok (ofBool (a != b))
  | "<" => .ok (ofBool (a < b))
  | "<=" => .ok (ofBool (a ≤ b))
  | ">" => .ok (ofBool (b < a))
  | ">=" => .ok (ofBool (b ≤ a))
  | "<<" => .ok (bits (· <<< ·) a b)
  | ">>" => .ok (Int64.ofInt a >>> Int64.ofInt b).toInt
  | "+" => .ok (Int64.ofInt (a + b)).toInt
  | "-" => .ok (Int64.ofInt (a - b)).toInt
  | "*" => .ok (Int64.ofInt (a * b)).toInt
  | "/" => if b = 0 then .error .divisionByZero else .ok (Int.tdiv a b)
  | "%" => if b = 0 then .error .divisionByZero else .ok (Int.tmod a b)
  | _ => .error .noValue

def assignment? (sign : String) : Option (Option String) :=
  if sign == "=" then some none
  else if sign.endsWith "=" && (strength? sign).isNone then some (some (sign.dropEnd 1).toString)
  else none

abbrev Reader := StateT (List Atom × List (String × Int)) (Except Fault)

def next? : Reader (Option Atom) := do
  let (atoms, settings) ← get
  set (atoms.tail, settings)
  return atoms.head?

def peek : Reader (List Atom) := return (← get).1

def valueOf (value : String → Int) (name : String) : Reader Int :=
  return ((← get).2.lookup name).getD (value name)

def assign (name : String) (n : Int) : Reader Int := do
  modify fun (atoms, settings) => (atoms, (name, n) :: settings)
  return n

mutual

def operand (value : String → Int) : Nat → Reader Int
  | 0 => throw .noValue
  | fuel + 1 => do
    match ← next? with
    | some (.number n) => return n
    | some (.name s) =>
      match ← peek with
      | .sign sign :: _ =>
        match assignment? sign with
        | none => valueOf value s
        | some op =>
          let _ ← next?
          let n ← expression value fuel
          match op with
          | none => assign s n
          | some op => assign s (← combine op (← valueOf value s) n)
      | _ => valueOf value s
    | some (.sign "-") => return -(← operand value fuel)
    | some (.sign "+") => operand value fuel
    | some (.sign "!") => return ofBool ((← operand value fuel) == 0)
    | some (.sign "~") => return -(← operand value fuel) - 1
    | some (.sign "(") =>
      let n ← expression value fuel
      if (← next?) == some (.sign ")") then return n else throw .noValue
    | _ => throw .noValue

def operators (value : String → Int) (least : Nat) (a : Int) : Nat → Reader Int
  | 0 => throw .noValue
  | fuel + 1 => do
    match ← peek with
    | .sign op :: _ =>
      match strength? op with
      | none => return a
      | some k =>
        if k < least then return a
        let _ ← next?
        let b ← operand value fuel
        let b ← operators value (k + 1) b fuel
        operators value least (← combine op a b) fuel
    | _ => return a

def expression (value : String → Int) : Nat → Reader Int
  | 0 => throw .noValue
  | fuel + 1 => do
    let a ← operand value fuel
    let a ← operators value 1 a fuel
    if (← peek).head? != some (.sign "?") then return a
    let _ ← next?
    let b ← expression value fuel
    if (← next?) != some (.sign ":") then throw .noValue
    let c ← expression value fuel
    return if a != 0 then b else c

end

/-- The value of an expression, and those that names are given by it. Nothing at all counts as
zero. -/
def evaluate (value : String → Int) (cs : List Char) :
    Except Fault (Int × List (String × Int)) := do
  match scan (cs.length + 1) cs with
  | none => throw .noValue
  | some [] => return (0, [])
  | some atoms =>
    let (n, rest, settings) ← (expression value (4 * atoms.length + 4)).run (atoms, [])
    if rest.isEmpty then return (n, settings.reverse) else throw .noEnd

end ShaderBuild.Shell.Arithmetic
