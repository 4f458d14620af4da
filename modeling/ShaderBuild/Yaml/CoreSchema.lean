import ShaderBuild.Decimal.Double
import ShaderBuild.Yaml.Scalar

namespace ShaderBuild.Yaml.CoreSchema

inductive Meaning
  | null
  | bool (b : Bool)
  | integer (n : Int)
  | wide (n : Int)
  | float (x : Decimal.Double)
  | text
deriving DecidableEq, Repr, Inhabited

def isNull (s : String) : Bool := ["null", "Null", "NULL", "~"].contains s

def bool? (s : String) : Option Bool :=
  if ["true", "True", "TRUE"].contains s then some true
  else if ["false", "False", "FALSE"].contains s then some false
  else none

def digits? (radix : Nat) (cs : List Char) : Option Nat :=
  if cs.isEmpty then none
  else cs.foldlM (fun n c => (Text.hexValue? c).bind fun d =>
    if d < radix then some (radix * n + d) else none) 0

def prefixed? : List Char → Option Nat
  | '0' :: 'x' :: r => digits? 16 r
  | '0' :: 'o' :: r => digits? 8 r
  | '0' :: 'b' :: r => digits? 2 r
  | _ => none

/-- Several digits that start with a zero are no number. -/
def hasLeadingZero (cs : List Char) : Bool :=
  match (Decimal.Double.takeSign cs).2 with
  | '0' :: d :: r => (d :: r).all Char.isDigit
  | _ => false

def natural? (s : String) : Option Nat :=
  let cs := match s.toList with
    | '+' :: r => r
    | cs => cs
  (prefixed? cs).or (if hasLeadingZero cs then none else digits? 10 cs)

def integer? (s : String) : Option Int :=
  match s.toList with
  | '-' :: r =>
    ((prefixed? r).or (if hasLeadingZero r then none else digits? 10 r)).map fun n => -(n : Int)
  | _ => (natural? s).map Int.ofNat

def float? (s : String) : Option Decimal.Double :=
  let positive := match s.toList with
    | '+' :: '+' :: _ | '+' :: '-' :: _ => none
    | '+' :: r => some r
    | cs => some cs
  positive.bind fun cs =>
    if [".inf", ".Inf", ".INF"].contains (String.ofList cs) then some (.infinite false)
    else if ["-.inf", "-.Inf", "-.INF"].contains s then some (.infinite true)
    else if [".nan", ".NaN", ".NAN"].contains s then some .notANumber
    else Decimal.Double.parse? cs

/-- An integer, unless it has more than 128 bits. -/
def number? (s : String) : Option Meaning :=
  (integer? s).bind fun n =>
    if -Int.pow 2 63 ≤ n ∧ n < Int.pow 2 64 then some (.integer n)
    else if -Int.pow 2 127 ≤ n ∧ n < Int.pow 2 128 then some (.wide n)
    else none

def meaning (s : String) : Meaning :=
  if s.isEmpty || isNull s then .null
  else
    match bool? s, number? s with
    | some b, _ => .bool b
    | none, some m => m
    | none, none =>
      if hasLeadingZero s.toList then .text
      else
        match float? s with
        | some x => .float x
        | none => .text

end ShaderBuild.Yaml.CoreSchema
