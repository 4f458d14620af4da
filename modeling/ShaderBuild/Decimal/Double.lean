import ShaderBuild.Decimal.Shortest

namespace ShaderBuild.Decimal

inductive Double
  | finite (negative : Bool) (magnitude : Magnitude)
  | infinite (negative : Bool)
  | notANumber
deriving DecidableEq, Repr, Inhabited

namespace Double

def same : Double → Double → Bool
  | finite s m, finite t n => m == n && (s == t || m.significand == 0)
  | a, b => a == b

def digitsValue (ds : List Char) : Nat :=
  ds.foldl (fun n d => 10 * n + (d.toNat - '0'.toNat)) 0

def takeSign : List Char → Bool × List Char
  | '-' :: r => (true, r)
  | '+' :: r => (false, r)
  | cs => (false, cs)

def exponent? : List Char → Option Int
  | [] => some 0
  | c :: r =>
    let (negative, digits) := takeSign r
    if (c == 'e' || c == 'E') && !digits.isEmpty && digits.all Char.isDigit then
      some (if negative then -digitsValue digits else digitsValue digits)
    else none

/-- Read digits with a point and an exponent, each of which may be missing. A number too large for
any double is none. -/
def parse? (cs : List Char) : Option Double :=
  let (negative, cs) := takeSign cs
  let whole := cs.takeWhile Char.isDigit
  let rest := cs.dropWhile Char.isDigit
  let (part, rest) :=
    match rest with
    | '.' :: r => (r.takeWhile Char.isDigit, r.dropWhile Char.isDigit)
    | _ => ([], rest)
  if whole.isEmpty && part.isEmpty then none
  else do
    let e ← exponent? rest
    let m ← double.ofDecimal? (digitsValue (whole ++ part)) (e - part.length)
    return finite negative m

/-- The shortest text that reads back, without an exponent but always with a point. -/
def text : Double → String
  | finite negative m =>
    let digits := (shortest double m).positional
    let digits := if digits.toList.contains '.' then digits else digits ++ ".0"
    if negative then "-" ++ digits else digits
  | infinite negative => if negative then "-inf" else "inf"
  | notANumber => "NaN"

end Double

end ShaderBuild.Decimal
