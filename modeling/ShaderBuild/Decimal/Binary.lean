namespace ShaderBuild.Decimal

structure FloatFormat where
  precision : Nat
  /-- Exponents of the last bit. -/
  least : Int
  greatest : Int
deriving DecidableEq, Repr, Inhabited

def single : FloatFormat := ⟨24, -149, 104⟩

def double : FloatFormat := ⟨53, -1074, 971⟩

/-- A significand times a power of two. -/
structure Magnitude where
  significand : Nat
  exponent : Int
deriving DecidableEq, Repr, Inhabited

def scaleTwo (num den : Nat) (e : Int) : Nat × Nat :=
  match e with
  | .ofNat n => (num * Nat.pow 2 n, den)
  | .negSucc n => (num, den * Nat.pow 2 (n + 1))

def scaleTen (num den : Nat) (e : Int) : Nat × Nat :=
  match e with
  | .ofNat n => (num * Nat.pow 10 n, den)
  | .negSucc n => (num, den * Nat.pow 10 (n + 1))

/-- A fraction rounded to the nearest integer, a half to the even one. -/
def roundEven (num den : Nat) : Nat :=
  let q := num / den
  let twice := 2 * (num % den)
  if twice < den then q
  else if den < twice then q + 1
  else q + q % 2

def FloatFormat.round? (f : FloatFormat) (num den : Nat) : Option Magnitude :=
  let e := max f.least ((num.log2 : Int) - den.log2 - f.precision)
  let fits (e : Int) : Bool :=
    let (n, d) := scaleTwo num den (-e)
    n / d < Nat.pow 2 f.precision
  let e := if fits e then e else e + 1
  let (n, d) := scaleTwo num den (-e)
  let s := roundEven n d
  let (s, e) := if s = Nat.pow 2 f.precision then (Nat.pow 2 (f.precision - 1), e + 1)
    else (s, e)
  if f.greatest < e then none else some ⟨s, e⟩

/-- The magnitude nearest to `digits · 10 ^ exponent`. Far out of range the digits do not count. -/
def FloatFormat.ofDecimal? (f : FloatFormat) (digits : Nat) (exponent : Int) : Option Magnitude :=
  let top := exponent + (Nat.toDigits 10 digits).length
  if digits = 0 ∨ top < -400 then some ⟨0, f.least⟩
  else if 400 < top then none
  else
    let (num, den) := scaleTen digits 1 exponent
    f.round? num den

end ShaderBuild.Decimal
