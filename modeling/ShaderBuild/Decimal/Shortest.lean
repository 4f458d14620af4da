import ShaderBuild.Decimal.Binary

namespace ShaderBuild.Decimal

structure Scientific where
  digits : Nat
  exponent : Int
deriving DecidableEq, Repr, Inhabited

/-- The ends of the interval that rounds to a magnitude, in quarters of its last bit. Below a power
of two the bits are half as far apart. -/
def interval (f : FloatFormat) (m : Magnitude) : Nat × Nat :=
  let narrow := m.significand = Nat.pow 2 (f.precision - 1) ∧ f.least < m.exponent
  (4 * m.significand - (if narrow then 1 else 2), 4 * m.significand + 2)

/-- The nearest point on the grid of a power of ten, if it rounds to the magnitude. -/
def gridPoint? (f : FloatFormat) (m : Magnitude) (e : Int) : Option Nat :=
  let (low, high) := interval f m
  -- a quarter of the last bit is `num / den` steps of the grid
  let (n, d) := scaleTwo 1 1 (m.exponent - 2)
  let (num, den) := scaleTen n d (-e)
  let inside (c : Nat) : Bool :=
    if m.significand % 2 = 0 then low * num ≤ c * den && c * den ≤ high * num
    else low * num < c * den && c * den < high * num
  let below := 4 * m.significand * num / den
  let nearer : Bool := 2 * (4 * m.significand * num - below * den) < den
  match inside below, inside (below + 1) with
  | true, true => some (if nearer then below else below + 1)
  | true, false => some below
  | false, true => some (below + 1)
  | false, false => none

/-- The first hit among so many grids, each ten times finer than the one before. -/
def search (f : FloatFormat) (m : Magnitude) : Nat → Int → Scientific
  | 0, e => ⟨0, e⟩
  | n + 1, e =>
    match gridPoint? f m e with
    | some c => if c = 0 then search f m n (e - 1) else ⟨c, e⟩
    | none => search f m n (e - 1)

def shortest (f : FloatFormat) (m : Magnitude) : Scientific :=
  if m.significand = 0 then ⟨0, 0⟩
  else
    let bits : Int := m.significand.log2 + m.exponent + 1
    search f m 40 (Int.ediv (bits * 30103) 100000 + 1)

namespace Scientific

def positional (x : Scientific) : String :=
  let text := Nat.toDigits 10 x.digits
  match x.exponent with
  | .ofNat n => .ofList (if x.digits = 0 then ['0'] else text ++ List.replicate n '0')
  | .negSucc n =>
    let places := n + 1
    let padded := List.replicate (places + 1 - text.length) '0' ++ text
    .ofList (padded.take (padded.length - places) ++ '.' :: padded.drop (padded.length - places))

end Scientific

end ShaderBuild.Decimal
