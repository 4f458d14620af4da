import ShaderBuild.Shell.Arithmetic
import ShaderBuild.Text.Utf8

namespace ShaderBuild.Shell.Format

def encode (cs : List Char) : List UInt8 := Text.Utf8.encode (.ofList cs)

def letter? : Char → Option UInt8
  | 'a' => some 7
  | 'b' => some 8
  | 'f' => some 12
  | 'n' => some 10
  | 'r' => some 13
  | 't' => some 9
  | 'v' => some 11
  | '\\' => some 92
  | _ => none

def isOctal (c : Char) : Bool := '0' ≤ c && c ≤ '7'

def octal (cs : List Char) : UInt8 :=
  .ofNat (cs.foldl (fun n c => 8 * n + (c.toNat - '0'.toNat)) 0)

/-- Resolve escapes; digits of a byte come behind a zero, and `\c` ends all output. -/
def unescape : Nat → List Char → List UInt8 × Bool
  | 0, _ => ([], false)
  | _, [] => ([], false)
  | fuel + 1, '\\' :: c :: r =>
    let more (bytes : List UInt8) (r : List Char) : List UInt8 × Bool :=
      let (rest, ends) := unescape fuel r
      (bytes ++ rest, ends)
    if c == 'c' then ([], true)
    else if c == '0' then
      let digits := (r.take 3).takeWhile isOctal
      more [octal digits] (r.drop digits.length)
    else
      match letter? c with
      | some b => more [b] r
      | none => more (encode ['\\', c]) r
  | fuel + 1, c :: r =>
    let (rest, ends) := unescape fuel r
    (encode [c] ++ rest, ends)

def echo (arguments : List String) : List UInt8 :=
  let (newline, arguments) := match arguments with
    | "-n" :: r => (false, r)
    | r => (true, r)
  let cs := (" ".intercalate arguments).toList
  let (bytes, ends) := unescape (cs.length + 1) cs
  if newline && !ends then bytes ++ [10] else bytes

structure Spec where
  left : Bool := false
  zeros : Bool := false
  plus : Bool := false
  width : Nat := 0
  precision : Option Nat := none

def digitsValue (cs : List Char) : Nat :=
  cs.foldl (fun n c => 10 * n + (c.toNat - '0'.toNat)) 0

def spec (cs : List Char) : Spec × List Char :=
  let flags := cs.takeWhile fun c => c == '-' || c == '0' || c == '+' || c == ' ' || c == '#'
  let cs := cs.drop flags.length
  let width := cs.takeWhile Char.isDigit
  let cs := cs.drop width.length
  let base : Spec := {
    left := flags.contains '-', zeros := flags.contains '0', plus := flags.contains '+'
    width := digitsValue width }
  match cs with
  | '.' :: r =>
    let digits := r.takeWhile Char.isDigit
    ({ base with precision := some (digitsValue digits) }, r.drop digits.length)
  | _ => (base, cs)

def padded (s : Spec) (zeros : Bool) (bytes : List UInt8) : List UInt8 :=
  let missing := s.width - bytes.length
  if s.left then bytes ++ List.replicate missing 32
  else List.replicate missing (if zeros && s.zeros then 48 else 32) ++ bytes

def integer? (s : String) : Option Int :=
  match s.toList with
  | [] => some 0
  | '-' :: r => (Arithmetic.number? r).map (- ·)
  | '+' :: r => Arithmetic.number? r
  | '\'' :: c :: _ | '"' :: c :: _ => some c.toNat
  | cs => Arithmetic.number? cs

def integerText (s : Spec) (kind : Char) (n : Int) : List Char :=
  let natural (m : Nat) (radix : Nat) : List Char :=
    let digits := Nat.toDigits radix m
    List.replicate ((s.precision.getD 0) - digits.length) '0' ++ digits
  let word := (Int64.ofInt n).toUInt64.toNat
  match kind with
  | 'o' => natural word 8
  | 'x' => natural word 16
  | 'X' => (natural word 16).map Char.toUpper
  | 'u' => natural word 10
  | _ =>
    if n < 0 then '-' :: natural n.natAbs 10
    else (if s.plus then ['+'] else []) ++ natural n.natAbs 10

structure Pass where
  bytes : List UInt8 := []
  rest : List String
  wrong : List String := []
  ends : Bool := false

def Pass.put (p : Pass) (bytes : List UInt8) : Pass := { p with bytes := bytes ++ p.bytes }

def pass : Nat → List Char → List String → Pass
  | 0, _, arguments | _, [], arguments => { rest := arguments }
  | fuel + 1, '%' :: '%' :: r, arguments => (pass fuel r arguments).put [37]
  | fuel + 1, '%' :: r, arguments =>
    let (s, r) := spec r
    let argument := arguments.head?.getD ""
    match r with
    | [] => { bytes := [37], rest := arguments }
    | 's' :: r =>
      let bytes := encode argument.toList
      let bytes := match s.precision with
        | some n => bytes.take n
        | none => bytes
      (pass fuel r arguments.tail).put (padded s false bytes)
    | 'b' :: r =>
      let (bytes, ends) := unescape (argument.length + 1) argument.toList
      if ends then { bytes := padded s false bytes, rest := [], ends }
      else (pass fuel r arguments.tail).put (padded s false bytes)
    | 'c' :: r =>
      (pass fuel r arguments.tail).put (padded s false (encode (argument.toList.take 1)))
    | k :: r =>
      if "diouxX".toList.contains k then
        let next := pass fuel r arguments.tail
        match integer? argument with
        | some n => next.put (padded s true (encode (integerText s k n)))
        | none =>
          { next.put (padded s true (encode (integerText s k 0))) with
            wrong := argument :: next.wrong }
      else (pass fuel r arguments).put (encode ['%', k])
  | fuel + 1, '\\' :: c :: r, arguments =>
    if isOctal c then
      let digits := ((c :: r).take 3).takeWhile isOctal
      (pass fuel ((c :: r).drop digits.length) arguments).put [octal digits]
    else
      match letter? c with
      | some b => (pass fuel r arguments).put [b]
      | none =>
        if c == '"' then (pass fuel r arguments).put [34]
        else (pass fuel r arguments).put (encode ['\\', c])
  | fuel + 1, c :: r, arguments => (pass fuel r arguments).put (encode [c])

/-- What `printf` prints: the format again as long as it uses up arguments. -/
def printf : Nat → List Char → List String → Pass
  | 0, _, arguments => { rest := arguments }
  | fuel + 1, format, arguments =>
    let p := pass (format.length + 1) format arguments
    if p.ends || p.rest.isEmpty || p.rest.length == arguments.length then p
    else
      let q := printf fuel format p.rest
      { q with bytes := p.bytes ++ q.bytes, wrong := p.wrong ++ q.wrong }

end ShaderBuild.Shell.Format
