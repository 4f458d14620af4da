namespace ShaderBuild.Digest

def fold (x y : UInt64) : UInt64 :=
  let p := x.toNat * y.toNat
  .ofNat (p % UInt64.size) ^^^ .ofNat (p / UInt64.size)

def littleEndian (bytes : List UInt8) : UInt64 :=
  bytes.foldr (fun b n => n <<< 8 ||| b.toUInt64) 0

def seed0 : UInt64 := 0x243f6a8885a308d3

def seed1 : UInt64 := 0x13198a2e03707344

def secret : UInt64 := 0xa4093822299f31d0

def multiplier : UInt64 := 0xf1357aea2e62a9c5

def rotateLeft (x : UInt64) (n : UInt64) : UInt64 := x <<< n ||| x >>> (64 - n)

def ending (n : Nat) (bytes : List UInt8) : List UInt8 := bytes.drop (bytes.length - n)

def blocks (s0 s1 : UInt64) : Nat → List UInt8 → UInt64 × UInt64
  | 0, _ => (s0, s1)
  | n + 1, bytes =>
    let x := littleEndian (bytes.take 8)
    let y := littleEndian ((bytes.drop 8).take 8)
    blocks s1 (fold (s0 ^^^ x) (secret ^^^ y)) n (bytes.drop 16)

/-- The two state words of a text. -/
def absorb (bytes : List UInt8) : UInt64 × UInt64 :=
  let n := bytes.length
  if 16 < n then
    let (s0, s1) := blocks seed0 seed1 ((n - 1) / 16) bytes
    let tail := ending 16 bytes
    (s0 ^^^ littleEndian (tail.take 8), s1 ^^^ littleEndian (tail.drop 8))
  else if 8 ≤ n then
    (seed0 ^^^ littleEndian (bytes.take 8), seed1 ^^^ littleEndian (ending 8 bytes))
  else if 4 ≤ n then
    (seed0 ^^^ littleEndian (bytes.take 4), seed1 ^^^ littleEndian (ending 4 bytes))
  else match bytes with
    | [] => (seed0, seed1)
    | first :: _ =>
      let last := (bytes.getLast?.getD 0).toUInt64
      let middle := (bytes[n / 2]?.getD 0).toUInt64
      (seed0 ^^^ first.toUInt64, seed1 ^^^ (last <<< 8 ||| middle))

def digest (bytes : List UInt8) : UInt64 :=
  let (s0, s1) := absorb bytes
  rotateLeft ((fold s0 s1 ^^^ .ofNat bytes.length) * multiplier) 26

end ShaderBuild.Digest
