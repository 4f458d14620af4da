namespace ShaderBuild.Text

def hexDigit (n : Nat) : Char := if n < 10 then .ofNat (48 + n) else .ofNat (87 + n)

def hexChars (width n : Nat) : List Char :=
  let digits := Nat.toDigits 16 n
  List.replicate (width - digits.length) '0' ++ digits

def hex (width n : Nat) : String := .ofList (hexChars width n)

def hexByte (b : UInt8) : List Char := [hexDigit (b.toNat / 16), hexDigit (b.toNat % 16)]

def hexBytes (bytes : List UInt8) : String := .ofList (bytes.flatMap hexByte)

def hexValue? (c : Char) : Option Nat :=
  let n := c.toNat
  if 48 ≤ n ∧ n ≤ 57 then some (n - 48)
  else if 97 ≤ n ∧ n ≤ 102 then some (n - 87)
  else if 65 ≤ n ∧ n ≤ 70 then some (n - 55)
  else none

def bytesOfHex? : List Char → Option (List UInt8)
  | [] => some []
  | a :: b :: r => do
    let hi ← hexValue? a
    let lo ← hexValue? b
    return .ofNat (16 * hi + lo) :: (← bytesOfHex? r)
  | [_] => none

theorem hexValue?_hexDigit {n : Nat} (h : n < 16) : hexValue? (hexDigit n) = some n := by
  have hall : ∀ n < 16, hexValue? (hexDigit n) = some n := by decide
  exact hall n h

theorem hexByte_digits (b : UInt8) : ∃ x y hi lo, hexByte b = [x, y] ∧
    hexValue? x = some hi ∧ hexValue? y = some lo ∧ 16 * hi + lo = b.toNat := by
  have hb := b.toNat_lt
  exact ⟨_, _, _, _, rfl, hexValue?_hexDigit (by omega), hexValue?_hexDigit (by omega), by omega⟩

end ShaderBuild.Text
