namespace ShaderBuild.Text.Utf8

inductive State
  | between
  /-- Inside a character: the value so far, the number of bytes to come, and the range of the next. -/
  | inside (value left : Nat) (low high : UInt8)

/-- A byte between characters: the characters it completes (none for a byte that starts no
character) and where it leads. -/
def first (b : UInt8) : List (Option Char) × State :=
  if b < 0x80 then ([some (Char.ofNat b.toNat)], .between)
  else if b < 0xC2 then ([none], .between)
  else if b < 0xE0 then ([], .inside (b.toNat - 0xC0) 1 0x80 0xBF)
  else if b = 0xE0 then ([], .inside 0 2 0xA0 0xBF)
  else if b = 0xED then ([], .inside 0xD 2 0x80 0x9F)
  else if b < 0xF0 then ([], .inside (b.toNat - 0xE0) 2 0x80 0xBF)
  else if b = 0xF0 then ([], .inside 0 3 0x90 0xBF)
  else if b < 0xF4 then ([], .inside (b.toNat - 0xF0) 3 0x80 0xBF)
  else if b = 0xF4 then ([], .inside 4 3 0x80 0x8F)
  else ([none], .between)

def step : State → UInt8 → List (Option Char) × State
  | .between, b => first b
  | .inside value left low high, b =>
    if low ≤ b ∧ b ≤ high then
      let value := value * 64 + (b.toNat - 0x80)
      if left ≤ 1 then ([some (Char.ofNat value)], .between)
      else ([], .inside value (left - 1) 0x80 0xBF)
    else
      let (done, next) := first b
      (none :: done, next)

/-- The characters of bytes, with a gap for each sequence that is none. -/
def scan : State → List UInt8 → List (Option Char)
  | .between, [] => []
  | .inside .., [] => [none]
  | s, b :: r => (step s b).1 ++ scan (step s b).2 r

def decode? (bytes : List UInt8) : Option String :=
  ((scan .between bytes).mapM id).map .ofList

def decodeLossy (bytes : List UInt8) : String :=
  .ofList ((scan .between bytes).map (·.getD '\ufffd'))

def encode (s : String) : List UInt8 := s.toList.flatMap String.utf8EncodeChar

end ShaderBuild.Text.Utf8
