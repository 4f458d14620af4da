namespace ShaderBuild.Text

/-- The property `White_Space`, which has twenty-five code points. -/
def isBlank (c : Char) : Bool :=
  let n := c.toNat
  (9 ≤ n && n ≤ 13) || n == 0x20 || n == 0x85 || n == 0xA0 || n == 0x1680 ||
    (0x2000 ≤ n && n ≤ 0x200A) || n == 0x2028 || n == 0x2029 || n == 0x202F || n == 0x205F ||
    n == 0x3000

def trimChars (cs : List Char) : List Char :=
  ((cs.dropWhile isBlank).reverse.dropWhile isBlank).reverse

def trim (s : String) : String := .ofList (trimChars s.toList)

def isAllBlank (s : String) : Bool := s.toList.all isBlank

def isWord (c : Char) : Bool := c.isAlphanum || c == '_'

def isWordStart (c : Char) : Bool := c.isAlpha || c == '_'

def isIdentifierChars : List Char → Bool
  | [] => false
  | c :: r => isWordStart c && r.all isWord

def isIdentifier (s : String) : Bool := isIdentifierChars s.toList

def sanitizeChars (cs : List Char) : List Char :=
  match cs.map fun c => if isWord c then c else '_' with
  | [] => []
  | c :: r => if c.isDigit then '_' :: c :: r else c :: r

/-- Other characters become underscores, and a leading digit gets one in front. -/
def sanitize (s : String) : String := .ofList (sanitizeChars s.toList)

/-- Whether a word starts at the capital between `previous` and `next`. A capital after a capital or
a digit starts one only before a small letter, so runs such as `D3D12` stay together. -/
def startsWord (previous next : Option Char) : Bool :=
  match previous with
  | none => false
  | some p => p.isLower || ((p.isUpper || p.isDigit) && next.any Char.isLower)

/-- `out` is the text so far, last character first. -/
def snakeChars (previous : Option Char) (out : List Char) : List Char → List Char
  | [] => out.reverse
  | c :: r =>
    if c.isUpper then
      let out := if startsWord previous r.head? && out.head? != some '_' then '_' :: out else out
      snakeChars (some c) (c.toLower :: out) r
    else snakeChars (some c) (c :: out) r

def snakeCase (s : String) : String := .ofList (snakeChars none [] s.toList)

end ShaderBuild.Text
