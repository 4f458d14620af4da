import ShaderBuild.Yaml.CoreSchema

namespace ShaderBuild.Yaml.ScalarStyle

/-- Characters that need no escape. -/
def isPrintable (c : Char) : Bool :=
  c == '\n' || (' ' ≤ c && c ≤ '~') || ('\u00a0' ≤ c && c ≤ '\ufffd' && c != '\ufeff') ||
    '\uffff' < c

def hasPair (p q : Char → Bool) (cs : List Char) : Bool :=
  (cs.zip (cs.drop 1)).any fun (a, b) => p a && q b

def startsReserved (cs : List Char) : Bool :=
  ("---".toList.isPrefixOf cs || "...".toList.isPrefixOf cs) ||
    match cs with
    | [] => false
    | c :: r =>
      "#,[]\x7b\x7d&*!|>'\"%@\x60".toList.contains c || (c == '?' || c == '-') && endsWord r

/-- Whether a plain scalar would end within a text: at a colon that ends a word, or at a comment. -/
def holdsEnd : List Char → Bool
  | [] => false
  | c :: r => c == ':' && endsWord r || isGap c && r.head? == some '#' || holdsEnd r

def isClean (cs : List Char) : Bool := cs.all isPrintable && !hasPair (· == ' ') isBreak cs

def allowsPlain (cs : List Char) : Bool :=
  isClean cs && !cs.any isBreak && cs.head? != some ' ' && cs.getLast? != some ' ' &&
    !startsReserved cs && !holdsEnd cs

def allowsSingleQuoted (cs : List Char) : Bool := isClean cs && !hasPair isBreak (· == ' ') cs

def allowsLiteral (cs : List Char) : Bool := isClean cs && cs.getLast? != some ' '

/-- Whether a plain scalar is taken for its own text. -/
def meansItself (s : String) : Bool :=
  CoreSchema.meaning s == .text && !CoreSchema.hasLeadingZero s.toList

def ofText (s : String) : ScalarStyle :=
  let cs := s.toList
  if cs.contains '\n' then
    if allowsLiteral cs then .literal else .doubleQuoted
  else if meansItself s && allowsPlain cs then .plain
  else if allowsSingleQuoted cs then .singleQuoted
  else .doubleQuoted

end ShaderBuild.Yaml.ScalarStyle
