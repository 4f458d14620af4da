namespace ShaderBuild.Text

inductive Directive
  | line (text : String)
  | blank
  | opening (text : String)
  | closing (text : String)
deriving DecidableEq, Repr, Inhabited

/-- Lines written so far, last line first, and the number of open blocks. -/
structure Page where
  lines : List (List Char)
  depth : Nat
deriving Repr, Inhabited

namespace Page

def empty : Page := ⟨[], 0⟩

def indentation (depth : Nat) : List Char := List.replicate (4 * depth) ' '

def splitLines : List Char → List (List Char)
  | [] => [[]]
  | c :: r =>
    if c == '\n' then [] :: splitLines r
    else match splitLines r with
      | [] => [[c]]
      | l :: ls => (c :: l) :: ls

/-- An empty text gives an empty line without indentation. -/
def write (p : Page) (text : String) : Page :=
  if text == "" then { p with lines := [] :: p.lines }
  else { p with lines := (splitLines (indentation p.depth ++ text.toList)).reverse ++ p.lines }

def endsBlank (p : Page) : Bool :=
  match p.lines with
  | [] :: _ :: _ => true
  | _ => false

def endsOpen (p : Page) : Bool :=
  match p.lines with
  | l :: _ => l.getLast? == some '{'
  | [] => false

def separate (p : Page) : Page :=
  if p.lines.isEmpty || p.endsBlank || p.endsOpen then p else { p with lines := [] :: p.lines }

def dropBlank (p : Page) : Page :=
  if p.endsBlank then { p with lines := p.lines.tail } else p

def step (p : Page) : Directive → Page
  | .line text => p.write text
  | .blank => p.separate
  | .opening text => let q := p.write text; { q with depth := q.depth + 1 }
  | .closing text => ({ p with depth := p.depth - 1 } : Page).dropBlank.write text

def run (p : Page) (ds : List Directive) : Page := ds.foldl step p

/-- Drop the blank lines at the end; a first line stays. -/
def trimEnd : List (List Char) → List (List Char)
  | [] :: l :: ls => trimEnd (l :: ls)
  | ls => ls

def text (p : Page) : String :=
  .ofList ((trimEnd p.lines).reverse.flatMap fun l => l ++ ['\n'])

end Page

def render (ds : List Directive) : String := (Page.empty.run ds).text

end ShaderBuild.Text
