namespace ShaderBuild.Shell

abbrev Pattern := List (Char × Bool)

namespace Pattern

def set? (c : Char) (p : Pattern) : Option (Bool × Pattern) :=
  let (negated, p) := match p with
    | ('!', false) :: r => (true, r)
    | p => (false, p)
  let body := match p with
    | (']', _) :: r => ']' :: (r.takeWhile (·.1 != ']')).map (·.1)
    | p => (p.takeWhile (·.1 != ']')).map (·.1)
  let rest := p.drop body.length
  let rec holds : List Char → Bool
    | a :: '-' :: b :: r => (a ≤ c && c ≤ b) || holds r
    | a :: r => a == c || holds r
    | [] => false
  match rest with
  | [] => none
  | _ :: rest => some (holds body != negated, rest)

def matchesIn : Nat → Pattern → List Char → Bool
  | 0, _, _ => false
  | _, [], cs => cs.isEmpty
  | fuel + 1, ('*', false) :: p, cs =>
    matchesIn fuel p cs ||
      match cs with
      | [] => false
      | _ :: r => matchesIn fuel (('*', false) :: p) r
  | _, _, [] => false
  | fuel + 1, ('?', false) :: p, _ :: r => matchesIn fuel p r
  | fuel + 1, ('[', false) :: p, c :: r =>
    match set? c p with
    | some (true, rest) => matchesIn fuel rest r
    | some (false, _) => false
    | none => c == '[' && matchesIn fuel p r
  | fuel + 1, (d, _) :: p, c :: r => c == d && matchesIn fuel p r

def fits (p : Pattern) (cs : List Char) : Bool := matchesIn (p.length + cs.length + 1) p cs

def dropStart (p : Pattern) (longest : Bool) (cs : List Char) : List Char :=
  let lengths := List.range (cs.length + 1)
  let lengths := if longest then lengths.reverse else lengths
  match lengths.find? fun n => p.fits (cs.take n) with
  | some n => cs.drop n
  | none => cs

def dropEnd (p : Pattern) (longest : Bool) (cs : List Char) : List Char :=
  let lengths := List.range (cs.length + 1)
  let lengths := if longest then lengths else lengths.reverse
  match lengths.find? fun n => p.fits (cs.drop n) with
  | some n => cs.take n
  | none => cs

end Pattern

end ShaderBuild.Shell
