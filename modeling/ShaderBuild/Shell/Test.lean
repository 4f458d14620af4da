import ShaderBuild.FileTree.Basic
import ShaderBuild.Shell.Arithmetic
import ShaderBuild.Text.Basic

namespace ShaderBuild.Shell.Test

def exists_ (t : FileTree) (path : String) : Bool := (t.lookup path).toBool

def hasContent (t : FileTree) (path : String) : Bool :=
  match t.lookup path with
  | .ok (.file bytes _) => !bytes.isEmpty
  | .ok .directory => true
  | .error _ => false

def isExecutable (t : FileTree) (path : String) : Bool :=
  match t.lookup path with
  | .ok (.file _ x) => x
  | .ok .directory => true
  | .error _ => false

def unary? (t : FileTree) (op : String) : Option (String → Bool) :=
  match op with
  | "-n" => some (· != "")
  | "-z" => some (· == "")
  | "-e" | "-r" | "-w" => some (exists_ t)
  | "-f" => some t.isFile
  | "-d" => some t.isDirectory
  | "-s" => some (hasContent t)
  | "-x" => some (isExecutable t)
  | "-b" | "-c" | "-g" | "-h" | "-k" | "-L" | "-p" | "-S" | "-t" | "-u" => some fun _ => false
  | _ => none

def number (s : String) : Except String Int :=
  let cs := Text.trimChars s.toList
  let digits := if cs.head? == some '-' || cs.head? == some '+' then cs.drop 1 else cs
  match if digits.isEmpty then none else Arithmetic.digits? 10 digits with
  | some n => .ok (if cs.head? == some '-' then -n else n)
  | none => .error s!"Illegal number: {s}"

def compare (relation : Int → Int → Bool) (a b : String) : Except String Bool := do
  return relation (← number a) (← number b)

def binary? (op : String) : Option (String → String → Except String Bool) :=
  match op with
  | "=" | "==" => some fun a b => .ok (a == b)
  | "!=" => some fun a b => .ok (a != b)
  | "<" => some fun a b => .ok (a < b)
  | ">" => some fun a b => .ok (b < a)
  | "-eq" => some (compare (· == ·))
  | "-ne" => some (compare (· != ·))
  | "-lt" => some (compare (· < ·))
  | "-le" => some (compare (· ≤ ·))
  | "-gt" => some (compare fun a b => b < a)
  | "-ge" => some (compare fun a b => b ≤ a)
  | _ => none

abbrev Reader := StateT (List String) (Except String)

def single : Reader Bool := do
  match ← get with
  | [] => throw "argument expected"
  | w :: r => set r; return w != ""

mutual

def disjunction (t : FileTree) : Nat → Reader Bool
  | 0 => single
  | fuel + 1 => do
    let a ← conjunction t fuel
    match ← get with
    | "-o" :: r =>
      set r
      let b ← disjunction t fuel
      return a || b
    | _ => return a

def conjunction (t : FileTree) : Nat → Reader Bool
  | 0 => single
  | fuel + 1 => do
    let a ← condition t fuel
    match ← get with
    | "-a" :: r =>
      set r
      let b ← conjunction t fuel
      return a && b
    | _ => return a

def condition (t : FileTree) : Nat → Reader Bool
  | 0 => single
  | fuel + 1 => do
    match ← get with
    | [_] => single
    | a :: op :: b :: r =>
      match binary? op with
      | some f => set r; f a b
      | none => group t fuel
    | _ => group t fuel

def group (t : FileTree) : Nat → Reader Bool
  | 0 => single
  | fuel + 1 => do
    match ← get with
    | "!" :: r => set r; return !(← condition t fuel)
    | "(" :: r =>
      set r
      let a ← disjunction t fuel
      match ← get with
      | ")" :: r => set r; return a
      | _ => throw "closing paren expected"
    | op :: s :: r =>
      match unary? t op with
      | some f => set r; return f s
      | none => single
    | _ => single

end

def holds (t : FileTree) (words : List String) : Except String Bool := do
  if words.isEmpty then return false
  let (a, rest) ← (disjunction t (4 * words.length + 4)).run words
  if rest.isEmpty then return a
  let first := words.headD ""
  throw s!"{first}: unexpected operator"

end ShaderBuild.Shell.Test
