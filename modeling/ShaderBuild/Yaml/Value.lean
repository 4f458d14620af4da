import ShaderBuild.Text.Quoted
import ShaderBuild.Yaml.Reading

namespace ShaderBuild.Yaml

inductive Value
  | null
  | bool (b : Bool)
  | integer (n : Int)
  | float (x : Decimal.Double)
  | text (s : String)
  | sequence (items : List Value)
  | mapping (entries : List (Value × Value))
  | labelled (label : String) (value : Value)
deriving Repr, Inhabited

namespace Value

mutual

def same : Value → Value → Bool
  | null, null => true
  | bool a, bool b => a == b
  | integer a, integer b => a == b
  | float a, float b => a.same b
  | text a, text b => a == b
  | sequence as, sequence bs => sameItems as bs
  | mapping as, mapping bs => as.length == bs.length && sameEntries as bs
  | labelled l a, labelled m b => l == m && same a b
  | _, _ => false

def sameItems : List Value → List Value → Bool
  | [], [] => true
  | a :: as, b :: bs => same a b && sameItems as bs
  | _, _ => false

def sameEntries : List (Value × Value) → List (Value × Value) → Bool
  | [], _ => true
  | (k, v) :: r, bs => bs.any (fun (l, w) => same k l && same v w) && sameEntries r bs

end

def bare : Value → Value
  | labelled _ v => bare v
  | v => v

mutual

def hasLabel : Value → Bool
  | labelled .. => true
  | sequence items => itemsHaveLabel items
  | mapping entries => entriesHaveLabel entries
  | _ => false

def itemsHaveLabel : List Value → Bool
  | [] => false
  | v :: r => hasLabel v || itemsHaveLabel r

def entriesHaveLabel : List (Value × Value) → Bool
  | [] => false
  | (k, v) :: r => hasLabel k || hasLabel v || entriesHaveLabel r

end

def describe : Value → String
  | null => "unit value"
  | bool b => s!"boolean \x60{b}\x60"
  | integer n => s!"integer \x60{n}\x60"
  | float x => s!"floating point \x60{x.text}\x60"
  | text s => s!"string {Text.quoted s}"
  | sequence _ => "sequence"
  | mapping _ => "map"
  | labelled .. => "enum"

/-- What a plain scalar means; integers of more than 64 bits are refused. -/
def ofMeaning (s : String) : CoreSchema.Meaning → Except Fault Value
  | .null => .ok null
  | .bool b => .ok (bool b)
  | .integer n => .ok (integer n)
  | .wide _ => .error (.mismatch "an integer of 64 bits")
  | .float x => .ok (float x)
  | .text => .ok (text s)

def ofTyped? (p : Properties) (s : String) : Option (Except Fault Value) :=
  let asked {α : Type} (x : Option α) (f : α → Value) (wanted : String) : Except Fault Value :=
    match x with
    | some a => .ok (f a)
    | none => .error (.mismatch wanted)
  if Node.isTagged p "bool" then some (asked (CoreSchema.bool? s) bool "a truth value")
  else if Node.isTagged p "int" then
    some <|
      match CoreSchema.number? s with
      | some m => ofMeaning s m
      | none => .error (.mismatch "an integer")
  else if Node.isTagged p "float" then some (asked (CoreSchema.float? s) float "a number")
  else if Node.isTagged p "null" then
    some (if CoreSchema.isNull s then .ok null else .error (.mismatch "null"))
  else none

/-- A scalar without a label. Quoted scalars, and others with a foreign tag that is not known, are
text. -/
def ofScalar (p : Properties) (style : ScalarStyle) (s : String) : Except Fault Value :=
  match ofTyped? p s with
  | some v => v
  | none =>
    if style == .plain && p.tag.all (·.isLocal) then ofMeaning s (CoreSchema.meaning s) else .ok (text s)

def label? (p : Properties) : Option String :=
  (p.tag.bind Tag.label?).map fun label =>
    match label.toList with
    | '!' :: c :: r => .ofList (c :: r)
    | _ => label

def wrap (label : Option String) (v : Value) : Value :=
  match label with
  | some l => labelled l v
  | none => v

def distinct : List (Value × Value) → Except Fault (List (Value × Value))
  | [] => .ok []
  | (k, v) :: r => do
    if r.any fun (l, _) => same k l then .error .duplicateKey
    return (k, v) :: (← distinct r)

def ofNode (depth : Nat) (n : Node) : Reading Value := do
  match ← n.resolve, depth with
  | .scalar p style s, _ =>
    match label? p with
    | some l => return labelled l (← ofScalar {} style s)
    | none => ofScalar p style s
  | .sequence p ns, depth + 1 =>
    return wrap (label? p) (sequence (← ns.mapM (ofNode depth)))
  | .mapping p es, depth + 1 =>
    let entries ← es.mapM fun (k, v) => return (← ofNode depth k, ← ofNode depth v)
    return wrap (label? p) (mapping (← distinct entries))
  | _, _ => throw Fault.tooDeep

/-- The value of the only document of a text; an empty text means nothing. -/
def ofText (text : String) : Except Fault Value := do
  (← Document.ofText text).read fun
    | some n => ofNode nestingLimit n
    | none => return null

end Value

end ShaderBuild.Yaml
