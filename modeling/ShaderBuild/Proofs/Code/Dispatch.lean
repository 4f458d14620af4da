import ShaderBuild.Code.Language
import ShaderBuild.Proofs.Code.Lookup

namespace ShaderBuild.Code

namespace Item

def blob? : Item → Option BlobDecl
  | .blob d => some d
  | _ => none

def dispatcher? : Item → Option DispatcherDecl
  | .dispatcher d => some d
  | _ => none

def module? (name : String) : Item → Option (List Item)
  | .module n is => if n = name then some is else none
  | _ => none

end Item

abbrev Scope := List Item

namespace Scope

def enum? (s : Scope) (name : String) : Option EnumDecl :=
  (s.filterMap Item.enum?).find? (·.name == name)

def instance? (s : Scope) (name : String) : Option InstanceDecl :=
  (s.filterMap Item.instance?).find? (·.name == name)

def blob? (s : Scope) (name : String) : Option BlobDecl :=
  (s.filterMap Item.blob?).find? (·.name == name)

def dispatcher? (s : Scope) (name : String) : Option DispatcherDecl :=
  (s.filterMap Item.dispatcher?).find? (·.name == name)

def table? (s : Scope) (lookup : String) : Option TableDecl :=
  (s.filterMap Item.table?).find? (·.lookup == lookup)

def module? (s : Scope) (name : String) : Option (List Item) := s.findSome? (Item.module? name)

end Scope

def EnumDecl.position? (e : EnumDecl) (variant : String) : Option Nat :=
  if variant = countVariant then some e.variants.length
  else e.variants.findIdx? (· == variant)

/-- What a value is when the program runs; bytes may be missing. -/
inductive Datum
  | number (n : Nat)
  | text (s : String)
  | bytes (content : Option (List UInt8))
deriving DecidableEq, Repr

/-- The value of an expression. The length of a blob is measured in one language and written out in
the other; sizes of types are up to the compiler. -/
def Value.datum? (language : OutputLanguage) (s : Scope) : Value → Option Datum
  | .uint n => some (.number n.toNat)
  | .maxUInt32 => some (.number 0xFFFFFFFF)
  | .enumVariant e v | .enumIndex e v => ((s.enum? e).bind (·.position? v)).map .number
  | .sizeOf _ => none
  | .str t => some (.text t)
  | .blob n => (s.blob? n).map fun d => .bytes (some d.bytes)
  | .blobLength n length =>
    match language with
    | .cpp => (s.blob? n).map fun d => .number (UInt32.ofNat d.bytes.length).toNat
    | .rust => some (.number length.toNat)
  | .noBlob => some (.bytes none)

def InstanceDecl.data? (language : OutputLanguage) (s : Scope) (d : InstanceDecl) :
    Option (List (String × Datum)) :=
  d.values.mapM fun (field, v) => (v.datum? language s).map (field, ·)

def TableDecl.instanceAtPosition (d : TableDecl) (k : Nat) : String :=
  (d.entries[k]?.map (·.2)).getD d.fallback

/-- Where a dispatcher leads, and in which scope the instance is found. Key and selector are variants
of the enums that the dispatcher takes, and the table takes the same key. -/
def DispatcherDecl.target? (s : Scope) (d : DispatcherDecl) (key selector : String) :
    Option (Scope × String) := do
  let k ← (← s.enum? d.keyEnum).position? key
  let _ ← (← s.enum? d.selectorEnum).position? selector
  match d.routes.lookup selector with
  | none => return (s, d.fallback)
  | some name =>
    let is ← s.module? name
    let t ← Scope.table? is d.name
    guard (t.kind = .byEnum d.keyEnum)
    return (is ++ s, t.instanceAtPosition k)

/-- What a call of a dispatcher gives, field by field. -/
def call? (language : OutputLanguage) (fs : List File) (dispatcher key selector : String) :
    Option (List (String × Datum)) := do
  let s : Scope := fs.flatMap (·.items)
  let d ← s.dispatcher? dispatcher
  let (scope, name) ← d.target? s key selector
  (← scope.instance? name).data? language scope

end ShaderBuild.Code
