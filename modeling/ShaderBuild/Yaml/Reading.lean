import ShaderBuild.Yaml.CoreSchema
import ShaderBuild.Yaml.Document

namespace ShaderBuild.Yaml

/-- A reading of a document: it knows the numbered nodes and how many aliases it may yet follow. -/
abbrev Reading := ReaderT (List (Nat × Node)) (StateT Nat (Except Fault))

/-- How deep collections may nest. -/
def nestingLimit : Nat := 128

def Document.read {α : Type} (d : Document) (reader : Option Node → Reading α) :
    Except Fault α :=
  ((reader d.root).run d.anchors).run' (100 * d.root.elim 1 Node.size)

namespace Node

def resolve : Node → Reading Node
  | reference number => do
    match ← get with
    | 0 => throw Fault.tooManyAliases
    | left + 1 =>
      set left
      match (← read).lookup number with
      | some n => return n
      | none => throw Fault.malformed
  | n => return n

def readText (n : Node) : Reading String := do
  match ← n.resolve with
  | scalar _ _ s => return s
  | _ => throw (Fault.mismatch "a text")

def isTagged (p : Properties) (type : String) : Bool := p.tag == some (Tag.core type)

def readWord (n : Node) : Reading UInt32 := do
  match ← n.resolve with
  | scalar p style s =>
    let isNumber := style == .plain || style == .literal && isTagged p "int"
    match CoreSchema.natural? s with
    | some k =>
      if isNumber && k < UInt32.size then return .ofNat k else throw (Fault.mismatch "a number")
    | none => throw (Fault.mismatch "a number")
  | _ => throw (Fault.mismatch "a number")

def readOption {α : Type} (reader : Node → Reading α) (n : Node) : Reading (Option α) := do
  let n ← n.resolve
  let some' : Reading (Option α) := some <$> reader n
  match n with
  | scalar p .plain s =>
    if isTagged p "null" then
      if CoreSchema.isNull s then return none else throw (Fault.mismatch "null")
    else if p.tag.isNone && (s.isEmpty || CoreSchema.isNull s) then return none
    else some'
  | _ => some'

/-- The items of a sequence, if there is room for one. Nothing at all counts as no items. -/
def readList {α : Type} (room : Bool) (reader : Node → Reading α) (n : Node) :
    Reading (List α) := do
  match ← n.resolve with
  | sequence _ ns => if room then ns.mapM reader else throw Fault.tooDeep
  | scalar _ .plain "" => return []
  | _ => throw (Fault.mismatch "a sequence")

/-- The values of the fields with the given names in a mapping, if there is room for one. A name
comes at most once; other fields do not count. -/
def readFields (room : Bool) (names : List String) (n : Node) :
    Reading (List (String × Node)) := do
  match ← n.resolve with
  | mapping _ es =>
    if !room then throw Fault.tooDeep
    es.foldlM (fun fields (k, v) => do
      let name ← k.readText
      if !names.contains name then return fields
      else if (fields.lookup name).isSome then throw Fault.duplicateKey
      else return fields ++ [(name, v)]) []
  | _ => throw (Fault.mismatch "a mapping")

/-- A name out of a list, given as text or as a tag in front of nothing. -/
def readName {α : Type} (ofName? : String → Option α) (n : Node) : Reading α := do
  let found (s : String) : Reading α :=
    match ofName? s with
    | some a => pure a
    | none => throw (Fault.mismatch "a known name")
  match ← n.resolve with
  | scalar p style s =>
    match p.tag.bind Tag.label? with
    | some name =>
      if style == .plain && (s.isEmpty || CoreSchema.isNull s) then found name
      else throw (Fault.mismatch "a name")
    | none => found s
  | _ => throw (Fault.mismatch "a name")

def readLabel (n : Node) : Reading (String × Node) := do
  let n ← n.resolve
  match n.tag?.bind Tag.label? with
  | some label => return (label, n)
  | none => throw (Fault.mismatch "a label")

end Node

def wantField {α : Type} (fields : List (String × Node)) (name : String)
    (reader : Node → Reading α) : Reading α :=
  match fields.lookup name with
  | some n => reader n
  | none => throw (Fault.mismatch name)

def wantOption {α : Type} (fields : List (String × Node)) (name : String)
    (reader : Node → Reading α) : Reading (Option α) :=
  match fields.lookup name with
  | some n => n.readOption reader
  | none => return none

end ShaderBuild.Yaml
