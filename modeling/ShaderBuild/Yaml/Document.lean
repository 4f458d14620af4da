import ShaderBuild.Yaml.Lexer
import ShaderBuild.Yaml.Node

namespace ShaderBuild.Yaml

structure TokenStream where
  tokens : List Token
  names : List (String × Nat) := []

abbrev Parsing := StateT TokenStream (Except Fault)

namespace Parsing

def malformed {α : Type} : Parsing α := throw Fault.malformed

def next? : Parsing (Option Token) := return (← get).tokens.head?

def skip : Parsing Unit := modify fun s => { s with tokens := s.tokens.tail }

def atAny (ts : List Token) : Parsing Bool := return (← next?).any ts.contains

def pass (t : Token) : Parsing Bool := do
  let found ← atAny [t]
  if found then skip
  return found

def expect (t : Token) : Parsing Unit := do
  if !(← pass t) then malformed

def anchor (name : String) : Parsing Nat := do
  let s ← get
  let number := s.names.length
  set { s with names := (name, number) :: s.names.filter (·.1 != name) }
  return number

def referred (name : String) : Parsing Node := do
  match (← get).names.lookup name with
  | some number => return .reference number
  | none => throw (Fault.unknownAnchor name)

end Parsing

/-- What the handles of tags stand for. -/
abbrev Handles := List (String × List UInt8)

def Handles.resolve (hs : Handles) (handle : String) (suffix : List UInt8) : Except Fault Tag :=
  if handle.isEmpty then .ok ⟨suffix⟩
  else
    match (hs ++ [("!", Tag.plain.bytes), ("!!", (Tag.core "").bytes)]).lookup handle with
    | some start => .ok ⟨start ++ suffix⟩
    | none => .error (.unknownHandle handle)

namespace Node

open Parsing

def parseAnchor : Parsing (Option String) := do
  match ← next? with
  | some (.anchor name) => skip; return some name
  | _ => return none

def parseTag (hs : Handles) : Parsing (Option Tag) := do
  match ← next? with
  | some (.tag handle suffix) => skip; return some (← hs.resolve handle suffix)
  | _ => return none

def parseProperties (hs : Handles) : Parsing (Option String × Option Tag) := do
  match ← parseAnchor with
  | some name => return (some name, ← parseTag hs)
  | none =>
    match ← parseTag hs with
    | some tag => return (← parseAnchor, some tag)
    | none => return (none, none)

mutual

/-- Read a node. A block may start here if `block`; entries of a sequence may stand at the column
of the key before them if `inValue`. -/
def parse (hs : Handles) (block inValue : Bool) : Nat → Parsing Node
  | 0 => malformed
  | fuel + 1 => do
    match ← next? with
    | some (.reference name) => skip; referred name
    | _ =>
      let (name, tag) ← parseProperties hs
      let given := name.isSome || tag.isSome
      -- anchors are numbered only where a node follows, so numbers go by where nodes start
      let numbered : Parsing Properties := do
        let anchor ← name.mapM anchor
        return { anchor, tag }
      match ← next? with
      | some (.scalar style text) => skip; return scalar (← numbered) style text
      | some .flowSequenceStart => skip; return sequence (← numbered) (← flowItems hs true fuel)
      | some .flowMappingStart => skip; return mapping (← numbered) (← flowEntries hs true fuel)
      | some .blockEntry =>
        if inValue then return sequence (← numbered) (← indentlessItems hs fuel)
        else if given then return scalar (← numbered) .plain "" else malformed
      | some .blockSequenceStart =>
        if block then skip; return sequence (← numbered) (← blockItems hs fuel)
        else if given then return scalar (← numbered) .plain "" else malformed
      | some .blockMappingStart =>
        if block then skip; return mapping (← numbered) (← blockEntries hs fuel)
        else if given then return scalar (← numbered) .plain "" else malformed
      | _ => if given then return scalar (← numbered) .plain "" else malformed

def parseOr (hs : Handles) (block inValue : Bool) (ends : List Token) : Nat → Parsing Node
  | 0 => malformed
  | fuel + 1 => do if ← atAny ends then return empty else parse hs block inValue fuel

def blockItems (hs : Handles) : Nat → Parsing (List Node)
  | 0 => malformed
  | fuel + 1 => do
    if ← pass .blockEntry then
      let item ← parseOr hs true false [.blockEntry, .blockEnd] fuel
      return item :: (← blockItems hs fuel)
    else
      expect .blockEnd
      return []

def indentlessItems (hs : Handles) : Nat → Parsing (List Node)
  | 0 => malformed
  | fuel + 1 => do
    if ← pass .blockEntry then
      let item ← parseOr hs true false [.blockEntry, .key, .value, .blockEnd] fuel
      return item :: (← indentlessItems hs fuel)
    else return []

def blockEntries (hs : Handles) : Nat → Parsing (List (Node × Node))
  | 0 => malformed
  | fuel + 1 => do
    if ← pass .key then
      let key ← parseOr hs true true [.key, .value, .blockEnd] fuel
      let value ←
        if ← pass .value then parseOr hs true true [.key, .value, .blockEnd] fuel
        else pure empty
      return (key, value) :: (← blockEntries hs fuel)
    else
      expect .blockEnd
      return []

/-- A key and its value that make a mapping inside a flow sequence. Where the key is missing, the
token in its place counts as the key. -/
def flowPair (hs : Handles) : Nat → Parsing Node
  | 0 => malformed
  | fuel + 1 => do
    let key ←
      if ← atAny [.value, .flowEntry, .flowSequenceEnd] then skip; pure empty
      else parse hs false false fuel
    let value ←
      if ← pass .value then parseOr hs false false [.flowEntry, .flowSequenceEnd] fuel
      else pure empty
    return mapping {} [(key, value)]

def flowItems (hs : Handles) (first : Bool) : Nat → Parsing (List Node)
  | 0 => malformed
  | fuel + 1 => do
    if ← pass .flowSequenceEnd then return []
    if !first then expect .flowEntry
    if ← pass .flowSequenceEnd then return []
    let item ← if ← pass .key then flowPair hs fuel else parse hs false false fuel
    return item :: (← flowItems hs false fuel)

def flowEntries (hs : Handles) (first : Bool) : Nat → Parsing (List (Node × Node))
  | 0 => malformed
  | fuel + 1 => do
    if ← pass .flowMappingEnd then return []
    if !first then expect .flowEntry
    if ← pass .flowMappingEnd then return []
    let ends := [.flowEntry, .flowMappingEnd]
    let isKey ← pass .key
    let key ←
      if isKey then parseOr hs false false (.value :: ends) fuel else parse hs false false fuel
    let hasValue ← if isKey then pass .value else pure false
    let value ← if hasValue then parseOr hs false false ends fuel else pure empty
    return (key, value) :: (← flowEntries hs false fuel)

end

end Node

structure Document where
  root : Option Node
deriving Repr, Inhabited

namespace Document

def directives (version : Bool) (hs : Handles) : List Token → Except Fault (Handles × List Token)
  | .versionDirective major minor :: r =>
    if version || major != 1 || minor != 1 && minor != 2 then .error .malformed
    else directives true hs r
  | .tagDirective handle start :: r =>
    if (hs.lookup handle).isSome then .error .malformed
    else directives version (hs ++ [(handle, start)]) r
  | ts => .ok (hs, ts)

def ofTokens (ts : List Token) : Except Fault Document := do
  let fuel := 4 * ts.length + 4
  match ts with
  | [] => return ⟨none⟩
  | t :: _ =>
    let (hs, r) ← directives false [] ts
    let (root, s) ←
      match t, r with
      | .versionDirective .., .documentStart :: r | .tagDirective .., .documentStart :: r
      | .documentStart, _ :: r =>
        let ends := match r with
          | [] | .versionDirective .. :: _ | .tagDirective .. :: _ | .documentStart :: _
          | .documentEnd :: _ => true
          | _ => false
        if ends then pure (Node.empty, { tokens := r })
        else (Node.parse hs true false fuel).run { tokens := r }
      | .versionDirective .., _ | .tagDirective .., _ => throw Fault.malformed
      | _, _ => (Node.parse hs true false fuel).run { tokens := r }
    if s.tokens.all (· == .documentEnd) then return ⟨some root⟩ else throw Fault.severalDocuments

def ofText (text : String) : Except Fault Document := do ofTokens (← Token.scan text)

/-- The node behind an anchor's number; the last node with the number has it. -/
def anchors (d : Document) : List (Nat × Node) :=
  (d.root.elim [] Node.anchored).reverse

end Document

end ShaderBuild.Yaml
