import ShaderBuild.Journal
import ShaderBuild.Reflection.Binding

namespace ShaderBuild

/-- What is known about one resource. -/
structure Resource where
  id : UInt32
  name : String
  bucket : Bucket
  layout : Option BufferLayout
  /-- Language, set and slot come from the first shader that declared the resource. -/
  language : SourceLanguage
  stages : StageMask
  set : UInt32
  slot : UInt32
deriving DecidableEq, Repr, Inhabited

namespace Resource

/-- Bytes of one element, zero without a layout. -/
def size (r : Resource) : UInt32 :=
  match r.layout with
  | some l => l.size
  | none => 0

def members (r : Resource) : List Member :=
  match r.layout with
  | some l => l.members
  | none => []

end Resource

/-- The resources of one bucket in the order of their ids. -/
structure ResourceTable where
  bucket : Bucket
  entries : List Resource
  ids : List (String × UInt32)
deriving DecidableEq, Repr, Inhabited

namespace ResourceTable

def empty (bucket : Bucket) : ResourceTable := ⟨bucket, [], []⟩

def size (t : ResourceTable) : Nat := t.entries.length

def get? (t : ResourceTable) (id : UInt32) : Option Resource := t.entries[id.toNat]?

def idOf? (t : ResourceTable) (name : String) : Option UInt32 := t.ids.lookup name

def find? (t : ResourceTable) (name : String) : Option Resource := (t.idOf? name).bind t.get?

def conflict (t : ResourceTable) (name : String) : Error :=
  ⟨.generation, .registry, s!"{t.bucket.name} '{name}' is declared with conflicting layouts"⟩

def mark (t : ResourceTable) (id : UInt32) (stages : StageMask) : ResourceTable :=
  { t with
    entries := t.entries.modify id.toNat fun r => { r with stages := r.stages.union stages } }

def append (t : ResourceTable) (b : Binding) (layout : Option BufferLayout) (stages : StageMask)
    (language : SourceLanguage) : UInt32 × ResourceTable :=
  let id := UInt32.ofNat t.size
  let r : Resource := ⟨id, b.name, t.bucket, layout, language, stages, b.set, b.slot⟩
  (id, { t with entries := t.entries ++ [r], ids := (b.name, id) :: t.ids })

/-- Register a binding seen in some stages, and give its id. A known name must have the same element
layout as before; it keeps its id and gains the stages. -/
def insert (t : ResourceTable) (b : Binding) (stages : StageMask) (language : SourceLanguage) :
    Except Error (UInt32 × ResourceTable) := do
  let layout ← b.layout.mapM BufferLayout.element
  match t.idOf? b.name, t.find? b.name with
  | some id, some r =>
    if r.layout = layout then return (id, t.mark id stages)
    else refuse (t.conflict b.name)
  | _, _ => return t.append b layout stages language

end ResourceTable

structure Registry where
  table : Bucket → ResourceTable
  shaders : Nat

namespace Registry

def empty : Registry := ⟨ResourceTable.empty, 0⟩

instance : Inhabited Registry := ⟨empty⟩

def tables (r : Registry) : List ResourceTable := Bucket.all.map r.table

def resourceCount (r : Registry) : Nat := (r.tables.flatMap (·.entries)).length

def addBinding (stages : StageMask) (language : SourceLanguage) (tables : Bucket → ResourceTable)
    (b : Binding) : Except Error (Bucket → ResourceTable) := do
  let (_, t) ← (tables b.bucket).insert b stages language
  return fun k => if k = b.bucket then t else tables k

def addStage (language : SourceLanguage) (tables : Bucket → ResourceTable) (s : StageReflection) :
    Except Error (Bucket → ResourceTable) :=
  s.bindings.foldlM (addBinding (.ofStage s.stage) language) tables

/-- Register every binding of a reflection whose stages are valid. -/
def add (r : Registry) (x : Reflection) : Except Error Registry := do
  x.validate
  let tables ← x.stages.foldlM (addStage x.language) r.table
  return ⟨tables, r.shaders + 1⟩

def addLogged (r : Registry) (x : Reflection) : Logged Registry := do
  let r ← Logged.attempt (r.add x)
  Logged.note .debug .registry
    s!"Registered shader #{r.shaders} ({r.resourceCount} resources total)"
  return r

end Registry

end ShaderBuild
