import ShaderBuild.Metadata.DataStruct
import ShaderBuild.Metadata.Registry

namespace ShaderBuild.Metadata

open Code

inductive FileError
  | reservedName (bucket : Bucket) (name : String)
  | sharedName (name : String) (first second : Bucket)
  | structName (name : String)

namespace FileError

def message : FileError → String
  | reservedName b n => s!"{b.name} '{n}' uses a name reserved in generated code"
  | sharedName n a b =>
    s!"'{n}' is both a {a.name} and a {b.name}; data struct names must be unique"
  | structName n => s!"'{n}' names both a resource and a nested struct"

def toError (e : FileError) : Error := ⟨.generation, .generator, e.message⟩

instance : Coe FileError Error := ⟨toError⟩

end FileError

/-- The first fault in the names of resources, each beside whether its table is structured, given
the structured ones before them. -/
def nameFault? (seen : List Resource) : List (Bool × Resource) → Option FileError
  | [] => none
  | (structured, r) :: rest =>
    if isReserved r.name then some (.reservedName r.bucket r.name)
    else if structured then
      match seen.find? (·.name == r.name) with
      | some other => some (.sharedName r.name other.bucket r.bucket)
      | none => nameFault? (seen ++ [r]) rest
    else nameFault? seen rest

def checkNames (g : Registry) : Except Error Unit :=
  match nameFault? [] (g.tables.flatMap fun t => t.entries.map (t.bucket.isStructured, ·)) with
  | some e => refuse e
  | none => .ok ()

def dataStruct (r : Resource) (nested : List StructDecl) :
    Except Error (StructDecl × List StructDecl) := do
  let (fields, nested) ← fieldsOf r.language r.name r.members r.size nested
  return (⟨r.name, fields⟩, nested)

/-- The data structs of resources, in order, and the structs collected. -/
def dataStructs : List Resource → List StructDecl →
    Except Error (List StructDecl × List StructDecl)
  | [], nested => .ok ([], nested)
  | r :: rest, nested => do
    let (d, nested) ← dataStruct r nested
    let (ds, nested) ← dataStructs rest nested
    return (d :: ds, nested)

def ownStructs (t : ResourceTable) (nested : List StructDecl) :
    Except Error (List StructDecl × List StructDecl) :=
  if t.bucket.isStructured then dataStructs t.entries nested else .ok ([], nested)

def tableStructs : List ResourceTable → List StructDecl →
    Except Error (List (List StructDecl) × List StructDecl)
  | [], nested => .ok ([], nested)
  | t :: rest, nested => do
    let (ds, nested) ← ownStructs t nested
    let (dss, nested) ← tableStructs rest nested
    return (ds :: dss, nested)

def typesFileOf (nested : List StructDecl) : File :=
  ⟨typesFile, true, [.std "cstdint"], nested.map .struct⟩

def summary (r : Resource) : String :=
  let size := if r.bucket.isStructured then s!", {r.size} bytes" else ""
  let stages := "|".intercalate r.stages.labels
  s!"{r.name}: set {r.set}, binding {r.slot}{size}, {stages}"

def kindStruct (b : Bucket) : StructDecl :=
  let names := if b.isStructured then ["id", "size", "stride"] else ["id"]
  ⟨kindName b, names.map fun n => .plain n .uint32⟩

def wrapper (r : Resource) : WrapperDecl :=
  ⟨wrapperName r.name, r.name, .enumIndex (enumName r.bucket) r.name, .sizeOf r.name,
    .sizeOf r.name⟩

def resourceInstance (b : Bucket) (r : Resource) : InstanceDecl :=
  let sizes := if b.isStructured then
    [("size", Value.sizeOf r.name), ("stride", .sizeOf r.name)] else []
  ⟨instanceName b r.name, kindName b, ("id", .enumIndex (enumName b) r.name) :: sizes⟩

def invalidInstance (b : Bucket) : InstanceDecl :=
  let sizes := if b.isStructured then [("size", Value.uint 0), ("stride", .uint 0)] else []
  ⟨invalidName b, kindName b, ("id", .maxUInt32) :: sizes⟩

/-- Resource names and their instances, in the order of the ids. -/
def tableEntries (t : ResourceTable) : List (String × String) :=
  t.entries.map fun r => (r.name, instanceName t.bucket r.name)

def idTable (t : ResourceTable) : TableDecl :=
  ⟨idTableName t.bucket, kindName t.bucket, .byId, tableEntries t, "Get" ++ kindName t.bucket,
    invalidName t.bucket⟩

def nameTable (t : ResourceTable) : TableDecl :=
  ⟨nameTableName t.bucket, kindName t.bucket, .byName, tableEntries t,
    "Get" ++ kindName t.bucket ++ "ByName", invalidName t.bucket⟩

def bucketFile (t : ResourceTable) (structs : List StructDecl) : File :=
  let b := t.bucket
  let structured := if b.isStructured then
    structs.map Item.struct ++ t.entries.map fun r => .wrapper (wrapper r) else []
  let instances := t.entries.flatMap fun r =>
    [.comment (summary r), .instance_ (resourceInstance b r)]
  ⟨kindName b, false,
    [.std "cstdint", .std "array", .std "string_view", .std "unordered_map", .sibling typesFile],
    .enum ⟨enumName b, t.entries.map (·.name)⟩ :: .struct (kindStruct b) :: structured ++ instances ++
      [.instance_ (invalidInstance b), .table (idTable t), .table (nameTable t)]⟩

def umbrella (g : Registry) : File :=
  ⟨umbrellaFile, true,
    .sibling typesFile :: Bucket.all.map fun b => .sibling (kindName b),
    [.comment (s!"Binding metadata for {g.resourceCount} resource(s) of {g.shaders} shader(s) " ++
      s!"across {Bucket.all.length} bucket(s)")]⟩

/-- The metadata files of a registry. Resource names must not be reserved, structured resources must
have names of their own, and every layout must have a plain struct. -/
def files (g : Registry) : Except Error (List File) := do
  checkNames g
  let (structs, nested) ← tableStructs g.tables []
  match structs.flatten.find? fun d => nested.any (·.name == d.name) with
  | some d => refuse (FileError.structName d.name)
  | none =>
    return typesFileOf nested :: List.zipWith bucketFile g.tables structs ++ [umbrella g]

def filesLogged (g : Registry) : Logged (List File) := do
  let fs ← Logged.attempt (files g)
  Logged.note .debug .generator s!"Generated {fs.length} metadata file(s)"
  return fs

def filesOfReflection (x : Reflection) : Except Error (List File) := do
  files (← Registry.empty.add x)

def filesOfReflectionLogged (x : Reflection) : Logged (List File) := do
  filesLogged (← Registry.empty.addLogged x)

end ShaderBuild.Metadata
