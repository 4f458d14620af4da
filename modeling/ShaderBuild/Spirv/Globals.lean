import ShaderBuild.Spirv.Descriptor

namespace ShaderBuild.Spirv

/-- A number with the scalar type it is of, or a truth value, which has no words. -/
structure Constant where
  type : Scalar
  words : List UInt32
deriving DecidableEq, Repr, Inhabited

namespace Constant

def fits : Scalar → Nat → Bool
  | .bool, _ => true
  | .int 8 _, n | .int 16 _, n | .int 32 _, n | .float 16, n | .float 32, n => n == 1
  | .int 64 _, n | .float 64, n => n == 2
  | _, _ => false

def truth : Constant := ⟨.bool, []⟩

/-- A constant as the length of an array: a positive 32-bit integer. -/
def length? : Constant → Option UInt32
  | ⟨.int 32 signed, [n]⟩ => if n = 0 ∨ signed ∧ 0x80000000 ≤ n then none else some n
  | _ => none

end Constant

structure Globals where
  /-- Of several types of one id the last counts: a pointer takes the place of its announcement. -/
  types : List (UInt32 × DataType) := []
  constants : List (UInt32 × Constant) := []
  vars : List (UInt32 × Option Descriptor) := []
  blockArrays : List UInt32 := []
deriving Repr, Inhabited

namespace Globals

def type? (g : Globals) (id : UInt32) : Option DataType := g.types.lookup id

/-- Define a type, once. An announced pointer is not yet defined. -/
def defineType (g : Globals) (id : UInt32) (t : DataType) : Except Fault Globals :=
  match g.type? id with
  | none | some .deviceAddress => .ok { g with types := (id, t) :: g.types }
  | some _ => .error (.taken "type" id)

def defineConstant (g : Globals) (id : UInt32) (c : Constant) : Except Fault Globals :=
  if (g.constants.lookup id).isSome then .error (.taken "constant" id)
  else .ok { g with constants := g.constants ++ [(id, c)] }

/-- Whether a type is a storage block of the older form, or an array of such. -/
def isBlock (g : Globals) (a : Annotations) (id : UInt32) : Bool :=
  a.has ⟨id, none⟩ Decoration.bufferBlock || g.blockArrays.contains id

def scalar (g : Globals) (id : UInt32) : Except Fault Scalar :=
  match g.type? id with
  | some (.scalar s) => .ok s
  | some _ => .error (.unfit "type" id)
  | none => .error (.undefined "type" id)

def fields (g : Globals) (a : Annotations) (struct position : UInt32) :
    List UInt32 → Except Fault (Option (List (Field DataType)))
  | [] => .ok (some [])
  | id :: r =>
    match g.type? id with
    | none => .ok none
    | some t => do
      let here : Target := ⟨struct, some position⟩
      let order := if a.has here Decoration.rowMajor then some MatrixOrder.rowMajor
        else if a.has here Decoration.columnMajor then some .columnMajor else none
      let access ←
        match a.has here Decoration.nonWritable, a.has here Decoration.nonReadable with
        | false, false => pure Access.readWrite
        | true, false => pure .readOnly
        | false, true => pure .writeOnly
        | true, true => .error (.unfit "member of" struct)
      let field : Field DataType :=
        ⟨a.name? here, a.operand? here Decoration.offset, access,
          t.arrangeMatrix order (a.operand? here Decoration.matrixStride)⟩
      return (← fields g a struct (position + 1) r).map (field :: ·)

def imageType (g : Globals) (i : Instruction) : Except Fault DataType := do
  let _ ← g.scalar (← i.word 1)
  let dim ← i.word 2
  let depth ← i.word 3
  let _ ← i.word 4
  let _ ← i.word 5
  let sampled ← i.word 6
  let format ← i.word 7
  if !Image.isKnownDim dim then throw (.unknownValue "dimension" dim)
  if Image.lastFormat < format then throw (.unknownValue "format" format)
  if dim = Image.attachmentDim then return .image .attachment false
  if 2 < depth then throw (.unknownValue "depth" depth)
  if 2 < sampled then throw (.unknownValue "use" sampled)
  return .image (if sampled = 2 then .storage else .sampled) (dim == Image.bufferDim)

/-- Take up the definition of a type. -/
def readType (g : Globals) (a : Annotations) (i : Instruction) : Except Fault Globals := do
  match i.opcode.toNat with
  | 33 => return g
  | 19 => g.defineType (← i.word 0) (.scalar .void)
  | 20 => g.defineType (← i.word 0) (.scalar .bool)
  | 21 => g.defineType (← i.word 0) (.scalar (.int (← i.word 1) ((← i.word 2) != 0)))
  | 22 => g.defineType (← i.word 0) (.scalar (.float (← i.word 1)))
  | 23 =>
    let component ← g.scalar (← i.word 1)
    g.defineType (← i.word 0) (.vector component (← i.word 2))
  | 24 =>
    let column ← i.word 1
    match g.type? column with
    | some (.vector s size) => g.defineType (← i.word 0) (.matrix s (← i.word 2) size none none)
    | some _ => throw (.unfit "type" column)
    | none => throw (.undefined "type" column)
  | 25 => g.defineType (← i.word 0) (← g.imageType i)
  | 26 => g.defineType (← i.word 0) .sampler
  | 27 =>
    let image ← i.word 1
    match g.type? image with
    | some (.image .sampled buffer) => g.defineType (← i.word 0) (.sampledImage buffer)
    | some _ => throw (.unfit "type" image)
    | none => throw (.undefined "type" image)
  | 28 =>
    let id ← i.word 0
    let element ← i.word 1
    let length ← i.word 2
    -- whether the elements are blocks is kept also where the array itself stays undefined
    let g := if g.isBlock a element then { g with blockArrays := id :: g.blockArrays } else g
    match g.type? element with
    | none => return g
    | some t =>
      match (g.constants.lookup length).bind (·.length?) with
      | none => throw (.unfit "array length" length)
      | some n =>
        g.defineType id (.array t (some n) (a.operand? ⟨id, none⟩ Decoration.arrayStride))
  | 29 =>
    let id ← i.word 0
    match g.type? (← i.word 1) with
    | none => return g
    | some t =>
      g.defineType id (.array t none (a.operand? ⟨id, none⟩ Decoration.arrayStride))
  | 30 =>
    let id ← i.word 0
    match ← g.fields a id 0 (i.operands.drop 1) with
    | none => return g
    | some members => g.defineType id (.struct (a.name? ⟨id, none⟩) members)
  | 32 =>
    let id ← i.word 0
    let storage ← i.word 1
    let pointee ← i.word 2
    if !StorageClass.isKnown storage then throw (.unknownValue "storage class" storage)
    match g.type? pointee with
    | none => return g
    | some t =>
      let storage := if storage = StorageClass.uniform ∧ g.isBlock a pointee
        then StorageClass.storageBuffer else storage
      g.defineType id (.pointer storage t)
  | 39 =>
    let storage ← i.word 1
    if !StorageClass.isKnown storage then throw (.unknownValue "storage class" storage)
    g.defineType (← i.word 0) .deviceAddress
  | 4472 => g.defineType (← i.word 0) .rayQuery
  | 5341 => g.defineType (← i.word 0) .accelerationStructure
  | _ => throw (.misplaced i.opcode)

/-- Take up the definition of a constant. Of a truth value any known type will do. One that may be
specialised needs the number it is specialised by; composite constants are no lengths and are passed
over. -/
def readConstant (g : Globals) (a : Annotations) (i : Instruction) : Except Fault Globals := do
  let known (id : UInt32) : Except Fault Unit :=
    if (g.type? id).isSome then .ok () else .error (.undefined "type" id)
  let specialised (id : UInt32) : Except Fault Unit :=
    if (a.operand? ⟨id, none⟩ Decoration.specId).isSome then .ok ()
    else .error (.undefined "specialisation of" id)
  match i.opcode.toNat with
  | 41 | 42 =>
    known (← i.word 0)
    g.defineConstant (← i.word 1) .truth
  | 48 | 49 =>
    known (← i.word 0)
    specialised (← i.word 1)
    g.defineConstant (← i.word 1) .truth
  | 43 | 50 =>
    let type ← g.scalar (← i.word 0)
    let id ← i.word 1
    let words := i.operands.drop 2
    if !Constant.fits type words.length then throw (.unfit "constant" id)
    if i.opcode = 50 then specialised id
    g.defineConstant id ⟨type, words⟩
  | _ => return g

def readVariable (g : Globals) (a : Annotations) (i : Instruction) : Except Fault Globals := do
  let type ← i.word 0
  let id ← i.word 1
  let storage ← i.word 2
  if !StorageClass.isKnown storage then throw (.unknownValue "storage class" storage)
  match g.type? type with
  | none => return g
  | some (.pointer storage t) =>
    if (g.vars.lookup id).isSome then throw (.taken "variable" id)
    return { g with vars := g.vars ++ [(id, Descriptor.ofVariable? a id storage t)] }
  | some _ => throw (.unfit "type" type)

def read (a : Annotations) (g : Globals) (i : Instruction) : Except Fault Globals :=
  if Opcode.isType i.opcode then g.readType a i
  else if Opcode.isConstant i.opcode then g.readConstant a i
  else if i.opcode = Opcode.bindVariable then g.readVariable a i
  else .ok g

def descriptors (g : Globals) : List Descriptor :=
  (g.vars.mergeSort fun x y => x.1 ≤ y.1).filterMap (·.2)

end Globals

end ShaderBuild.Spirv
