import ShaderBuild.Spirv.Globals

namespace ShaderBuild.Spirv

structure EntryPoint where
  model : UInt32
  function : UInt32
  name : String
deriving DecidableEq, Repr, Inhabited

structure Module where
  entryPoints : List EntryPoint
  descriptors : List Descriptor
deriving Repr, Inhabited

namespace Module

def readImports (seen : List UInt32) (i : Instruction) : Except Fault (List UInt32) := do
  let id ← i.word 0
  let _ ← i.text 1
  if seen.contains id then throw (.taken "instruction set" id)
  return id :: seen

def checkMemoryModel (i : Instruction) : Except Fault Unit := do
  let addressing ← i.word 0
  let memory ← i.word 1
  if addressing ≠ 0 ∧ addressing ≠ 5348 then throw (.unknownValue "addressing model" addressing)
  if memory ≠ 1 ∧ memory ≠ 3 then throw (.unknownValue "memory model" memory)

def readEntryPoint (entries : List EntryPoint) (i : Instruction) :
    Except Fault (List EntryPoint) := do
  let e : EntryPoint := ⟨← i.word 0, ← i.word 1, ← i.text 2⟩
  if (ExecutionModel.name? e.model).isNone then throw (.unknownValue "execution model" e.model)
  if entries.any (·.function == e.function) then throw (.taken "entry point" e.function)
  return entries ++ [e]

def checkExecutionMode (entries : List EntryPoint) (i : Instruction) : Except Fault Unit := do
  let function ← i.word 0
  let mode ← i.word 1
  if !ExecutionMode.isKnown mode then throw (.unknownValue "execution mode" mode)
  if !entries.any (·.function == function) then throw (.undefined "entry point" function)

/-- Operands of modes that are given by id must be constants. -/
def checkModeOperands (g : Globals) (i : Instruction) : Except Fault Unit := do
  if i.opcode = Opcode.executionModeById then
    for id in i.operands.drop 2 do
      if (g.constants.lookup id).isNone then throw (.undefined "constant" id)

/-- How far the reading of functions has come. -/
structure Functions where
  /-- The function that is open. One that starts before it has ended replaces it. -/
  current : Option UInt32 := none
  defined : List UInt32 := []
  chains : List UInt32 := []

/-- Take up an instruction inside a function. Only what goes through a pointer or into another function
is looked at. -/
def readBody (f : Functions) (i : Instruction) : Except Fault Functions := do
  if i.opcode = Opcode.functionCall ∨ Opcode.reads i.opcode then
    let _ ← i.word 2
    return f
  else if Opcode.writes i.opcode then
    let _ ← i.word 0
    return f
  else if i.opcode = Opcode.accessChain then
    let id ← i.word 1
    let _ ← i.word 2
    if f.chains.contains id then throw (.taken "access chain" id)
    return { f with chains := id :: f.chains }
  else return f

def readFunction (f : Functions) (i : Instruction) : Except Fault Functions := do
  if i.opcode = Opcode.function then
    return { f with current := some (← i.word 1) }
  match f.current with
  | none =>
    if i.opcode = Opcode.line ∨ i.opcode = Opcode.noLine then return f
    throw (.misplaced i.opcode)
  | some id =>
    if i.opcode = Opcode.functionEnd then
      if f.defined.contains id then throw (.taken "function" id)
      return { f with current := none, defined := id :: f.defined }
    readBody f i

def ofInstructions (instructions : List Instruction) : Except Fault Module := do
  -- the sections of a module come in a fixed order, each up to the first instruction of another
  let (_, rest) := instructions.span (·.opcode == Opcode.capability)
  let (_, rest) := rest.span (·.opcode == Opcode.extension)
  let (imports, rest) := rest.span (·.opcode == Opcode.instructionSet)
  let _ ← imports.foldlM readImports []
  let rest ← match rest with
    | i :: r => if i.opcode = Opcode.memoryModel then do checkMemoryModel i; pure r else pure rest
    | [] => pure []
  let (entries, rest) := rest.span (·.opcode == Opcode.entryPoint)
  let entries ← entries.foldlM readEntryPoint []
  let (modes, rest) := rest.span fun i =>
    i.opcode == Opcode.executionMode || i.opcode == Opcode.executionModeById
  modes.forM (checkExecutionMode entries)
  let (debug, rest) := rest.span (Opcode.isDebug ·.opcode)
  let (marks, rest) := rest.span (Opcode.isAnnotation ·.opcode)
  let annotations ← (debug ++ marks).foldlM Annotations.read {}
  let (globals, functions) := rest.span (Opcode.isGlobal ·.opcode)
  let globals ← globals.foldlM (Globals.read annotations) {}
  let _ ← functions.foldlM readFunction {}
  modes.forM (checkModeOperands globals)
  return ⟨entries, globals.descriptors⟩

def ofWords (words : List UInt32) : Except Fault Module :=
  match cut (words.drop headerLength) with
  | (_, .zeroLength) => .error .zeroLength
  | (instructions, _) => ofInstructions instructions

end Module

end ShaderBuild.Spirv
