import ShaderBuild.Spirv.Instruction
import ShaderBuild.Spirv.Vocabulary

namespace ShaderBuild.Spirv

structure Target where
  id : UInt32
  member : Option UInt32 := none
deriving DecidableEq, Repr, Inhabited

structure Annotations where
  names : List (Target × String) := []
  decorations : List ((Target × UInt32) × List UInt32) := []
deriving Repr, Inhabited

namespace Annotations

def name? (a : Annotations) (t : Target) : Option String := a.names.lookup t

def has (a : Annotations) (t : Target) (kind : UInt32) : Bool :=
  (a.decorations.lookup (t, kind)).isSome

def operand? (a : Annotations) (t : Target) (kind : UInt32) : Option UInt32 :=
  (a.decorations.lookup (t, kind)).bind (·.head?)

def addName (a : Annotations) (t : Target) (name : String) : Annotations :=
  if name = "" then a else { a with names := a.names ++ [(t, name)] }

def decorate (a : Annotations) (t : Target) (kind : UInt32) (operands : List UInt32) :
    Except Fault Annotations :=
  if !Decoration.isKnown kind then .error (.unknownValue "decoration" kind)
  else if a.has t kind then .error (.taken "decoration of" t.id)
  else .ok { a with decorations := a.decorations ++ [((t, kind), operands)] }

def read (a : Annotations) (i : Instruction) : Except Fault Annotations :=
  if i.opcode = Opcode.name then do
    return a.addName ⟨← i.word 0, none⟩ (← i.text 1)
  else if i.opcode = Opcode.memberName then do
    return a.addName ⟨← i.word 0, some (← i.word 1)⟩ (← i.text 2)
  else if i.opcode = Opcode.decorate then do
    a.decorate ⟨← i.word 0, none⟩ (← i.word 1) (i.operands.drop 2)
  else if i.opcode = Opcode.memberDecorate then do
    a.decorate ⟨← i.word 0, some (← i.word 1)⟩ (← i.word 2) (i.operands.drop 3)
  else .ok a

end Annotations

end ShaderBuild.Spirv
