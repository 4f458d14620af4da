import ShaderBuild.Bytecode.Binary
import ShaderBuild.Text.Utf8

namespace ShaderBuild.Spirv

structure Instruction where
  opcode : UInt32
  operands : List UInt32
deriving DecidableEq, Repr, Inhabited

def headerLength : Nat := 5

inductive Ending
  | complete | truncated | zeroLength
deriving DecidableEq, Repr, Inhabited

/-- The instructions that words hold, and how they end. -/
def cut : List UInt32 → List Instruction × Ending
  | [] => ([], .complete)
  | w :: r =>
    let length := (w >>> 16).toNat
    if length = 0 then ([], .zeroLength)
    else if r.length + 1 < length then ([], .truncated)
    else
      let (rest, ending) := cut (r.drop (length - 1))
      (⟨w &&& 0xffff, r.take (length - 1)⟩ :: rest, ending)
termination_by ws => ws.length
decreasing_by simp only [List.length_drop, List.length_cons]; omega

inductive Fault
  | zeroLength
  | missingOperand (opcode : UInt32)
  | unreadableText (opcode : UInt32)
  | unknownValue (of : String) (value : UInt32)
  | taken (of : String) (id : UInt32)
  | undefined (of : String) (id : UInt32)
  | unfit (of : String) (id : UInt32)
  | misplaced (opcode : UInt32)
deriving DecidableEq, Repr

namespace Fault

def message : Fault → String
  | zeroLength => "instruction of length zero"
  | missingOperand o => s!"opcode {o} lacks an operand"
  | unreadableText o => s!"opcode {o} has unreadable text"
  | unknownValue what v => s!"unknown {what} {v}"
  | taken what id => s!"{what} {id} is defined twice"
  | undefined what id => s!"{what} {id} is not defined"
  | unfit what id => s!"{what} {id} does not fit here"
  | misplaced o => s!"opcode {o} is out of place"

end Fault

/-- The text at the front of words. Its last word is the first that ends in a zero byte; of the bytes
up to there those before the first zero byte count. -/
def text? (words : List UInt32) : Option String :=
  match words.span fun (w : UInt32) => w >>> 24 != 0 with
  | (_, []) => none
  | (front, last :: _) =>
    Text.Utf8.decode? ((bytesOfWords (front ++ [last])).takeWhile (· != 0))

namespace Instruction

def word (i : Instruction) (position : Nat) : Except Fault UInt32 :=
  match i.operands[position]? with
  | some w => .ok w
  | none => .error (.missingOperand i.opcode)

def text (i : Instruction) (position : Nat) : Except Fault String :=
  match text? (i.operands.drop position) with
  | some s => .ok s
  | none => .error (.unreadableText i.opcode)

end Instruction

end ShaderBuild.Spirv
