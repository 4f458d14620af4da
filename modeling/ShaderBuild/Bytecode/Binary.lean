import ShaderBuild.Bytecode.Digest
import ShaderBuild.Error
import ShaderBuild.Stage
import ShaderBuild.Text.Hex

namespace ShaderBuild

def spirvMagic : UInt32 := 0x07230203

inductive BytecodeError
  | empty (entryPoint : String) (stage : Stage)
  | misaligned (size : Nat)
  | noWords
  | wrongMagic (word : UInt32)

namespace BytecodeError

def message : BytecodeError → String
  | empty e s => s!"backend produced empty bytecode for entry point '{e}' ({s.name})"
  | misaligned n => s!"SPIR-V size {n} is not a multiple of 4"
  | noWords => "SPIR-V module is empty"
  | wrongMagic w => "not a SPIR-V module (magic 0x" ++ Text.hex 8 w.toNat ++ ")"

def toError : BytecodeError → Error
  | e@(empty ..) => ⟨.compilation, .bytecode, e.message⟩
  | e => ⟨.reflection, .bytecode, e.message⟩

instance : Coe BytecodeError Error := ⟨toError⟩

end BytecodeError

def wordOfBytes (a b c d : UInt8) : UInt32 :=
  a.toUInt32 ||| b.toUInt32 <<< 8 ||| c.toUInt32 <<< 16 ||| d.toUInt32 <<< 24

def bytesOfWord (w : UInt32) : List UInt8 :=
  [w.toUInt8, (w >>> 8).toUInt8, (w >>> 16).toUInt8, (w >>> 24).toUInt8]

def words? : List UInt8 → Option (List UInt32)
  | [] => some []
  | a :: b :: c :: d :: r => (words? r).map (wordOfBytes a b c d :: ·)
  | _ => none

def bytesOfWords (ws : List UInt32) : List UInt8 := ws.flatMap bytesOfWord

def startsWithMagic : List UInt8 → Bool
  | a :: b :: c :: d :: _ => wordOfBytes a b c d == spirvMagic
  | _ => false

def spirvWords (bytes : List UInt8) : Except Error (List UInt32) :=
  match words? bytes with
  | none => refuse (BytecodeError.misaligned bytes.length)
  | some [] => refuse BytecodeError.noWords
  | some (w :: ws) =>
    if w = spirvMagic then .ok (w :: ws) else refuse (BytecodeError.wrongMagic w)

/-- A compiled shader, which has at least one byte. -/
structure Bytecode where
  bytes : List UInt8
  entryPoint : String
  stage : Stage
deriving DecidableEq, Repr, Inhabited

namespace Bytecode

def ofBytes (bytes : List UInt8) (entryPoint : String) (stage : Stage) : Except Error Bytecode :=
  if bytes.isEmpty then refuse (BytecodeError.empty entryPoint stage)
  else .ok ⟨bytes, entryPoint, stage⟩

def size (b : Bytecode) : Nat := b.bytes.length

def digest (b : Bytecode) : UInt64 := Digest.digest b.bytes

def isSpirv (b : Bytecode) : Bool := startsWithMagic b.bytes

def words (b : Bytecode) : Except Error (List UInt32) := spirvWords b.bytes

end Bytecode

end ShaderBuild
