import Mathlib.Data.List.DropRight
import ShaderBuild.Code.Cpp
import ShaderBuild.Proofs.Code.Escaping
import ShaderBuild.Proofs.Code.FieldBytes

namespace ShaderBuild.Code

open Text (takeWhile_before dropWhile_before)

section Numbers

def digits (d : UInt32) : List Char := Nat.toDigits 10 d.toNat

def number? (cs : List Char) : Option Nat :=
  if cs ≠ [] ∧ cs.all Char.isDigit then some (Nat.ofDigitChars 10 cs 0) else none

theorem toList_toString (d : UInt32) : (toString d).toList = digits d := by
  show (toString d.toNat).toList = _
  rw [Nat.toString_eq_ofList_toDigits, String.toList_ofList, digits]

theorem isDigit_of_mem_digits {d : UInt32} {c : Char} (h : c ∈ digits d) : c.isDigit :=
  Nat.isDigit_of_mem_toDigits (by decide) (by decide) h

theorem number?_toDigits (n : Nat) : number? (Nat.toDigits 10 n) = some n := by
  have hall : (Nat.toDigits 10 n).all Char.isDigit :=
    List.all_eq_true.2 fun c => Nat.isDigit_of_mem_toDigits (by decide) (by decide)
  rw [number?, if_pos ⟨Nat.toDigits_ne_nil, hall⟩, Nat.ofDigitChars_ten_toDigits]

end Numbers

namespace Cpp

end Cpp

namespace Rust

/-- Reads a type: its base, the lengths of its arrays from the outermost inwards, and what stands
behind it. -/
def readType : List Char → Option ((String × List Nat) × List Char)
  | '[' :: cs => do
    let ((base, dims), rest) ← readType cs
    match rest with
    | ';' :: ' ' :: cs =>
      let n ← number? (cs.takeWhile (· != ']'))
      match cs.dropWhile (· != ']') with
      | ']' :: rest => return ((base, n :: dims), rest)
      | _ => none
    | _ => none
  | cs => return ((.ofList (cs.takeWhile (· != ';')), []), cs.dropWhile (· != ';'))

def nested (base : String) (ds : List UInt32) : String :=
  ds.foldr (fun d inner => s!"[{inner}; {d}]") base

end Rust

section Shape

/-- Numbers and structs, which fields of shader data have, the structs under names that hold no mark
of an array type. -/
def FieldType.Legible : FieldType → Prop
  | .named n => '[' ∉ n.toList ∧ ';' ∉ n.toList
  | .str | .bytes | .enum _ => False
  | _ => True

structure Field.Legible (f : Field) : Prop where
  type : f.type.Legible
  name : '[' ∉ f.name.toList ∧ ' ' ∉ f.name.toList

def FieldType.dimensions : FieldType → List UInt32
  | .vector _ n => [n]
  | .matrix _ n m => [n, m]
  | _ => []

theorem FieldType.Legible.base {t : FieldType} (h : t.Legible) :
    '[' ∉ (Cpp.baseType t).1.toList ∧ '[' ∉ (Rust.baseType t).1.toList ∧
      ';' ∉ (Rust.baseType t).1.toList := by
  have hscalar (k : ScalarKind) : '[' ∉ (Cpp.scalarType k).toList ∧
      '[' ∉ (Rust.scalarType k).toList ∧ ';' ∉ (Rust.scalarType k).toList := by
    cases k <;> decide
  cases t with
  | scalar k | vector k | matrix k => exact hscalar k
  | uint32 => exact ⟨by decide, by decide, by decide⟩
  | named n => exact ⟨h.1, Rust.plain_ident h.1 (by decide), Rust.plain_ident h.2 (by decide)⟩
  | str | bytes | enum n => exact h.elim

end Shape

end ShaderBuild.Code
