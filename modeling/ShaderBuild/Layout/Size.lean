import ShaderBuild.Error
import ShaderBuild.Layout.MemberType

namespace ShaderBuild

namespace Word

def add? (a b : UInt32) : Option UInt32 :=
  if a.toNat + b.toNat < UInt32.size then some (a + b) else none

def mul? (a b : UInt32) : Option UInt32 :=
  if a.toNat * b.toNat < UInt32.size then some (a * b) else none

theorem add?_eq_some_iff {a b c : UInt32} : add? a b = some c ↔ c.toNat = a.toNat + b.toNat := by
  have hc := c.toNat_lt_size
  unfold add?
  split
  · next h =>
    rw [Option.some.injEq, ← UInt32.toNat_inj, UInt32.toNat_add, Nat.mod_eq_of_lt h]
    exact eq_comm
  · next h => simp only [reduceCtorEq, false_iff]; omega

theorem mul?_eq_some_iff {a b c : UInt32} : mul? a b = some c ↔ c.toNat = a.toNat * b.toNat := by
  have hc := c.toNat_lt_size
  unfold mul?
  split
  · next h =>
    rw [Option.some.injEq, ← UInt32.toNat_inj, UInt32.toNat_mul, Nat.mod_eq_of_lt h]
    exact eq_comm
  · next h => simp only [reduceCtorEq, false_iff]; omega

end Word

inductive LayoutError
  | sizeOverflow (type : MemberType)
  | endOverflow (member : String) (offset : UInt32)

namespace LayoutError

def message : LayoutError → String
  | sizeOverflow t => s!"size of {t.outline} overflows 32 bits"
  | endOverflow n o => s!"member '{n}' at offset {o} ends past 4 GiB"

def toError (e : LayoutError) : Error := ⟨.reflection, .reflection, e.message⟩

instance : Coe LayoutError Error := ⟨toError⟩

end LayoutError

mutual
/-- A runtime array counts as one element. -/
def MemberType.packedSize : MemberType → Except Error UInt32
  | .scalar k => .ok k.width
  | .vector k n => need (Word.mul? k.width n) (LayoutError.sizeOverflow (.vector k n))
  | .matrix k n m =>
    need ((Word.mul? k.width n).bind (Word.mul? · m)) (LayoutError.sizeOverflow (.matrix k n m))
  | .array e count stride => do
    let each ← match stride with
      | some s => pure s
      | none => e.packedSize
    need (Word.mul? each (count.getD 1)) (LayoutError.sizeOverflow (.array e count stride))
  | .struct _ ms => extent ms
/-- End of the last member, zero when there are none. -/
def extent : List Member → Except Error UInt32
  | [] => .ok 0
  | ⟨n, o, t⟩ :: r => do
    let size ← t.packedSize
    let stop ← need (Word.add? o size) (LayoutError.endOverflow n o)
    let rest ← extent r
    return max stop rest
end

structure BufferLayout where
  typeName : String
  size : UInt32
  members : List Member
deriving DecidableEq, Repr, Inhabited

namespace BufferLayout

def ofMembers (typeName : String) (members : List Member) : Except Error BufferLayout := do
  let size ← extent members
  return ⟨typeName, size, members⟩

/-- The element of a buffer whose only member is a runtime array of structs, at least as long as
the stride of the array. -/
def runtimeArrayElement (l : BufferLayout) : Except Error (Option BufferLayout) :=
  match l.members with
  | [⟨_, _, .array (.struct name members) none stride⟩] => do
    let element ← ofMembers name members
    return some { element with size := max element.size (stride.getD 0) }
  | _ => .ok none

/-- What metadata describes: the element where there is one, else the whole. -/
def element (l : BufferLayout) : Except Error BufferLayout := do
  return (← l.runtimeArrayElement).getD l

end BufferLayout

end ShaderBuild
