import ShaderBuild.Layout.Scalar
import ShaderBuild.Text.Quoted

namespace ShaderBuild

structure Placed (α : Type) where
  name : String
  offset : UInt32
  type : α
deriving DecidableEq, Repr, Inhabited

inductive MemberType
  | scalar (kind : ScalarKind)
  | vector (kind : ScalarKind) (size : UInt32)
  | matrix (kind : ScalarKind) (vectors size : UInt32)
  /-- A runtime array has no count. -/
  | array (element : MemberType) (count stride : Option UInt32)
  | struct (name : String) (members : List (Placed MemberType))
deriving Repr, Inhabited

abbrev Member := Placed MemberType

namespace MemberType

mutual
def decEq : (a b : MemberType) → Decidable (a = b)
  | .scalar a, .scalar b =>
    if h : a = b then isTrue (by rw [h]) else isFalse (by simp [h])
  | .vector a n, .vector b m =>
    if h : a = b ∧ n = m then isTrue (by rw [h.1, h.2]) else isFalse (by simpa using h)
  | .matrix a n k, .matrix b m l =>
    if h : a = b ∧ n = m ∧ k = l then isTrue (by rw [h.1, h.2.1, h.2.2])
    else isFalse (by simpa using h)
  | .array a n k, .array b m l =>
    match decEq a b with
    | isTrue ha =>
      if h : n = m ∧ k = l then isTrue (by rw [ha, h.1, h.2])
      else isFalse (by intro e; cases e; exact h ⟨rfl, rfl⟩)
    | isFalse ha => isFalse (by intro e; cases e; exact ha rfl)
  | .struct a ms, .struct b ns =>
    match decEqMembers ms ns with
    | isTrue hm => if h : a = b then isTrue (by rw [h, hm]) else isFalse (by simp [h])
    | isFalse hm => isFalse (by simp [hm])
  | .scalar _, .vector .. | .scalar _, .matrix .. | .scalar _, .array .. | .scalar _, .struct ..
  | .vector .., .scalar _ | .vector .., .matrix .. | .vector .., .array .. | .vector .., .struct ..
  | .matrix .., .scalar _ | .matrix .., .vector .. | .matrix .., .array .. | .matrix .., .struct ..
  | .array .., .scalar _ | .array .., .vector .. | .array .., .matrix .. | .array .., .struct ..
  | .struct .., .scalar _ | .struct .., .vector .. | .struct .., .matrix .. | .struct .., .array .. =>
    isFalse (by simp)
def decEqMembers : (ms ns : List Member) → Decidable (ms = ns)
  | [], [] => isTrue rfl
  | [], _ :: _ => isFalse (by simp)
  | _ :: _, [] => isFalse (by simp)
  | ⟨a, o, t⟩ :: ms, ⟨b, p, u⟩ :: ns =>
    match decEq t u, decEqMembers ms ns with
    | isTrue ht, isTrue hm =>
      if h : a = b ∧ o = p then isTrue (by rw [h.1, h.2, ht, hm])
      else isFalse (by intro e; cases e; exact h ⟨rfl, rfl⟩)
    | isFalse ht, _ => isFalse (by intro e; cases e; exact ht rfl)
    | _, isFalse hm => isFalse (by intro e; cases e; exact hm rfl)
end

instance : DecidableEq MemberType := decEq

def optionOutline : Option UInt32 → String
  | none => "None"
  | some n => s!"Some({n})"

mutual
/-- A type as error messages show it: every constructor with its named parts. -/
def outline : MemberType → String
  | .scalar k => s!"Scalar({k.name})"
  | .vector k n => s!"Vector \x7b scalar: {k.name}, size: {n} \x7d"
  | .matrix k n m => s!"Matrix \x7b scalar: {k.name}, vector_count: {n}, vector_size: {m} \x7d"
  | .array e c s =>
    s!"Array \x7b element: {outline e}, count: {optionOutline c}, stride: {optionOutline s} \x7d"
  | .struct n ms =>
    s!"Struct \x7b name: {Text.quoted n}, members: [" ++ ", ".intercalate (memberOutlines ms) ++ "] \x7d"
def memberOutlines : List Member → List String
  | [] => []
  | ⟨n, o, t⟩ :: r =>
    s!"ReflectedMember \x7b name: {Text.quoted n}, offset: {o}, member_type: {outline t} \x7d" ::
      memberOutlines r
end

end MemberType

end ShaderBuild
