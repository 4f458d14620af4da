import ShaderBuild.Proofs.Layout.Bytes
import ShaderBuild.Proofs.Reflection.Listing
import ShaderBuild.Proofs.Spirv.Buffers

namespace ShaderBuild

namespace Spirv

def Scalar.declared? : Scalar → Option Nat
  | .bool => some 4
  | .int bits _ | .float bits => some (bits.toNat / 8)
  | .void => none

mutual
/-- The bytes a type spans where its module places all of it: numbers, matrices by columns, arrays
with a stride, of which one element counts where there is no length, and structs of such. -/
def DataType.declared? : DataType → Option Nat
  | .scalar k => k.declared?
  | .vector k n => k.declared?.map (· * n.toNat)
  | .matrix k n m (some .columnMajor) (some stride) =>
    k.declared?.map fun w => (n.toNat - 1) * stride.toNat + w * m.toNat
  | .array _ count (some stride) => some (stride.toNat * (count.getD 1).toNat)
  | .struct _ fields => declaredEnd? fields
  | _ => none
def declaredEnd? : List (Field DataType) → Option Nat
  | [] => some 0
  | ⟨_, some offset, _, type⟩ :: r => do
    return max (offset.toNat + (← type.declared?)) (← declaredEnd? r)
  | ⟨_, none, _, _⟩ :: _ => none
end

def Scalar.kept : Scalar → Nat
  | .int 64 _ | .float 64 => 8
  | .float 16 => 2
  | _ => 4

mutual
/-- The bytes that a reflection takes a type for. -/
def DataType.kept : DataType → Nat
  | .scalar k => k.kept
  | .vector k n => k.kept * n.toNat
  | .matrix k n m _ _ => k.kept * n.toNat * m.toNat
  | .array _ count (some stride) => stride.toNat * (count.getD 1).toNat
  | .array e count none => e.kept * (count.getD 1).toNat
  | .struct _ fields => keptEnd fields
  | _ => 4
def keptEnd : List (Field DataType) → Nat
  | [] => 0
  | ⟨_, offset, _, type⟩ :: r => max ((offset.getD 0).toNat + type.kept) (keptEnd r)
end

def Scalar.isFaithful : Scalar → Bool
  | .bool | .int 32 _ | .int 64 _ | .float 16 | .float 32 | .float 64 => true
  | _ => false

mutual
/-- Whether nothing is dropped of a type that its bytes depend on: the columns of a matrix follow one
another without a gap, if there is more than one. -/
def DataType.isFaithful : DataType → Bool
  | .scalar k | .vector k _ => k.isFaithful
  | .matrix k n m _ stride =>
    k.isFaithful && (n == 1 || n != 0 && stride.all (·.toNat == k.kept * m.toNat))
  | .struct _ fields => areFaithful fields
  | _ => true
def areFaithful : List (Field DataType) → Bool
  | [] => true
  | ⟨_, _, _, type⟩ :: r => type.isFaithful && areFaithful r
end

theorem Scalar.declared?_of_faithful {k : Scalar} (h : k.isFaithful) :
    k.declared? = some k.kept := by
  unfold isFaithful at h
  split at h
  case h_7 => cases h
  all_goals rfl

theorem packed_of_stride {vectors stride : UInt32} {bytes : Nat}
    (h : vectors = 1 ∨ vectors ≠ 0 ∧ stride.toNat = bytes) :
    (vectors.toNat - 1) * stride.toNat + bytes = vectors.toNat * bytes := by
  obtain rfl | ⟨hne, rfl⟩ := h
  · simp
  · have hpos : 1 ≤ vectors.toNat := Nat.one_le_iff_ne_zero.2 fun h0 => hne (UInt32.toNat_inj.1 h0)
    rw [← Nat.succ_mul, Nat.succ_eq_add_one, Nat.sub_add_cancel hpos]

mutual
theorem DataType.kept_of_faithful {t : DataType} {n : Nat} (h : t.isFaithful)
    (hn : t.declared? = some n) : t.kept = n := by
  cases t with
  | scalar k =>
    rw [DataType.declared?, Scalar.declared?_of_faithful h] at hn
    exact Option.some.inj hn
  | vector k size =>
    rw [DataType.declared?, Scalar.declared?_of_faithful h] at hn
    exact Option.some.inj hn
  | matrix k vectors size order stride =>
    simp only [DataType.isFaithful, Bool.and_eq_true, Bool.or_eq_true, beq_iff_eq,
      bne_iff_ne] at h
    obtain ⟨hk, hgap⟩ := h
    obtain - | - | - := order
    case some.columnMajor =>
      cases stride with
      | none => cases hn
      | some s =>
        rw [DataType.declared?, Scalar.declared?_of_faithful hk] at hn
        obtain rfl := Option.some.inj hn
        show k.kept * vectors.toNat * size.toNat =
          (vectors.toNat - 1) * s.toNat + k.kept * size.toNat
        have hpacked := packed_of_stride (hgap.imp_right fun hs => ⟨hs.1, eq_of_beq hs.2⟩)
        rw [hpacked, ← Nat.mul_assoc, Nat.mul_comm vectors.toNat]
    all_goals cases hn
  | array e count stride =>
    cases stride with
    | none => cases hn
    | some stride => exact Option.some.inj hn
  | struct name fields => exact keptEnd_of_faithful h hn
  | _ => cases hn
theorem keptEnd_of_faithful {fields : List (Field DataType)} {n : Nat} (h : areFaithful fields)
    (hn : declaredEnd? fields = some n) : keptEnd fields = n := by
  cases fields with
  | nil => exact Option.some.inj hn
  | cons f r =>
    obtain ⟨name, offset, access, type⟩ := f
    cases offset with
    | none => cases hn
    | some offset =>
      simp only [declaredEnd?, Option.bind_eq_bind, Option.bind_eq_some_iff] at hn
      obtain ⟨size, hsize, stop, hstop, hn⟩ := hn
      obtain rfl := Option.some.inj hn
      rw [areFaithful, Bool.and_eq_true] at h
      rw [keptEnd, DataType.kept_of_faithful h.1 hsize, keptEnd_of_faithful h.2 hstop]
      rfl
end

end Spirv

open Spirv

theorem width_ofSpirv (k : Spirv.Scalar) : (ScalarKind.ofSpirv k).width.toNat = k.kept := by
  unfold ScalarKind.ofSpirv
  split <;> first | rfl | simp_all [Scalar.kept, ScalarKind.width]

mutual
theorem bytes_ofSpirv (t : DataType) : (MemberType.ofSpirv t).bytes = t.kept := by
  cases t with
  | scalar k => exact width_ofSpirv k
  | vector k n => rw [MemberType.ofSpirv, MemberType.bytes, width_ofSpirv, DataType.kept]
  | matrix k n m order stride =>
    rw [MemberType.ofSpirv, MemberType.bytes, width_ofSpirv, DataType.kept]
  | array e count stride =>
    cases stride with
    | some s => rw [MemberType.ofSpirv, MemberType.bytes, DataType.kept]
    | none => rw [MemberType.ofSpirv, MemberType.bytes, bytes_ofSpirv e, DataType.kept]
  | struct name fields => exact lastByte_ofSpirv fields 0
  | _ => rfl
theorem lastByte_ofSpirv (fields : List (Spirv.Field DataType)) (position : Nat) :
    lastByte (membersOfSpirv position fields) = keptEnd fields := by
  cases fields with
  | nil => rfl
  | cons f r =>
    obtain ⟨name, offset, access, type⟩ := f
    rw [membersOfSpirv, lastByte, bytes_ofSpirv type, lastByte_ofSpirv r, keptEnd]
end

theorem isBuffer_of_isStructured {kind : DescriptorKind} {bucket : Bucket}
    (h : Bucket.ofKind? kind = some bucket) (hb : bucket.isStructured) : kind.IsBuffer := by
  cases kind with
  | uniformBuffer => trivial
  | storageBuffer access => trivial
  | _ => cases h <;> cases hb

section OfDescriptor

variable {bucket : Bucket} {d : Spirv.Descriptor} {b : Binding}
  (h : Binding.ofDescriptor bucket d = .ok b)

include h

theorem ofDescriptor_place : (b.bucket, b.set, b.slot) = (bucket, d.set, d.slot) := by
  simp only [Binding.ofDescriptor, bind_ok_iff, pure_ok_iff] at h
  obtain ⟨layout, -, rfl⟩ := h
  rfl

theorem ofDescriptor_layout (hb : bucket.isStructured) {name : Option String}
    {fields : List (Spirv.Field DataType)} (hd : d.type = .struct name fields) :
    ∃ l, b.layout = some l ∧ l.size.toNat = keptEnd fields := by
  simp only [Binding.ofDescriptor, bind_ok_iff, pure_ok_iff] at h
  obtain ⟨layout, hl, rfl⟩ := h
  simp only [Binding.layoutOf, hb, hd, BufferLayout.ofMembers, bind_ok_iff, pure_ok_iff] at hl
  obtain ⟨_, ⟨size, hsize, rfl⟩, rfl⟩ := hl
  refine ⟨_, rfl, ?_⟩
  rw [extent_toNat hsize, lastByte_ofSpirv]

end OfDescriptor

/-- Every buffer of a reflection is the binding of a struct of its module. Its size is the end of the member that
ends last, with matrices packed and narrow integers widened, and so it is the size that the module
declares where that makes no difference. -/
theorem buffer_size_as_kept {words : List UInt32} {journal : Journal} {r : Reflection}
    (h : ((Reflection.ofWords words).run.run journal).1 = .ok r) :
    ∃ m, Spirv.Module.ofWords words = .ok m ∧
      ∀ s ∈ r.stages, ∀ b ∈ s.bindings, b.bucket.isStructured →
        ∃ d ∈ m.descriptors, b.IsOf d ∧ (b.set, b.slot) = (d.set, d.slot) ∧
          ∃ name fields l, d.type = .struct name fields ∧ b.layout = some l ∧
            l.size.toNat = keptEnd fields ∧
            (areFaithful fields → ∀ n, declaredEnd? fields = some n → l.size.toNat = n) := by
  obtain ⟨m, hm, hall⟩ := Reflection.ofWords_returns ⟨journal, h⟩
  refine ⟨m, hm, fun s hs b hb hstructured => ?_⟩
  obtain ⟨d, hd, bucket, hkind, hof⟩ := hall s hs b hb
  have hbinding : b.IsOf d := ⟨bucket, hkind, hof⟩
  obtain ⟨hbucket, hplace⟩ := Prod.mk.inj (ofDescriptor_place hof)
  rw [hbucket] at hstructured
  obtain ⟨name, fields, htype⟩ :=
    Spirv.Module.buffer_isStruct hm hd (isBuffer_of_isStructured hkind hstructured)
  obtain ⟨l, hl, hsize⟩ := ofDescriptor_layout hof hstructured htype
  refine ⟨d, hd, hbinding, hplace, name, fields, l, htype, hl, hsize, fun hfaithful n hn => ?_⟩
  exact hsize.trans (keptEnd_of_faithful hfaithful hn)

section Square

def instruction (opcode : UInt32) (operands : List UInt32) : List UInt32 :=
  (UInt32.ofNat (operands.length + 1) <<< 16 ||| opcode) :: operands

def squareMatrix (n : UInt32) : List UInt32 :=
  [spirvMagic, 0x10000, 0, 12, 0] ++ instruction 17 [1] ++ instruction 14 [0, 1] ++
    instruction 15 [4, 1, 0x6e69616d, 0] ++ instruction 16 [1, 7] ++
    instruction 5 [5, 0x006a624f] ++ instruction 5 [7, 0x006a626f] ++ instruction 6 [5, 0, 0x6d] ++
    instruction 71 [5, 2] ++ instruction 72 [5, 0, 35, 0] ++ instruction 72 [5, 0, 5] ++
    instruction 72 [5, 0, 7, 16] ++ instruction 71 [7, 34, 0] ++ instruction 71 [7, 33, 0] ++
    instruction 22 [2, 32] ++ instruction 23 [3, 2, n] ++ instruction 24 [4, 3, n] ++
    instruction 30 [5, 4] ++ instruction 32 [6, 2, 5] ++ instruction 59 [6, 7, 2] ++
    instruction 19 [8] ++ instruction 33 [9, 8] ++ instruction 54 [8, 1, 0, 9] ++
    instruction 248 [10] ++ instruction 253 [] ++ instruction 56 []

/-- Four columns of four numbers follow one another without a gap. -/
theorem four_columns_keep_their_size :
    ∃ r, ((Reflection.ofWords (squareMatrix 4)).run.run {}).1 = .ok r ∧
      ∃ s ∈ r.stages, ∃ b ∈ s.bindings, b.bucket.isStructured ∧
        ∃ m, Spirv.Module.ofWords (squareMatrix 4) = .ok m ∧
          ∃ d ∈ m.descriptors, b.IsOf d ∧ (b.set, b.slot) = (d.set, d.slot) ∧
            ∃ name fields l, d.type = .struct name fields ∧ b.layout = some l ∧
              areFaithful fields ∧ declaredEnd? fields = some 64 ∧ l.size.toNat = 64 := by
  have hm : (Spirv.Module.ofWords (squareMatrix 4)).toOption.map (·.descriptors.map fun d =>
      (d.type.isFaithful, d.type.declared?)) = some [(true, some 64)] := by decide +kernel
  have hr : ((Reflection.ofWords (squareMatrix 4)).run.run {}).1.toOption.map
      (·.stages.map (·.bindings.map (·.bucket))) = some [[.constantBuffer]] := by decide +kernel
  obtain ⟨m, hm, hdeclared⟩ := Option.map_eq_some_iff.1 hm
  obtain ⟨r, hr, hbuckets⟩ := Option.map_eq_some_iff.1 hr
  obtain ⟨s, hs, hbuckets⟩ := List.map_eq_singleton_iff.1 hbuckets
  obtain ⟨b, hb, hbucket⟩ := List.map_eq_singleton_iff.1 hbuckets
  have hs : s ∈ r.stages := hs ▸ List.mem_singleton_self s
  have hb : b ∈ s.bindings := hb ▸ List.mem_singleton_self b
  have hstructured : b.bucket.isStructured := by
    rw [hbucket]
    rfl
  obtain ⟨m', hm', hall⟩ := buffer_size_as_kept (ok_of_toOption hr)
  obtain rfl := Except.ok.inj ((ok_of_toOption hm).symm.trans hm')
  obtain ⟨d, hd, hof, hplace, name, fields, l, htype, hl, -, hsize⟩ :=
    hall s hs b hb hstructured
  have hd' : (d.type.isFaithful, d.type.declared?) ∈ [(true, some 64)] :=
    hdeclared ▸ List.mem_map_of_mem hd
  rw [htype, List.mem_singleton] at hd'
  obtain ⟨hfaithful, hend⟩ := Prod.mk.inj hd'
  exact ⟨r, ok_of_toOption hr, s, hs, b, hb, hstructured, m, hm', d, hd, hof, hplace, name, fields,
    l, htype, hl, hfaithful, hend, hsize hfaithful 64 hend⟩

/-- Three columns of three numbers end at byte 44, since there are gaps between them. -/
theorem gaps_between_columns_are_dropped :
    ∃ m r, Spirv.Module.ofWords (squareMatrix 3) = .ok m ∧
      ((Reflection.ofWords (squareMatrix 3)).run.run {}).1 = .ok r ∧
      m.descriptors.map (·.type.declared?) = [some 44] ∧
      (r.stages.flatMap (·.bindings)).map (fun b => (b.bucket, b.layout.map (·.size))) =
        [(.constantBuffer, some 36)] := by
  have hm : (Spirv.Module.ofWords (squareMatrix 3)).toOption.map
      (·.descriptors.map (·.type.declared?)) = some [some 44] := by decide +kernel
  have hr : ((Reflection.ofWords (squareMatrix 3)).run.run {}).1.toOption.map (fun r =>
      (r.stages.flatMap (·.bindings)).map (fun b => (b.bucket, b.layout.map (·.size)))) =
        some [(.constantBuffer, some 36)] := by decide +kernel
  obtain ⟨m, hm, hdeclared⟩ := Option.map_eq_some_iff.1 hm
  obtain ⟨r, hr, hsizes⟩ := Option.map_eq_some_iff.1 hr
  exact ⟨m, r, ok_of_toOption hm, ok_of_toOption hr, hdeclared, hsizes⟩

end Square

end ShaderBuild
