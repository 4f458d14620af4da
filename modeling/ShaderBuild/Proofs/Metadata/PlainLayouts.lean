import ShaderBuild.Proofs.Layout.Bytes
import ShaderBuild.Proofs.Metadata.FieldNames

namespace ShaderBuild.Metadata

open Code

section Plain

inductive PlainType
  | scalar (kind : ScalarKind)
  | vector (kind : ScalarKind) (size : UInt32)

def PlainType.memberType : PlainType → MemberType
  | scalar k => .scalar k
  | vector k n => .vector k n

def PlainType.fieldType : PlainType → FieldType
  | scalar k => .scalar k
  | vector k n => .vector k n

def PlainType.sourceName : PlainType → String
  | scalar k => k.sourceName
  | vector k n => s!"{k.sourceName}{n}"

abbrev PlainMember := Placed PlainType

namespace PlainMember

def member (m : PlainMember) : Member := ⟨m.name, m.offset, m.type.memberType⟩

def field (m : PlainMember) : Field := ⟨m.name, m.type.fieldType, [], some m.type.sourceName⟩

def stop (m : PlainMember) : Nat := m.offset.toNat + m.type.memberType.bytes

end PlainMember

/-- Members in a row from some byte on, with an even number of bytes between them. -/
def Spaced (stop : Nat) : List PlainMember → Prop
  | [] => True
  | m :: r => stop ≤ m.offset.toNat ∧ (m.offset.toNat - stop) % 2 = 0 ∧ Spaced m.stop r

instance decidableSpaced : (stop : Nat) → (ms : List PlainMember) → Decidable (Spaced stop ms)
  | _, [] => isTrue trivial
  | stop, m :: r =>
    have := decidableSpaced m.stop r
    inferInstanceAs (Decidable (stop ≤ m.offset.toNat ∧ _ ∧ _))

def looksPadded (f : Field) : Bool := paddingMark.toList.isPrefixOf f.name.toList

/-- A member, the bytes left free in front of it, and how many fields before it look like padding. -/
structure Slot where
  member : PlainMember
  gap : Nat
  number : Nat

namespace Slot

def padding (s : Slot) : Field :=
  if s.gap % 4 = 0 then ⟨paddingName s.number, .scalar .uint, [.ofNat (s.gap / 4)], none⟩
  else ⟨paddingName s.number, .scalar .half, [.ofNat (s.gap / 2)], none⟩

def lead (s : Slot) : List Field := if s.gap = 0 then [] else [s.padding]

def fields (s : Slot) : List Field := s.lead ++ [s.member.field]

end Slot

/-- The members behind some byte and behind so many fields that look like padding. -/
def slots (number stop : Nat) : List PlainMember → List Slot
  | [] => []
  | m :: r =>
    let s : Slot := ⟨m, m.offset.toNat - stop, number⟩
    s :: slots (number + s.fields.countP looksPadded) m.stop r

def plainFields (ms : List PlainMember) : List Field := (slots 0 0 ms).flatMap Slot.fields

def paddingNumbers (ss : List Slot) : List Nat := (ss.filter (·.gap ≠ 0)).map (·.number)

def Fresh (ms : List PlainMember) : Prop :=
  ∀ n ∈ paddingNumbers (slots 0 0 ms), paddingName n ∉ ms.map (·.name)

end Plain

section Placing

variable {language : SourceLanguage} {owner : String}

theorem place_plain {t : PlainType} {name : String} {size : UInt32} {ds : List StructDecl}
    (h : t.memberType.packedSize = .ok size) : place language owner name none ds t.memberType =
      .ok ⟨⟨name, t.fieldType, [], some t.sourceName⟩, size, ds⟩ := by
  cases t with
  | scalar k =>
    rw [PlainType.memberType] at h ⊢
    rw [place, h]
    rfl
  | vector k n =>
    rw [PlainType.memberType] at h ⊢
    rw [place, h]
    rfl

theorem pad_even {m : PlainMember} {fields : List Field} {gap : UInt32}
    (h : gap.toNat % 2 = 0) : pad owner fields gap =
      .ok (fields ++ (Slot.mk m gap.toNat (fields.countP looksPadded)).lead) := by
  have hdiv (w : UInt32) : UInt32.ofNat (gap.toNat / w.toNat) = gap / w := by
    rw [← UInt32.toNat_div, UInt32.ofNat_toNat]
  have hmod (w : UInt32) : gap % w = 0 ↔ gap.toNat % w.toNat = 0 := by
    rw [← UInt32.toNat_inj, UInt32.toNat_mod, UInt32.toNat_zero]
  unfold pad Slot.lead Slot.padding
  dsimp only
  by_cases h0 : gap = 0
  · subst h0
    simp
  · have hne : gap.toNat ≠ 0 := fun he => h0 (UInt32.toNat_inj.1 he)
    rw [if_neg h0, if_neg hne]
    by_cases h4 : gap % 4 = 0
    · have hn : gap.toNat % 4 = 0 := (hmod 4).1 h4
      rw [if_pos h4, if_pos hn, paddingField, ← hdiv]
      rfl
    · have hn : ¬gap.toNat % 4 = 0 := mt (hmod 4).2 h4
      have h2 : gap % 2 = 0 := (hmod 2).2 h
      rw [if_neg h4, if_neg hn, if_pos h2, paddingField, ← hdiv]
      rfl

theorem extent_cons_ok {m : PlainMember} {r : List PlainMember} {size : UInt32}
    (h : extent ((m :: r).map PlainMember.member) = .ok size) :
    ∃ each stop rest, m.type.memberType.packedSize = .ok each ∧
      Word.add? m.offset each = some stop ∧ stop.toNat = m.stop ∧
      extent (r.map PlainMember.member) = .ok rest ∧ size.toNat = max stop.toNat rest.toNat := by
  simp only [List.map_cons, PlainMember.member, extent, bind_ok_iff, need_ok_iff, pure_ok_iff] at h
  obtain ⟨each, he, stop, hs, rest, hr, rfl⟩ := h
  refine ⟨each, stop, rest, he, hs, ?_, hr, UInt32.toNat_max ..⟩
  rw [Word.add?_eq_some_iff.1 hs, packedSize_toNat he, PlainMember.stop]

/-- Members in a row are placed behind what is there, each in its slot. -/
theorem placeAll_plain {ms : List PlainMember} {p : Progress} {size : UInt32}
    (hext : extent (ms.map PlainMember.member) = .ok size) (hu : ∀ m ∈ ms, Usable m.name)
    (hs : Spaced p.stop.toNat ms) :
    ∃ stop, placeAll language owner p (ms.map PlainMember.member) = .ok
      ⟨p.fields ++ (slots (p.fields.countP looksPadded) p.stop.toNat ms).flatMap Slot.fields,
        stop, p.nested⟩ ∧ stop.toNat = max p.stop.toNat size.toNat := by
  induction ms generalizing p size with
  | nil =>
    cases hext
    exact ⟨p.stop, by simp [placeAll, slots], by simp⟩
  | cons m r ih =>
    obtain ⟨each, stop, rest, hp, ha, hstop, hr, hsize⟩ := extent_cons_ok hext
    obtain ⟨hle, heven, hspaced⟩ := hs
    rw [List.forall_mem_cons] at hu
    have hname : Text.sanitize m.name = m.name := Text.sanitize_of_isIdentifier hu.1.identifier
    have hlt : ¬m.offset < p.stop := fun h => Nat.not_lt.2 hle (UInt32.lt_iff_toNat_lt.1 h)
    have hgap := toNat_gap hlt
    have hg : (m.offset - p.stop).toNat = m.offset.toNat - p.stop.toNat := by omega
    let slot : Slot := ⟨m, m.offset.toNat - p.stop.toNat, p.fields.countP looksPadded⟩
    have hpad : pad owner p.fields (m.offset - p.stop) = .ok (p.fields ++ slot.lead) := by
      rw [← hg] at heven
      rw [pad_even (m := m) heven, hg]
    obtain ⟨last, hrest, hlast⟩ := ih (p := ⟨p.fields ++ slot.lead ++ [m.field], stop, p.nested⟩) hr
      hu.2 (hstop ▸ hspaced)
    refine ⟨last, ?_, ?_⟩
    · rw [List.map_cons, PlainMember.member, placeAll]
      simp only [hname, hu.1.free, Bool.false_eq_true, if_false, hlt, hpad, place_plain hp]
      change (need (Word.add? m.offset each) _ >>= fun stop => placeAll language owner
        ⟨p.fields ++ slot.lead ++ [m.field], stop, p.nested⟩ (r.map PlainMember.member)) = _
      rw [ha]
      refine hrest.trans ?_
      simp [slots, slot, Slot.fields, hstop]
    · rw [hlast, hsize]
      have hend : m.offset.toNat ≤ stop.toNat := by rw [hstop]; exact Nat.le_add_right ..
      dsimp only
      omega

/-- The struct of members in a row needs no padding at its end, so only two equal names can stand
in its way. -/
theorem fieldsOf_plain {ms : List PlainMember} {size : UInt32}
    (hext : extent (ms.map PlainMember.member) = .ok size) (hu : ∀ m ∈ ms, Usable m.name)
    (hs : Spaced 0 ms) : fieldsOf language owner (ms.map PlainMember.member) size [] =
      match sameName? [] (plainFields ms) with
      | some n => refuse (StructError.sameField owner n)
      | none => .ok (plainFields ms, []) := by
  obtain ⟨stop, hplace, hstop⟩ : ∃ stop, placeAll language owner ⟨[], 0, []⟩
      (ms.map PlainMember.member) = .ok ⟨plainFields ms, stop, []⟩ ∧
        stop.toNat = max 0 size.toNat := placeAll_plain (p := ⟨[], 0, []⟩) hext hu hs
  obtain rfl : stop = size := UInt32.toNat_inj.1 (by simpa using hstop)
  rw [fieldsOf, hplace]
  change finish owner stop ⟨plainFields ms, stop, []⟩ = _
  simp only [finish, UInt32.lt_irrefl, if_false, UInt32.sub_self, pad, if_true]
  rfl

end Placing

section Names

theorem sameName?_some {before fields : List Field} {n : String}
    (h : sameName? before fields = some n) : 2 ≤ ((before ++ fields).map (·.name)).count n := by
  induction fields generalizing before with
  | nil => cases h
  | cons f r ih =>
    simp only [sameName?] at h
    split at h
    · next hf =>
      obtain rfl := Option.some.inj h
      obtain ⟨e, he, hn⟩ := List.any_eq_true.1 hf
      have hmem : f.name ∈ before.map (·.name) := List.mem_map.2 ⟨e, he, by simpa using hn⟩
      have hpos := List.count_pos_iff.2 hmem
      rw [List.map_append, List.map_cons, List.count_append, List.count_cons_self]
      omega
    · simpa using ih h

theorem slots_members (number stop : Nat) (ms : List PlainMember) :
    (slots number stop ms).map (·.member) = ms := by
  induction ms generalizing number stop with
  | nil => rfl
  | cons m r ih => exact congrArg (m :: ·) (ih ..)

theorem Slot.padding_name (s : Slot) : s.padding.name = paddingName s.number := by
  unfold Slot.padding
  split <;> rfl

theorem Slot.looksPadded_padding (s : Slot) : looksPadded s.padding := by
  rw [looksPadded, s.padding_name, toList_paddingName, List.isPrefixOf_iff_prefix]
  exact List.prefix_append ..

theorem paddingNumbers_cons (s : Slot) (ss : List Slot) :
    paddingNumbers (s :: ss) = (if s.gap = 0 then [] else [s.number]) ++ paddingNumbers ss := by
  unfold paddingNumbers
  by_cases h : s.gap = 0 <;> simp [h]

theorem number_le_of_mem {number stop : Nat} {ms : List PlainMember} {n : Nat}
    (h : n ∈ paddingNumbers (slots number stop ms)) : number ≤ n := by
  induction ms generalizing number stop with
  | nil => cases h
  | cons m r ih =>
    rw [slots, paddingNumbers_cons, List.mem_append] at h
    rcases h with h | h
    · split at h
      · cases h
      · exact (List.mem_singleton.1 h).ge
    · exact Nat.le_trans (Nat.le_add_right ..) (ih h)

theorem paddingNumbers_sorted (number stop : Nat) (ms : List PlainMember) :
    (paddingNumbers (slots number stop ms)).Pairwise (· < ·) := by
  induction ms generalizing number stop with
  | nil => exact .nil
  | cons m r ih =>
    rw [slots, paddingNumbers_cons]
    refine List.pairwise_append.2 ⟨by split <;> simp, ih .., fun a ha b hb => ?_⟩
    have hle := number_le_of_mem hb
    split at ha
    · cases ha
    · next hgap =>
      rw [List.mem_singleton.1 ha]
      refine Nat.lt_of_lt_of_le (Nat.lt_add_of_pos_right (List.countP_pos_iff.2 ?_)) hle
      refine ⟨_, ?_, Slot.looksPadded_padding ⟨m, m.offset.toNat - stop, number⟩⟩
      simp [Slot.fields, Slot.lead, hgap]

/-- Each name stands for the members that have it and for the padding that does. -/
theorem count_slot_names (ss : List Slot) (n : String) :
    ((ss.flatMap Slot.fields).map (·.name)).count n =
      ((paddingNumbers ss).map paddingName).count n + (ss.map (·.member.name)).count n := by
  induction ss with
  | nil => rfl
  | cons s r ih =>
    rw [List.flatMap_cons, List.map_append, List.count_append, ih, paddingNumbers_cons,
      List.map_cons, List.map_append, List.count_append, List.count_cons]
    by_cases hgap : s.gap = 0 <;>
      simp [Slot.fields, Slot.lead, hgap, s.padding_name, PlainMember.field, List.count_cons] <;>
      omega

section

variable {ms : List PlainMember} (hd : (ms.map (·.name)).Nodup)

include hd

theorem plain_names_count_le (n : String) :
    ((paddingNumbers (slots 0 0 ms)).map paddingName).count n ≤ 1 ∧
      (ms.map (·.name)).count n ≤ 1 ∧ ((plainFields ms).map (·.name)).count n =
        ((paddingNumbers (slots 0 0 ms)).map paddingName).count n + (ms.map (·.name)).count n := by
  have hp : (paddingNumbers (slots 0 0 ms)).Nodup := (paddingNumbers_sorted 0 0 ms).imp Nat.ne_of_lt
  have hc := count_slot_names (slots 0 0 ms) n
  have hm : (slots 0 0 ms).map (·.member.name) = ms.map (·.name) := by
    simpa [Function.comp_def] using congrArg (List.map (·.name)) (slots_members 0 0 ms)
  rw [hm] at hc
  exact ⟨List.nodup_iff_count_le_one.1 (hp.map paddingName_injective) n,
    List.nodup_iff_count_le_one.1 hd n, hc⟩

theorem fresh_of_nodup (h : ((plainFields ms).map (·.name)).Nodup) : Fresh ms := by
  intro i hi hm
  obtain ⟨-, -, hc⟩ := plain_names_count_le hd (paddingName i)
  have hone := List.nodup_iff_count_le_one.1 h (paddingName i)
  have hpadding := List.count_pos_iff.2 (List.mem_map_of_mem (f := paddingName) hi)
  have hmember := List.count_pos_iff.2 hm
  omega

/-- Two equal names are those of a member and of padding. -/
theorem sameName?_plain {n : String} (h : sameName? [] (plainFields ms) = some n) :
    ∃ i ∈ paddingNumbers (slots 0 0 ms), n = paddingName i ∧ n ∈ ms.map (·.name) := by
  obtain ⟨hp, hm, hc⟩ := plain_names_count_le hd n
  have htwo := sameName?_some h
  rw [List.nil_append] at htwo
  obtain ⟨i, hi, rfl⟩ := List.mem_map.1 (List.count_pos_iff.1 (show 0 < _ by omega) :
    n ∈ (paddingNumbers (slots 0 0 ms)).map paddingName)
  exact ⟨i, hi, rfl, List.count_pos_iff.1 (by omega)⟩

end

end Names

section Files

variable {r : Resource} (hb : r.bucket.isStructured) (hfree : isReserved r.name = false)

include hb

theorem tableStructs_registryOf {ds es : List StructDecl} {d : StructDecl}
    (h : dataStruct r ds = .ok (d, es)) : tableStructs (registryOf r).tables ds =
      .ok ((registryOf r).tables.map fun t => if t.bucket = r.bucket then [d] else [], es) := by
  obtain ⟨id, name, bucket, layout, language, stages, set, slot⟩ := r
  cases bucket <;> cases hb <;>
    simp [registryOf, Registry.tables, Bucket.all, tableStructs, ownStructs, dataStructs,
      ResourceTable.empty, Bucket.isStructured, h, bind, Except.bind, pure, Except.pure]

theorem tableStructs_registryOf_error {ds : List StructDecl} {e : Error}
    (h : dataStruct r ds = .error e) : tableStructs (registryOf r).tables ds = .error e := by
  obtain ⟨id, name, bucket, layout, language, stages, set, slot⟩ := r
  cases bucket <;> cases hb <;>
    simp [registryOf, Registry.tables, Bucket.all, tableStructs, ownStructs, dataStructs,
      ResourceTable.empty, Bucket.isStructured, h, bind, Except.bind]

include hfree

theorem checkNames_registryOf : checkNames (registryOf r) = .ok () := by
  obtain ⟨id, name, bucket, layout, language, stages, set, slot⟩ := r
  cases bucket <;> cases hb <;>
    simp_all [checkNames, registryOf, Registry.tables, Bucket.all, ResourceTable.empty, nameFault?]

theorem files_registryOf {fields : List Field}
    (h : fieldsOf r.language r.name r.members r.size [] = .ok (fields, [])) :
    ∃ fs, files (registryOf r) = .ok fs ∧ ∃ f ∈ fs, f.name = kindName r.bucket ∧
      f.structs = [kindStruct r.bucket, ⟨r.name, fields⟩] := by
  have hd : dataStruct r [] = .ok (⟨r.name, fields⟩, []) := by
    rw [dataStruct, h]
    rfl
  have hg : Generated (registryOf r) [] _ _ := ⟨checkNames_registryOf hb hfree,
    tableStructs_registryOf hb hd, fun _ _ _ hn => absurd hn List.not_mem_nil, rfl⟩
  let t := (registryOf r).table r.bucket
  have ht : t ∈ (registryOf r).tables := List.mem_map_of_mem (Bucket.mem_all _)
  have htb : t.bucket = r.bucket := by simp [t, registryOf]
  refine ⟨_, hg.accepted, bucketFile t [⟨r.name, fields⟩], ?_, congrArg kindName htb, ?_⟩
  · rw [List.zipWith_map_right, List.zipWith_self]
    refine List.mem_append_left _ (List.mem_cons_of_mem _ (List.mem_map.2 ⟨t, ht, ?_⟩))
    rw [if_pos htb]
  · rw [bucketFile_structs, htb, if_pos hb]

theorem files_registryOf_error {e : Error}
    (h : fieldsOf r.language r.name r.members r.size [] = .error e) :
    files (registryOf r) = .error e := by
  have hd : dataStruct r [] = .error e := by
    rw [dataStruct, h]
    rfl
  rw [files, checkNames_registryOf hb hfree]
  change tableStructs (registryOf r).tables [] >>= _ = _
  rw [tableStructs_registryOf_error hb hd]
  rfl

end Files

/-- A structured resource whose members are such a row, and whose layout ends with the last of
them. -/
structure IsPlain (r : Resource) (ms : List PlainMember) : Prop where
  structured : r.bucket.isStructured
  free : isReserved r.name = false
  layout : ∃ typeName l, r.layout = some l ∧
    BufferLayout.ofMembers typeName (ms.map PlainMember.member) = .ok l
  distinct : (ms.map (·.name)).Nodup
  usable : ∀ m ∈ ms, Usable m.name
  spaced : Spaced 0 ms

theorem IsPlain.fieldsOf_eq {r : Resource} {ms : List PlainMember} (h : IsPlain r ms) :
    fieldsOf r.language r.name r.members r.size [] =
      match sameName? [] (plainFields ms) with
      | some n => refuse (StructError.sameField r.name n)
      | none => .ok (plainFields ms, []) := by
  obtain ⟨typeName, l, hl, hof⟩ := h.layout
  simp only [BufferLayout.ofMembers, bind_ok_iff, pure_ok_iff] at hof
  obtain ⟨size, hext, rfl⟩ := hof
  rw [Resource.members, Resource.size, hl]
  exact fieldsOf_plain hext h.usable h.spaced

/-- A row of scalars and vectors is accepted exactly if no member has the name of padding. Its struct
then holds the members in order, each behind the padding of its gap, under names that all differ. It
is refused for the name of padding and nothing else. -/
theorem plain_layout_accepted_iff {r : Resource} {ms : List PlainMember} (h : IsPlain r ms) :
    ((∃ fs, files (registryOf r) = .ok fs) ↔ Fresh ms) ∧
    (∀ fs, files (registryOf r) = .ok fs → ((plainFields ms).map (·.name)).Nodup ∧
      ∃ f ∈ fs, f.name = kindName r.bucket ∧
        f.structs = [kindStruct r.bucket, ⟨r.name, plainFields ms⟩]) ∧
    ∀ e, files (registryOf r) = .error e → ∃ i ∈ paddingNumbers (slots 0 0 ms),
      paddingName i ∈ ms.map (·.name) ∧ e = StructError.sameField r.name (paddingName i) := by
  have hfields := h.fieldsOf_eq
  cases hn : sameName? [] (plainFields ms) with
  | none =>
    rw [hn] at hfields
    obtain ⟨fs, hfs, hfile⟩ := files_registryOf h.structured h.free hfields
    have hd : ((plainFields ms).map (·.name)).Nodup := sameName?_none (by simp) hn
    rw [hfs]
    refine ⟨iff_of_true ⟨fs, rfl⟩ (fresh_of_nodup h.distinct hd), fun fs' he => ?_, nofun⟩
    obtain rfl := Except.ok.inj he
    exact ⟨hd, hfile⟩
  | some n =>
    rw [hn] at hfields
    obtain ⟨i, hi, rfl, hm⟩ := sameName?_plain h.distinct hn
    rw [files_registryOf_error h.structured h.free hfields]
    refine ⟨iff_of_false nofun fun hf => hf i hi hm, nofun, fun e he => ?_⟩
    exact ⟨i, hi, hm, (Except.error.inj he).symm⟩

def paddedFirst : List PlainMember :=
  [⟨"_pad0", 0, .scalar .float⟩, ⟨"at", 8, .vector .float 3⟩, ⟨"id", 22, .scalar .half⟩]

def paddedLast : List PlainMember := [⟨"a", 0, .scalar .float⟩, ⟨"_pad0", 8, .scalar .float⟩]

def paramsOf (ms : List PlainMember) (size : UInt32) : Resource :=
  ⟨0, "Params", .constantBuffer, some ⟨"Params", size, ms.map PlainMember.member⟩, .hlsl, ⟨32⟩, 0, 0⟩

/-- Padding behind the member counts it and gets other names. -/
theorem paddedFirst_accepted : IsPlain (paramsOf paddedFirst 24) paddedFirst ∧
    ∃ fs, files (registryOf (paramsOf paddedFirst 24)) = .ok fs ∧
      (plainFields paddedFirst).map (·.name) = ["_pad0", "_pad1", "at", "_pad2", "id"] := by
  have hplain : IsPlain (paramsOf paddedFirst 24) paddedFirst :=
    ⟨rfl, by decide, ⟨"Params", _, rfl, rfl⟩, by decide, by decide, by decide⟩
  have hfresh : Fresh paddedFirst := by
    unfold Fresh
    decide
  obtain ⟨fs, hfs⟩ := (plain_layout_accepted_iff hplain).1.2 hfresh
  exact ⟨hplain, fs, hfs, by decide⟩

/-- Padding in front of the member does not count it and takes its name. -/
theorem paddedLast_refused : IsPlain (paramsOf paddedLast 12) paddedLast ∧
    Text.isIdentifier (paramsOf paddedLast 12).name ∧
    ¬∃ fs, files (registryOf (paramsOf paddedLast 12)) = .ok fs := by
  refine ⟨⟨rfl, by decide, ⟨"Params", _, rfl, rfl⟩, by decide, by decide, by decide⟩, by decide, ?_⟩
  rintro ⟨fs, hfs⟩
  have hnone : (files (registryOf (paramsOf paddedLast 12))).toOption.isNone := by decide +kernel
  rw [hfs] at hnone
  cases hnone

end ShaderBuild.Metadata
