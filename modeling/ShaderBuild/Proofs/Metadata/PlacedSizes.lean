import ShaderBuild.Metadata.DataStruct
import ShaderBuild.Proofs.Code.FieldText
import ShaderBuild.Proofs.Layout.Bytes

namespace ShaderBuild.Metadata

open Code

section Sizes

variable {owner : String}

theorem stretch_size {f : Field} {each : UInt32} {stride : Option UInt32} {r : Field × UInt32}
    (h : stretch owner f each stride = .ok r) : r.2 = stride.getD each := by
  cases stride with
  | none =>
    cases h
    rfl
  | some s =>
    rw [stretch] at h
    by_cases hs : s = each
    · rw [if_pos hs] at h
      cases h
      exact hs.symm
    · rw [if_neg hs] at h
      obtain ⟨f', -, hr⟩ := (bind_ok_iff ..).1 h
      cases hr
      rfl

theorem arrayField_size {e p : Placement} {count stride : Option UInt32}
    (h : arrayField owner e count stride = .ok p) :
    Word.mul? (stride.getD e.size) (count.getD 1) = some p.size := by
  simp only [arrayField, bind_ok_iff, need_ok_iff, pure_ok_iff] at h
  obtain ⟨⟨f, each⟩, hr, size, hm, rfl⟩ := h
  rwa [← stretch_size hr]

theorem structField_size {member struct : String} {ms : List Member} {span : Option UInt32}
    {k : String → UInt32 → Except Error (List Field × List StructDecl)} {p : Placement}
    (h : structField owner member struct ms span k = .ok p) :
    ∃ stop, extent ms = .ok stop ∧ p.size = max (span.getD 0) stop := by
  simp only [structField, guard_ok_iff, bind_ok_iff, pure_ok_iff] at h
  obtain ⟨-, stop, hstop, -, -, -, -, rfl⟩ := h
  exact ⟨stop, hstop, rfl⟩

/-- Only a struct that is made to span a stride takes more than its packed size. -/
theorem place_size {language : SourceLanguage} {name : String} {nested : List StructDecl}
    {type : MemberType} {span : Option UInt32} {p : Placement} (hspan : span = none)
    (h : place language owner name span nested type = .ok p) : type.packedSize = .ok p.size := by
  cases type with
  | scalar | vector | matrix =>
    obtain ⟨size, hs, hp⟩ := (bind_ok_iff ..).1 h
    cases hp
    exact hs
  | array e count stride =>
    obtain ⟨q, hq, ha⟩ := (bind_ok_iff ..).1 h
    have hm := arrayField_size ha
    cases stride with
    | some s =>
      simp only [MemberType.packedSize, bind_ok_iff, pure_ok_iff, need_ok_iff]
      exact ⟨s, rfl, hm⟩
    | none =>
      simp only [MemberType.packedSize, bind_ok_iff, need_ok_iff]
      exact ⟨q.size, place_size rfl hq, hm⟩
  | struct s ms =>
    obtain ⟨stop, hstop, hp⟩ := structField_size h
    have h0 : max 0 stop = stop := if_pos UInt32.zero_le
    rw [hspan, Option.getD_none, h0] at hp
    rw [hp]
    exact hstop

theorem packedSize_unique {language : SourceLanguage} {name : String} {nested : List StructDecl}
    {type : MemberType} {size : UInt32} {p : Placement} (hsize : type.packedSize = .ok size)
    (h : place language owner name none nested type = .ok p) : size = p.size :=
  Except.ok.inj (hsize.symm.trans (place_size rfl h))

end Sizes

def EndBy (ms : List Member) (b : UInt32) : Prop := ∃ stop, extent ms = .ok stop ∧ stop ≤ b

theorem EndBy.cons {m : Member} {r : List Member} {b : UInt32} (h : EndBy (m :: r) b) :
    ∃ size stop, m.type.packedSize = .ok size ∧ Word.add? m.offset size = some stop ∧
      stop ≤ b ∧ EndBy r b := by
  obtain ⟨n, hn, hle⟩ := h
  simp only [extent, bind_ok_iff, need_ok_iff, pure_ok_iff] at hn
  obtain ⟨size, hsize, stop, hstop, rest, hrest, rfl⟩ := hn
  rw [UInt32.le_iff_toNat_le, UInt32.toNat_max, Nat.max_le] at hle
  exact ⟨size, stop, hsize, hstop, UInt32.le_iff_toNat_le.2 hle.1, rest, hrest,
    UInt32.le_iff_toNat_le.2 hle.2⟩

theorem placeAll_stop_le {language : SourceLanguage} {owner : String} {ms : List Member}
    {p q : Progress} {b : UInt32} (hms : EndBy ms b) (hp : p.stop ≤ b)
    (h : placeAll language owner p ms = .ok q) : q.stop ≤ b := by
  induction ms generalizing p with
  | nil =>
    cases h
    exact hp
  | cons m r ih =>
    obtain ⟨size, stop, hsize, hstop, hle, hr⟩ := hms.cons
    simp only [placeAll, guard_ok_iff, bind_ok_iff, need_ok_iff] at h
    obtain ⟨-, -, fields, -, placed, hplaced, stop', hstop', hrest⟩ := h
    rw [← packedSize_unique hsize hplaced] at hstop'
    have hends : stop = stop' := Option.some.inj (hstop.symm.trans hstop')
    exact ih hr (hends ▸ hle) hrest

namespace StructError

/-- The error says that fields end behind their layout. -/
def isSpanFault : StructError → Bool
  | memberOverflow .. | tooLong .. => true
  | _ => false

def EndsInSpan (message : String) : Prop :=
  " bytes".toList <:+ message.toList ∨ " past 4 GiB".toList <:+ message.toList

instance (message : String) : Decidable (EndsInSpan message) :=
  inferInstanceAs (Decidable (_ ∨ _))

theorem EndsInSpan.getLast? {message : String} (h : EndsInSpan message) :
    message.toList.getLast? = some 's' ∨ message.toList.getLast? = some 'B' := by
  cases h with
  | inl h =>
    obtain ⟨front, h⟩ := h
    rw [← h]
    simp
  | inr h =>
    obtain ⟨front, h⟩ := h
    rw [← h]
    simp

theorem endsInSpan_append (front : String) {last : String} (hlong : 11 ≤ last.toList.length) :
    EndsInSpan (front ++ last) ↔ EndsInSpan last := by
  have hlast : last.toList <:+ (front ++ last).toList := by
    rw [String.toList_append]
    exact List.suffix_append _ _
  have hends {ending : List Char} (h : ending.length ≤ 11) :
      ending <:+ (front ++ last).toList ↔ ending <:+ last.toList := by
    constructor
    · intro hs
      exact List.suffix_of_suffix_length_le hs hlast (Nat.le_trans h hlong)
    · intro hs
      exact hs.trans hlast
  exact or_congr (hends (by decide)) (hends (by decide))

theorem not_endsInSpan_append (front : String) {last : String} {c : Char}
    (hlast : last.toList.getLast? = some c) (hs : c ≠ 's') (hb : c ≠ 'B') :
    ¬EndsInSpan (front ++ last) := by
  intro h
  have hc : (front ++ last).toList.getLast? = some c := by
    rw [String.toList_append, List.getLast?_append, hlast]
    rfl
  cases h.getLast? with
  | inl h => exact hs (Option.some.inj (hc.symm.trans h))
  | inr h => exact hb (Option.some.inj (hc.symm.trans h))

/-- Only the messages of span faults end in these words. -/
theorem endsInSpan_iff (e : StructError) : EndsInSpan e.message ↔ e.isSpanFault := by
  cases e with
  | overlap o m offset stop =>
    have hne : digits stop ≠ [] := Nat.toDigits_ne_nil
    have hlast : (toString stop).toList.getLast? = some ((digits stop).getLast hne) := by
      rw [toList_toString, List.getLast?_eq_getLast_of_ne_nil hne]
    have hdigit : ((digits stop).getLast hne).isDigit := isDigit_of_mem_digits (List.getLast_mem hne)
    refine iff_of_false (not_endsInSpan_append _ hlast ?_ ?_) nofun
    · intro h
      rw [h] at hdigit
      cases hdigit
    · intro h
      rw [h] at hdigit
      cases hdigit
  | sameField o f =>
    exact iff_of_false (not_endsInSpan_append _ rfl (by decide) (by decide)) nofun
  | tooLong o span size =>
    refine iff_of_true (.inl ?_) rfl
    show " bytes".toList <:+ (_ ++ " bytes").toList
    rw [String.toList_append]
    exact List.suffix_append _ _
  | memberOverflow o m =>
    exact iff_of_true ((endsInSpan_append _ (by decide)).2 (by decide)) rfl
  | reservedMember | oddGap | arrayOverflow | reservedStruct | badStride | structClash =>
    exact iff_of_false (mt (endsInSpan_append _ (by decide)).1 (by decide)) nofun

theorem toError_ne {e f : StructError} (he : ¬e.isSpanFault) (hf : f.isSpanFault) :
    e.toError ≠ f.toError := by
  intro h
  have hm : e.message = f.message := congrArg Error.message h
  exact he ((endsInSpan_iff e).1 (hm ▸ (endsInSpan_iff f).2 hf))

end StructError

def SpanFree {α : Type} (x : Except Error α) : Prop :=
  ∀ f : StructError, f.isSpanFault → x ≠ .error f.toError

/-- An error that is no span fault: a size that outgrew 32 bits, or another fault of a struct. -/
inductive Spared : Error → Prop
  | layout (f : LayoutError) : Spared f.toError
  | struct (f : StructError) (h : ¬f.isSpanFault) : Spared f.toError

def Spares {α : Type} (x : Except Error α) : Prop := ∀ e, x = .error e → Spared e

namespace Spares

variable {α β : Type}

theorem ok (a : α) : Spares (.ok a) := nofun

theorem refuse {e : Error} (he : Spared e) : Spares (refuse e : Except Error α) := by
  intro e' h
  cases h
  exact he

theorem need (x : Option α) {e : Error} (he : Spared e) : Spares (need x e) := by
  cases x with
  | some a => exact ok a
  | none => exact refuse he

theorem bind {x : Except Error α} {f : α → Except Error β} (hx : Spares x)
    (hf : ∀ a, x = .ok a → Spares (f a)) : Spares (x >>= f) := by
  cases x with
  | ok a => exact hf a rfl
  | error e => exact refuse (hx e rfl)

theorem guard {c : Prop} [Decidable c] {e : Error} {f : PUnit → Except Error α} (he : Spared e)
    (hf : ¬c → Spares (f ⟨⟩)) :
    Spares (if c then ShaderBuild.refuse e >>= f else f ⟨⟩) := by
  by_cases hc : c
  · rw [if_pos hc]
    exact refuse he
  · rw [if_neg hc]
    exact hf hc

theorem of_onlyOverflows {x : Except Error α} (h : OnlyOverflows x) : Spares x := by
  intro e he
  obtain ⟨f, rfl⟩ := h e he
  exact .layout f

theorem spanFree {x : Except Error α} (h : Spares x) : SpanFree x := by
  intro f hf hx
  generalize he : f.toError = e at hx
  cases h e hx with
  | layout g => exact ErrorKind.noConfusion (congrArg Error.kind he)
  | struct g hg => exact StructError.toError_ne hg hf he.symm

end Spares

section Steps

variable {owner : String}

theorem pad_spares (fields : List Field) (gap : UInt32) : Spares (pad owner fields gap) := by
  unfold pad
  split
  · exact .ok _
  · split
    · exact .ok _
    · split
      · exact .ok _
      · exact .refuse (.struct (.oddGap owner gap) nofun)

theorem widen_spares (f : Field) (each stride : UInt32) : Spares (widen owner f each stride) := by
  have hfail : Spared (StructError.badStride owner f.name stride each).toError := .struct _ nofun
  unfold widen
  dsimp only
  split
  · split
    · exact .ok _
    · exact .refuse hfail
  · split
    · exact .ok _
    · exact .refuse hfail
  · exact .refuse hfail

theorem stretch_spares (f : Field) (each : UInt32) (stride : Option UInt32) :
    Spares (stretch owner f each stride) := by
  cases stride with
  | none => exact .ok _
  | some s =>
    rw [stretch]
    by_cases hs : s = each
    · rw [if_pos hs]
      exact .ok _
    · rw [if_neg hs]
      exact .bind (widen_spares f each s) fun _ _ => .ok _

theorem arrayField_spares (e : Placement) (count stride : Option UInt32) :
    Spares (arrayField owner e count stride) := by
  apply Spares.bind (stretch_spares e.field e.size stride)
  intro r _
  apply Spares.bind (.need _ (.struct (.arrayOverflow owner r.1.name) nofun))
  intro size _
  exact .ok _

theorem addStruct_spares (nested : List StructDecl) (d : StructDecl) :
    Spares (addStruct nested d) := by
  unfold addStruct
  split
  · split
    · exact .ok _
    · exact .refuse (.struct (.structClash d.name) nofun)
  · exact .ok _

theorem finish_spares {size : UInt32} {p : Progress} (h : p.stop ≤ size) :
    Spares (finish owner size p) := by
  rw [finish, if_neg (UInt32.not_lt.2 h)]
  apply Spares.bind (pad_spares p.fields (size - p.stop))
  intro fields _
  split
  · next name _ => exact .refuse (.struct (.sameField owner name) nofun)
  · exact .ok _

theorem structField_spares {member struct : String} {ms : List Member} {span : Option UInt32}
    {k : String → UInt32 → Except Error (List Field × List StructDecl)}
    (hk : ∀ name size, EndBy ms size → Spares (k name size)) :
    Spares (structField owner member struct ms span k) := by
  unfold structField
  apply Spares.guard (.struct (.reservedStruct _ owner) nofun)
  intro _
  apply Spares.bind (.of_onlyOverflows (extent_onlyOverflows ms))
  intro stop hstop
  have hle : stop ≤ max (span.getD 0) stop := by
    rw [UInt32.le_iff_toNat_le, UInt32.toNat_max]
    exact Nat.le_max_right _ _
  apply Spares.bind (hk _ _ ⟨stop, hstop, hle⟩)
  intro r _
  exact .bind (addStruct_spares _ _) fun _ _ => .ok _

end Steps

mutual
theorem place_spares {language : SourceLanguage} {owner name : String} {span : Option UInt32}
    {nested : List StructDecl} {type : MemberType} :
    Spares (place language owner name span nested type) := by
  cases type with
  | scalar | vector | matrix =>
    exact .bind (.of_onlyOverflows (packedSize_onlyOverflows _)) fun _ _ => .ok _
  | array e count stride =>
    exact .bind place_spares fun q _ => arrayField_spares q count stride
  | struct s ms =>
    apply structField_spares
    intro struct size hms
    apply Spares.bind (placeAll_spares hms)
    intro q hq
    exact finish_spares (placeAll_stop_le hms UInt32.zero_le hq)
theorem placeAll_spares {language : SourceLanguage} {owner : String} {p : Progress}
    {ms : List Member} {b : UInt32} (hms : EndBy ms b) :
    Spares (placeAll language owner p ms) := by
  cases ms with
  | nil => exact .ok p
  | cons m r =>
    obtain ⟨size, stop, hsize, hstop, -, hr⟩ := hms.cons
    rw [placeAll]
    apply Spares.guard (.struct (.reservedMember owner _) nofun)
    intro _
    apply Spares.guard (.struct (.overlap owner _ m.offset p.stop) nofun)
    intro _
    apply Spares.bind (pad_spares p.fields (m.offset - p.stop))
    intro fields _
    apply Spares.bind place_spares
    intro placed hplaced
    -- the end of the field is the end of the member, which the extent has
    rw [← packedSize_unique hsize hplaced, hstop]
    exact placeAll_spares hr
end

theorem fieldsOf_spares {language : SourceLanguage} {owner : String} {ms : List Member}
    {size : UInt32} {nested : List StructDecl} (h : EndBy ms size) :
    Spares (fieldsOf language owner ms size nested) := by
  apply Spares.bind (placeAll_spares h)
  intro q hq
  exact finish_spares (placeAll_stop_le h UInt32.zero_le hq)

theorem endBy_ofMembers {typeName : String} {ms : List Member} {l : BufferLayout}
    (h : BufferLayout.ofMembers typeName ms = .ok l) : l.members = ms ∧ EndBy ms l.size := by
  obtain ⟨size, hsize, hl⟩ := (bind_ok_iff ..).1 h
  cases hl
  exact ⟨rfl, size, hsize, UInt32.le_refl _⟩

theorem endBy_runtimeArrayElement {whole l : BufferLayout}
    (h : whole.runtimeArrayElement = .ok (some l)) : EndBy l.members l.size := by
  unfold BufferLayout.runtimeArrayElement at h
  split at h
  · next name ms stride _ =>
    obtain ⟨e, he, hl⟩ := (bind_ok_iff ..).1 h
    obtain ⟨rfl, stop, hstop, hle⟩ := endBy_ofMembers he
    cases hl
    refine ⟨stop, hstop, UInt32.le_trans hle ?_⟩
    rw [UInt32.le_iff_toNat_le, UInt32.toNat_max]
    exact Nat.le_max_left _ _
  · cases h

/-- A field takes the packed size of the type it is generated for. So neither a layout, with all
structs inside it, nor a member of any type is refused because its fields end behind it. -/
theorem placed_sizes_agree :
    (∀ language owner name nested type p,
      place language owner name none nested type = .ok p → type.packedSize = .ok p.size) ∧
    (∀ l : BufferLayout, ((∃ typeName ms, BufferLayout.ofMembers typeName ms = .ok l) ∨
        ∃ whole : BufferLayout, whole.runtimeArrayElement = .ok (some l)) →
      ∀ language owner nested, SpanFree (fieldsOf language owner l.members l.size nested)) ∧
    ∀ language owner name span nested type,
      SpanFree (place language owner name span nested type) := by
  refine ⟨fun _ _ _ _ _ _ => place_size rfl, fun l hl language owner nested => ?_,
    fun _ _ _ _ _ _ => place_spares.spanFree⟩
  have hend : EndBy l.members l.size := by
    cases hl with
    | inl h =>
      obtain ⟨typeName, ms, h⟩ := h
      obtain ⟨hms, hend⟩ := endBy_ofMembers h
      exact hms ▸ hend
    | inr h =>
      obtain ⟨whole, h⟩ := h
      exact endBy_runtimeArrayElement h
  exact (fieldsOf_spares hend).spanFree

def rig : List Member :=
  [⟨"weights", 0, .array (.scalar .float) (some 3) (some 16)⟩,
    ⟨"lights", 48, .array (.struct "Light" [⟨"color", 0, .vector .float 3⟩]) (some 2) (some 16)⟩]

def rigs : BufferLayout := ⟨"Rigs", 0, [⟨"_m0", 0, .array (.struct "Rig" rig) none (some 96)⟩]⟩

theorem rigs_end_in_time :
    (∃ p, place .hlsl "Rigs" "rig" none [] (.struct "Rig" rig) = .ok p ∧ p.size = 80 ∧
      (MemberType.struct "Rig" rig).packedSize = .ok p.size) ∧
    rigs.runtimeArrayElement = .ok (some ⟨"Rig", 96, rig⟩) ∧
    SpanFree (fieldsOf .hlsl "Rig" rig 96 []) := by
  have ha : (place .hlsl "Rigs" "rig" none [] (.struct "Rig" rig)).toOption.any
      fun p => p.size = 80 := by decide +kernel
  obtain ⟨p, hp, hsize⟩ := exists_of_toOption_any ha
  have helement : rigs.runtimeArrayElement = .ok (some ⟨"Rig", 96, rig⟩) := rfl
  obtain ⟨hsizes, hlayouts, -⟩ := placed_sizes_agree
  have hfree := hlayouts _ (.inr ⟨rigs, helement⟩) .hlsl "Rig" []
  exact ⟨⟨p, hp, of_decide_eq_true hsize, hsizes _ _ _ _ _ p hp⟩, helement, hfree⟩

end ShaderBuild.Metadata
