import Mathlib.Data.List.Basic
import ShaderBuild.Reflection.Discovery

namespace ShaderBuild

namespace Spirv

def wordCount (w : UInt32) : Nat := (w >>> 16).toNat

def opcode (w : UInt32) : UInt32 := w &&& 0xffff

/-- A walk over words from a position on: where the instructions begin that lie within the words,
and how the walk ends. -/
inductive Walk (words : List UInt32) : Nat → List Nat → Ending → Prop
  | complete {p : Nat} (h : words.length ≤ p) : Walk words p [] .complete
  | zeroLength {p : Nat} {w : UInt32} (hw : words[p]? = some w) (h : wordCount w = 0) :
    Walk words p [] .zeroLength
  | truncated {p : Nat} {w : UInt32} (hw : words[p]? = some w)
    (h : words.length < p + wordCount w) : Walk words p [] .truncated
  | step {p : Nat} {w : UInt32} {ps : List Nat} {e : Ending} (hw : words[p]? = some w)
    (hpos : 0 < wordCount w) (hend : p + wordCount w ≤ words.length)
    (hrest : Walk words (p + wordCount w) ps e) : Walk words p (p :: ps) e

section Walk

variable {words : List UInt32} {p : Nat} {ps : List Nat} {e : Ending}

theorem exists_walk (words : List UInt32) (p : Nat) : ∃ ps e, Walk words p ps e := by
  induction hn : words.length - p using Nat.strongRecOn generalizing p with
  | ind n ih =>
    by_cases hp : words.length ≤ p
    · exact ⟨[], .complete, .complete hp⟩
    · have hw : words[p]? = some words[p] := List.getElem?_eq_getElem (by omega)
      by_cases h0 : wordCount words[p] = 0
      · exact ⟨[], .zeroLength, .zeroLength hw h0⟩
      · by_cases hend : p + wordCount words[p] ≤ words.length
        · obtain ⟨ps, e, hrest⟩ := ih _ (by omega) (p + wordCount words[p]) rfl
          exact ⟨p :: ps, e, .step hw (by omega) hend hrest⟩
        · exact ⟨[], .truncated, .truncated hw (by omega)⟩

theorem walk_of_le (hp : words.length ≤ p) : Walk words p ps e ↔ ps = [] ∧ e = .complete := by
  constructor
  · intro h
    cases h with
    | complete => exact ⟨rfl, rfl⟩
    | zeroLength hw | truncated hw | step hw =>
      rw [List.getElem?_eq_none hp] at hw
      cases hw
  · rintro ⟨rfl, rfl⟩
    exact .complete hp

theorem walk_of_some {w : UInt32} (hw : words[p]? = some w) : Walk words p ps e ↔
    wordCount w = 0 ∧ ps = [] ∧ e = .zeroLength ∨
    words.length < p + wordCount w ∧ ps = [] ∧ e = .truncated ∨
    0 < wordCount w ∧ p + wordCount w ≤ words.length ∧
      ∃ qs, ps = p :: qs ∧ Walk words (p + wordCount w) qs e := by
  constructor
  · intro h
    cases h with
    | complete h =>
      rw [List.getElem?_eq_none h] at hw
      cases hw
    | zeroLength hw' h =>
      obtain rfl := Option.some.inj (hw.symm.trans hw')
      exact .inl ⟨h, rfl, rfl⟩
    | truncated hw' h =>
      obtain rfl := Option.some.inj (hw.symm.trans hw')
      exact .inr (.inl ⟨h, rfl, rfl⟩)
    | step hw' hpos hend hrest =>
      obtain rfl := Option.some.inj (hw.symm.trans hw')
      exact .inr (.inr ⟨hpos, hend, _, rfl, hrest⟩)
  · rintro (⟨h, rfl, rfl⟩ | ⟨h, rfl, rfl⟩ | ⟨hpos, hend, qs, rfl, hrest⟩)
    · exact .zeroLength hw h
    · exact .truncated hw h
    · exact .step hw hpos hend hrest

theorem Walk.unique {qs : List Nat} {f : Ending} (h : Walk words p ps e) (h' : Walk words p qs f) :
    qs = ps ∧ f = e := by
  induction h generalizing qs with
  | complete h => exact (walk_of_le h).1 h'
  | zeroLength hw h =>
    obtain ⟨hp, -⟩ := List.getElem?_eq_some_iff.1 hw
    obtain ⟨-, rfl, rfl⟩ | ⟨hend, -⟩ | ⟨hpos, -⟩ := (walk_of_some hw).1 h'
    · exact ⟨rfl, rfl⟩
    · omega
    · omega
  | truncated hw h =>
    obtain ⟨hp, -⟩ := List.getElem?_eq_some_iff.1 hw
    obtain ⟨h0, -⟩ | ⟨-, rfl, rfl⟩ | ⟨-, hend, -⟩ := (walk_of_some hw).1 h'
    · omega
    · exact ⟨rfl, rfl⟩
    · omega
  | step hw hpos hend hrest ih =>
    obtain ⟨h0, -⟩ | ⟨hlong, -⟩ | ⟨-, -, qs, rfl, hrest'⟩ := (walk_of_some hw).1 h'
    · omega
    · omega
    · obtain ⟨rfl, rfl⟩ := ih hrest'
      exact ⟨rfl, rfl⟩

theorem Walk.le (h : Walk words p ps e) : ∀ q ∈ ps, p ≤ q := by
  induction h with
  | complete | zeroLength | truncated => simp
  | @step p w ps e hw hpos hend hrest ih =>
    intro q hq
    obtain rfl | hq := List.mem_cons.1 hq
    · exact Nat.le_refl _
    · have hle := ih q hq
      omega

theorem Walk.length_le (h : Walk words p ps e) : ps.length ≤ words.length - p := by
  induction h with
  | complete | zeroLength | truncated => exact Nat.zero_le _
  | step hw hpos hend hrest ih =>
    rw [List.length_cons]
    omega

theorem Walk.within (h : Walk words p ps e) :
    ∀ q ∈ ps, ∃ w, words[q]? = some w ∧ 0 < wordCount w ∧ q + wordCount w ≤ words.length := by
  induction h with
  | complete | zeroLength | truncated => simp
  | step hw hpos hend hrest ih => exact List.forall_mem_cons.2 ⟨⟨_, hw, hpos, hend⟩, ih⟩

end Walk

end Spirv

open Spirv

def SourceLanguage.operand : SourceLanguage → UInt32
  | .glsl => 2
  | .hlsl => 5

/-- At a position there begins an instruction whose operand names the source language. -/
def NamesAt (words : List UInt32) (p : Nat) (language : SourceLanguage) : Prop :=
  ∃ w, words[p]? = some w ∧ opcode w = Opcode.source ∧ 1 < wordCount w ∧
    words[p + 1]? = some language.operand

/-- Among instructions that begin at some positions, this language is the first to be named. -/
def FirstNamed (words : List UInt32) (ps : List Nat) (language : SourceLanguage) : Prop :=
  ∃ before p after, ps = before ++ p :: after ∧ NamesAt words p language ∧
    ∀ q ∈ before, ∀ l, ¬NamesAt words q l

/-- A word behind the first one of an instruction that is not about the source. -/
def Unrelated (words : List UInt32) (ps : List Nat) (k : Nat) : Prop :=
  ∃ p ∈ ps, ∃ w, words[p]? = some w ∧ opcode w ≠ Opcode.source ∧ p < k ∧ k < p + wordCount w

section Scan

variable {words : List UInt32} {p : Nat} {ps : List Nat} {e : Ending} {language : SourceLanguage}

theorem ofInstruction?_iff {i : Instruction} : SourceLanguage.ofInstruction? i = some language ↔
    i.opcode = Opcode.source ∧ i.operands.head? = some language.operand := by
  obtain ⟨op, operands⟩ := i
  by_cases hop : op = Opcode.source
  · simp only [SourceLanguage.ofInstruction?, hop, if_true, true_and]
    cases operands with
    | nil => simp
    | cons x r =>
      rw [List.head?_cons, Option.some.injEq]
      split <;> cases language <;> simp_all [SourceLanguage.operand]
  · simp [SourceLanguage.ofInstruction?, hop]

def languageAt? (words : List UInt32) (p : Nat) : Option SourceLanguage :=
  words[p]?.bind fun w =>
    SourceLanguage.ofInstruction? ⟨opcode w, (words.drop (p + 1)).take (wordCount w - 1)⟩

theorem languageAt?_iff : languageAt? words p = some language ↔ NamesAt words p language := by
  simp only [languageAt?, NamesAt, Option.bind_eq_some_iff, ofInstruction?_iff, List.head?_take,
    List.head?_drop]
  refine exists_congr fun w => and_congr_right fun _ => and_congr_right fun _ => ?_
  by_cases hw : 1 < wordCount w
  · rw [if_neg (by omega)]
    simp [hw]
  · rw [if_pos (by omega)]
    simp [hw]

theorem cut_cons (w : UInt32) (r : List UInt32) : cut (w :: r) =
    if wordCount w = 0 then ([], .zeroLength)
    else if r.length + 1 < wordCount w then ([], .truncated)
    else
      (⟨opcode w, r.take (wordCount w - 1)⟩ :: (cut (r.drop (wordCount w - 1))).1,
        (cut (r.drop (wordCount w - 1))).2) := by
  rw [cut]
  rfl

theorem cut_of_some {w : UInt32} (hw : words[p]? = some w) : cut (words.drop p) =
    if wordCount w = 0 then ([], .zeroLength)
    else if words.length < p + wordCount w then ([], .truncated)
    else
      (⟨opcode w, (words.drop (p + 1)).take (wordCount w - 1)⟩ ::
        (cut (words.drop (p + wordCount w))).1, (cut (words.drop (p + wordCount w))).2) := by
  obtain ⟨hp, rfl⟩ := List.getElem?_eq_some_iff.1 hw
  have hbehind : (words.drop (p + 1)).length + 1 < wordCount words[p] ↔
      words.length < p + wordCount words[p] := by
    rw [List.length_drop]
    omega
  have hrest (h : wordCount words[p] ≠ 0) : (words.drop (p + 1)).drop (wordCount words[p] - 1) =
      words.drop (p + wordCount words[p]) := by
    rw [List.drop_drop]
    congr 1
    omega
  rw [List.drop_eq_getElem_cons hp, cut_cons]
  simp only [hbehind]
  by_cases h0 : wordCount words[p] = 0
  · rw [if_pos h0, if_pos h0]
  · rw [if_neg h0, if_neg h0, hrest h0]

theorem scan_eq (h : Walk words p ps e) :
    (cut (words.drop p)).1.findSome? SourceLanguage.ofInstruction? =
      ps.findSome? (languageAt? words) := by
  induction h with
  | complete h =>
    rw [List.drop_eq_nil_of_le h, cut]
    rfl
  | zeroLength hw h =>
    rw [cut_of_some hw, if_pos h]
    rfl
  | truncated hw h =>
    obtain ⟨hp, -⟩ := List.getElem?_eq_some_iff.1 hw
    rw [cut_of_some hw, if_neg (by omega), if_pos h]
    rfl
  | @step p w ps e hw hpos hend hrest ih =>
    rw [cut_of_some hw, if_neg (by omega), if_neg (by omega), List.findSome?_cons,
      List.findSome?_cons, ih, languageAt?, hw, Option.bind_some]

theorem namesAt_iff {w : UInt32} (hw : words[p]? = some w) : NamesAt words p language ↔
    opcode w = Opcode.source ∧ 1 < wordCount w ∧ words[p + 1]? = some language.operand := by
  simp [NamesAt, hw]

theorem unrelated_cons_iff {w : UInt32} {k : Nat} (hw : words[p]? = some w) :
    Unrelated words (p :: ps) k ↔
      opcode w ≠ Opcode.source ∧ p < k ∧ k < p + wordCount w ∨ Unrelated words ps k := by
  simp [Unrelated, hw]

theorem Unrelated.lt {m k : Nat} (h : Unrelated words ps k) (hle : ∀ q ∈ ps, m ≤ q) : m < k := by
  obtain ⟨q, hq, -, -, -, hlt, -⟩ := h
  exact Nat.lt_of_le_of_lt (hle q hq) hlt

/-- Words that differ only where they are unrelated are walked alike and name the same languages. -/
theorem walk_congr {words' : List UInt32} (h : Walk words p ps e)
    (hlength : words'.length = words.length)
    (hsame : ∀ k, p ≤ k → ¬Unrelated words ps k → words'[k]? = words[k]?) :
    Walk words' p ps e ∧ ∀ q ∈ ps, ∀ l, NamesAt words' q l ↔ NamesAt words q l := by
  induction h with
  | complete h => exact ⟨.complete (hlength ▸ h), by simp⟩
  | @zeroLength p w hw h =>
    have hw' := hsame p (Nat.le_refl _) (by simp [Unrelated])
    exact ⟨.zeroLength (hw'.trans hw) h, by simp⟩
  | @truncated p w hw h =>
    have hw' := hsame p (Nat.le_refl _) (by simp [Unrelated])
    exact ⟨.truncated (hw'.trans hw) (hlength ▸ h), by simp⟩
  | @step p w ps e hw hpos hend hrest ih =>
    have hwithin {k : Nat} (hk : k ≤ p + wordCount w) : ¬Unrelated words ps k :=
      fun hun => Nat.not_lt.2 hk (hun.lt hrest.le)
    have hhead : words'[p]? = words[p]? := by
      refine hsame p (Nat.le_refl _) ?_
      rw [unrelated_cons_iff hw]
      rintro (⟨-, hlt, -⟩ | hun)
      · exact absurd hlt (Nat.lt_irrefl _)
      · exact hwithin (Nat.le_add_right ..) hun
    obtain ⟨hwalk, hnames⟩ := ih fun k hk hrelated => by
      refine hsame k (by omega) ?_
      rw [unrelated_cons_iff hw]
      rintro (⟨-, -, hlt⟩ | hun)
      · exact Nat.not_lt.2 hk hlt
      · exact hrelated hun
    refine ⟨.step (hhead.trans hw) hpos (hlength ▸ hend) hwalk, List.forall_mem_cons.2 ⟨?_, hnames⟩⟩
    intro l
    rw [namesAt_iff hw, namesAt_iff (hhead.trans hw)]
    refine and_congr_right fun hop => and_congr_right fun hlong => ?_
    rw [hsame (p + 1) (Nat.le_add_right ..)]
    rw [unrelated_cons_iff hw]
    rintro (⟨hother, -⟩ | hun)
    · exact hother hop
    · exact hwithin (by omega) hun

theorem ofWords_eq (h : Walk words headerLength ps e) :
    SourceLanguage.ofWords words = (ps.findSome? (languageAt? words)).getD .hlsl := by
  rw [SourceLanguage.ofWords, scan_eq h]

theorem findSome?_languageAt?_iff :
    ps.findSome? (languageAt? words) = some language ↔ FirstNamed words ps language := by
  simp only [List.findSome?_eq_some_iff, FirstNamed, languageAt?_iff,
    Option.eq_none_iff_forall_ne_some, ne_eq]

end Scan

/-- Any words are walked to an end, in no more steps than there are words, and always within them.
They count as the language that is named first, if any is. What stands behind the first word of an
instruction about something else has no say in it. -/
theorem source_language_is_first_named (words : List UInt32) :
    ∃ ps e, Walk words headerLength ps e ∧
      (∀ qs f, Walk words headerLength qs f → qs = ps ∧ f = e) ∧
      ps.length ≤ words.length - headerLength ∧
      (∀ p ∈ ps, ∃ w, words[p]? = some w ∧ 0 < wordCount w ∧ p + wordCount w ≤ words.length) ∧
      (SourceLanguage.ofWords words = .glsl ↔ FirstNamed words ps .glsl) ∧
      ∀ words', words'.length = words.length →
        (∀ k, ¬Unrelated words ps k → words'[k]? = words[k]?) →
        SourceLanguage.ofWords words' = SourceLanguage.ofWords words := by
  obtain ⟨ps, e, h⟩ := exists_walk words headerLength
  refine ⟨ps, e, h, fun qs f => h.unique, h.length_le, h.within, ?_, ?_⟩
  · rw [ofWords_eq h, ← findSome?_languageAt?_iff]
    cases ps.findSome? (languageAt? words) <;> simp
  · intro words' hlength hsame
    obtain ⟨hwalk, hnames⟩ := walk_congr h hlength fun k _ => hsame k
    have hat : ∀ q ∈ ps, languageAt? words' q = languageAt? words q := by
      intro q hq
      apply Option.ext
      intro l
      rw [languageAt?_iff, languageAt?_iff]
      exact hnames q hq l
    rw [ofWords_eq h, ofWords_eq hwalk, ← List.head?_filterMap, ← List.head?_filterMap,
      List.filterMap_congr hat]

/-- A header, a name whose text holds what looks like the source, the source in a language that is
unknown and then in a known one, and an instruction that lacks its last words. -/
def disguised (text : UInt32) : List UInt32 :=
  [0x07230203, 0x10000, 0, 1, 0] ++ [0x30007, text, 5] ++ [0x30003, 1, 300] ++ [0x30003, 2, 450] ++
    [0x90003, 5]

/-- Words that look like the source count neither in a text nor behind the end. -/
theorem disguised_is_glsl : (disguised 0x30003).length = 16 ∧
    Walk (disguised 0x30003) headerLength [5, 8, 11] .truncated ∧
    SourceLanguage.ofWords (disguised 0x30003) = .glsl ∧
    SourceLanguage.ofWords (disguised 0x9999) = SourceLanguage.ofWords (disguised 0x30003) := by
  obtain ⟨ps, e, -, hunique, -, -, hglsl, hsame⟩ :=
    source_language_is_first_named (disguised 0x30003)
  have hwalk : Walk (disguised 0x30003) headerLength [5, 8, 11] .truncated :=
    .step rfl (by decide) (by decide) (.step rfl (by decide) (by decide)
      (.step rfl (by decide) (by decide) (.truncated rfl (by decide))))
  obtain ⟨rfl, rfl⟩ := hunique _ _ hwalk
  refine ⟨rfl, hwalk, hglsl.2 ?_, hsame _ rfl ?_⟩
  · refine ⟨[5, 8], 11, [], rfl, ⟨_, rfl, by decide, by decide, rfl⟩, ?_⟩
    intro q hq l
    obtain rfl | rfl : q = 5 ∨ q = 8 := by simpa using hq
    · rw [namesAt_iff rfl]
      cases l <;> decide
    · rw [namesAt_iff rfl]
      cases l <;> decide
  · intro k hk
    have hset : disguised 0x9999 = (disguised 0x30003).set 6 0x9999 := rfl
    have hne : 6 ≠ k := by
      rintro rfl
      exact hk ⟨5, by decide, _, rfl, by decide, by decide, by decide⟩
    rw [hset, List.getElem?_set_ne hne]

end ShaderBuild
