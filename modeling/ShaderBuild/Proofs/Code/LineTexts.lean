import Mathlib.Data.Nat.Digits.Defs
import ShaderBuild.Proofs.Code.EmbeddedBytes
import ShaderBuild.Proofs.Code.HeaderSource
import ShaderBuild.Proofs.Code.StringLiterals
import ShaderBuild.Proofs.Text.Spacing

namespace ShaderBuild

namespace Text

section Escaped

theorem exists_digit_of_mem_toDigits {b n : Nat} {c : Char} (hb : 1 < b)
    (h : c ∈ Nat.toDigits b n) : ∃ d < b, c = Nat.digitChar d := by
  induction n using Nat.strong_induction_on with
  | _ n ih =>
    rcases Nat.lt_or_ge n b with hlt | hle
    · rw [Nat.toDigits_of_lt_base hlt, List.mem_singleton] at h
      exact ⟨n, hlt, h⟩
    · rw [Nat.toDigits_of_base_le hb hle, List.mem_append, List.mem_singleton] at h
      rcases h with h | h
      · exact ih _ (Nat.div_lt_self (by omega) hb) h
      · exact ⟨_, Nat.mod_lt _ (by omega), h⟩

theorem newline_notMem_hexChars (width n : Nat) : '\n' ∉ hexChars width n := by
  have hdigit : ∀ d < 16, '\n' ≠ Nat.digitChar d := by decide
  intro h
  rcases List.mem_append.1 h with h | h
  · exact absurd (List.eq_of_mem_replicate h) (by decide)
  · obtain ⟨d, hd, hc⟩ := exists_digit_of_mem_toDigits (by decide) h
    exact hdigit d hd hc

theorem newline_notMem_quotedChar (c : Char) : '\n' ∉ quotedChar c := by
  unfold quotedChar
  split
  · decide
  split
  · decide
  split
  · decide
  next hbreak =>
    split
    · decide
    split
    · decide
    split
    · decide
    split
    · exact fun h => hbreak (beq_iff_eq.2 (List.mem_singleton.1 h).symm)
    · simp [newline_notMem_hexChars]

@[simp]
theorem newline_notMem_quoted (s : String) : '\n' ∉ (quoted s).toList := by
  simp [quoted, quotedChars, newline_notMem_quotedChar]

end Escaped

section SnakeCase

theorem toLower_ne_newline {c : Char} (h : c.isUpper) : c.toLower ≠ '\n' := by
  have hrange : c.val ≥ 'A'.val ∧ c.val ≤ 'Z'.val := of_decide_eq_true h
  have hlower : c.toLower.val = c.val + 32 := congrArg Char.val (dif_pos hrange)
  intro he
  have hval : c.val + 32 = 10 := hlower.symm.trans (congrArg Char.val he)
  have hnat := congrArg UInt32.toNat hval
  have hlow : 65 ≤ c.val.toNat := hrange.1
  have hhigh : c.val.toNat ≤ 90 := hrange.2
  simp only [UInt32.toNat_add, UInt32.toNat_ofNat] at hnat
  omega

theorem newline_notMem_snakeChars {previous : Option Char} {out cs : List Char} (ho : '\n' ∉ out)
    (hc : '\n' ∉ cs) : '\n' ∉ snakeChars previous out cs := by
  fun_induction snakeChars previous out cs with
  | case1 => simpa using ho
  | case2 previous out c r hu out' ih =>
    have hout : '\n' ∉ out' := by
      simp only [out']
      split
      · simpa using ho
      · exact ho
    refine ih (List.not_mem_cons_of_ne_of_not_mem (toLower_ne_newline hu).symm hout) ?_
    exact fun h => hc (List.mem_cons_of_mem c h)
  | case3 previous out c r hu ih =>
    obtain ⟨hne, hr⟩ := not_or.1 (mt List.mem_cons.2 hc)
    exact ih (List.not_mem_cons_of_ne_of_not_mem hne ho) hr

theorem newline_notMem_snakeCase {s : String} (h : '\n' ∉ s.toList) :
    '\n' ∉ (snakeCase s).toList := by
  rw [snakeCase, String.toList_ofList]
  exact newline_notMem_snakeChars List.not_mem_nil h

end SnakeCase

end Text

namespace Code

section Numbers

@[simp]
theorem newline_notMem_toDigits (n : Nat) : '\n' ∉ Nat.toDigits 10 n :=
  fun h => absurd (Nat.isDigit_of_mem_toDigits (by decide) (by decide) h) (by decide)

@[simp]
theorem newline_notMem_toString (n : UInt32) : '\n' ∉ (toString n).toList :=
  (Cpp.isWord_toString_uint32 n).wordy.plain (by decide)

end Numbers

section Lines

open Text (Fresh Final fresh_iff final_iff)

theorem fresh_banner : Fresh banner := by simp [fresh_iff, banner]

theorem final_brace : Final "\x7d" := by simp [final_iff]

theorem final_value : Final "\x7d;" := by simp [final_iff]

theorem isRow_hexRows (bytes : List UInt8) (n : Nat) :
    ∀ r ∈ (hexRows bytes n).map Text.Directive.line, r.IsRow := by
  intro r hr
  obtain ⟨row, hrow, rfl⟩ := List.mem_map.1 hr
  exact .of_mem (isRow_hexRow hrow).single (zero_mem_hexRow hrow) rfl

end Lines

namespace Cpp

variable {f : Field} {v : Value}

@[simp]
theorem newline_notMem_stringLiteral (s : String) : '\n' ∉ (stringLiteral s).toList := by
  have hchar (c : Char) : '\n' ∉ literalChar c :=
    fun h => absurd (isPrintable_literalChar h) (by decide)
  simp [stringLiteral, hchar]

theorem newline_notMem_baseType {t : FieldType} (h : ∀ n ∈ t.names, '\n' ∉ n.toList) :
    '\n' ∉ (baseType t).1.toList := by
  have hscalar (k : ScalarKind) : '\n' ∉ (scalarType k).toList := by cases k <;> decide
  cases t with
  | scalar k | vector k n | matrix k n m => exact hscalar k
  | uint32 | str | bytes => simp [baseType]
  | enum n | named n =>
    have hn := h n (by simp [FieldType.names])
    simp [baseType, enumType, hn]

theorem newline_notMem_declarator (hn : '\n' ∉ f.name.toList)
    (ht : ∀ n ∈ f.type.names, '\n' ∉ n.toList) : '\n' ∉ (declarator f).toList := by
  have hbase := newline_notMem_baseType ht
  have hdim (d : UInt32) : '\n' ∉ s!"[{d}]".toList := by simp
  have hdims : '\n' ∉ (String.join ((dimensions f).map fun d => s!"[{d}]")).toList := by
    rw [String.toList_join]
    intro hm
    obtain ⟨cs, hcs, hc⟩ := List.mem_flatMap.1 hm
    obtain ⟨d, -, rfl⟩ := List.mem_map.1 hcs
    exact hdim d hc
  have hhead : '\n' ∉ s!"{(baseType f.type).1} {f.name}".toList := by simp [hbase, hn]
  rw [declarator, String.toList_append, List.mem_append, not_or]
  exact ⟨hhead, hdims⟩

theorem newline_notMem_value (h : ∀ n ∈ v.names, '\n' ∉ n.toList) : '\n' ∉ (value v).toList := by
  cases v with
  | uint n =>
    show '\n' ∉ s!"{n}u".toList
    simp
  | maxUInt32 =>
    show '\n' ∉ "UINT32_MAX".toList
    simp
  | enumVariant e w =>
    have he := h e (by simp [Value.names])
    have hw := h w (by simp [Value.names])
    show '\n' ∉ s!"{e}::{w}".toList
    simp [he, hw]
  | enumIndex e w =>
    have he := h e (by simp [Value.names])
    have hw := h w (by simp [Value.names])
    show '\n' ∉ s!"static_cast<uint32_t>({e}::{w})".toList
    simp [he, hw]
  | sizeOf n | blobLength n k =>
    have hn := h n (by simp [Value.names])
    show '\n' ∉ s!"static_cast<uint32_t>(sizeof({n}))".toList
    simp [hn]
  | str t => exact newline_notMem_stringLiteral t
  | blob n => exact h n (by simp [Value.names])
  | noBlob =>
    show '\n' ∉ "nullptr".toList
    simp

end Cpp

namespace Rust

variable {f : Field} {v : Value}

@[simp]
theorem newline_mem_ident {n : String} : '\n' ∈ (ident n).toList ↔ '\n' ∈ n.toList := by
  rcases ident_cases n with ⟨-, h⟩ | ⟨-, h⟩ | ⟨-, -, h⟩ <;> simp [h]

theorem newline_notMem_fieldType (h : ∀ n ∈ f.type.names, '\n' ∉ n.toList) :
    '\n' ∉ (fieldType f).toList := by
  have hscalar (k : ScalarKind) : '\n' ∉ (scalarType k).toList := by cases k <;> decide
  have hbase : '\n' ∉ (baseType f.type).1.toList := by
    cases ht : f.type with
    | scalar k | vector k n | matrix k n m => exact hscalar k
    | uint32 | str | bytes => simp [baseType]
    | enum n | named n =>
      have hn := h n (by simp [ht, FieldType.names])
      simp [baseType, hn]
  rw [fieldType]
  induction dimensions f with
  | nil => exact hbase
  | cons d ds ih =>
    have harray {inner : String} (hi : '\n' ∉ inner.toList) : '\n' ∉ s!"[{inner}; {d}]".toList := by
      simp [hi]
    exact harray ih

theorem newline_notMem_value (h : ∀ n ∈ v.names, '\n' ∉ n.toList) : '\n' ∉ (value v).toList := by
  cases v with
  | uint k | blobLength n k => exact newline_notMem_toString k
  | maxUInt32 =>
    show '\n' ∉ "u32::MAX".toList
    simp
  | enumVariant e w =>
    have he := h e (by simp [Value.names])
    have hw := h w (by simp [Value.names])
    show '\n' ∉ s!"{ident e}::{ident w}".toList
    simp [he, hw]
  | enumIndex e w =>
    have he := h e (by simp [Value.names])
    have hw := h w (by simp [Value.names])
    show '\n' ∉ s!"{ident e}::{ident w} as u32".toList
    simp [he, hw]
  | sizeOf n =>
    have hn := h n (by simp [Value.names])
    show '\n' ∉ s!"::core::mem::size_of::<{ident n}>() as u32".toList
    simp [hn]
  | str t => exact Text.newline_notMem_quoted t
  | blob n =>
    have hn := h n (by simp [Value.names])
    show '\n' ∉ ("&" ++ ident n).toList
    simp [hn]
  | noBlob =>
    show '\n' ∉ "&[]".toList
    simp

end Rust

end Code

end ShaderBuild
