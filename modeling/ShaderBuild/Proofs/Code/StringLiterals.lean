import Mathlib.Data.List.Basic
import ShaderBuild.Code.Cpp
import ShaderBuild.Text.Utf8

namespace ShaderBuild.Text.Utf8

theorem toList_loop_eq (bytes : ByteArray) (i : Nat) (done : List UInt8) :
    ByteArray.toList.loop bytes i done = done.reverse ++ bytes.data.toList.drop i := by
  fun_induction ByteArray.toList.loop bytes i done with
  | case1 i done hi ih =>
    have hlen : i < bytes.data.toList.length := by simpa using hi
    rw [ih, List.drop_eq_getElem_cons hlen]
    simp [ByteArray.get!, hi]
  | case2 i done hi =>
    rw [List.drop_eq_nil_of_le (by simpa using Nat.le_of_not_lt hi)]
    simp

theorem toList_toByteArray (bytes : List UInt8) : bytes.toByteArray.toList = bytes := by
  rw [ByteArray.toList, toList_loop_eq, List.drop_zero, List.toList_data_toByteArray]
  rfl

theorem toList_toUTF8 (s : String) : s.toUTF8.toList = encode s := by
  rw [String.toUTF8_eq_toByteArray, ← String.utf8Encode_toList, List.utf8Encode, toList_toByteArray,
    encode]

theorem encode_injective : Function.Injective encode := by
  intro s t h
  apply String.toByteArray_inj.1
  rw [← String.utf8Encode_toList, ← String.utf8Encode_toList]
  exact congrArg List.toByteArray h

end ShaderBuild.Text.Utf8

namespace ShaderBuild.Code.Cpp

inductive Quoting
  | outside
  | inside
  | escape
  | hex (value : Option Nat)
deriving DecidableEq, Repr

structure Literals where
  mode : Quoting
  ended : List (List UInt8)
  current : List UInt8
deriving DecidableEq, Repr

namespace Literals

def begin : Literals := ⟨.outside, [], []⟩

def simpleEscape? : Char → Option UInt8
  | '"' => some 0x22
  | '\x27' => some 0x27
  | '?' => some 0x3F
  | '\\' => some 0x5C
  | 'a' => some 7
  | 'b' => some 8
  | 't' => some 9
  | 'n' => some 10
  | 'v' => some 11
  | 'f' => some 12
  | 'r' => some 13
  | _ => none

def unescaped (ended : List (List UInt8)) (current : List UInt8) (c : Char) : Option Literals :=
  if c = '"' then some ⟨.outside, ended ++ [current], []⟩
  else if c = '\\' then some ⟨.escape, ended, current⟩
  else if c = '\n' then none
  else some ⟨.inside, ended, current ++ String.utf8EncodeChar c⟩

def step (l : Literals) (c : Char) : Option Literals :=
  match l.mode with
  | .outside =>
    if c = '"' then some ⟨.inside, l.ended, []⟩ else if c = ' ' then some l else none
  | .inside => unescaped l.ended l.current c
  | .escape =>
    if c = 'x' then some ⟨.hex none, l.ended, l.current⟩
    else (simpleEscape? c).map fun b => ⟨.inside, l.ended, l.current ++ [b]⟩
  | .hex value =>
    match Text.hexValue? c, value with
    | some d, _ => some ⟨.hex (some (16 * value.getD 0 + d)), l.ended, l.current⟩
    | none, some n => if n < 256 then unescaped l.ended (l.current ++ [.ofNat n]) c else none
    | none, none => none

end Literals

/-- The bytes of each of the string literals that a text consists of. -/
def literals? (s : String) : Option (List (List UInt8)) :=
  (s.toList.foldlM Literals.step .begin).bind fun l =>
    if l.mode = .outside then some l.ended else none

namespace Literals

def bytes (l : Literals) : List UInt8 := l.ended.flatten ++ l.current

/-- Inside a literal, these characters add these bytes and leave a literal open. -/
def Adds (cs : List Char) (bs : List UInt8) : Prop :=
  ∀ l : Literals, l.mode = .inside →
    ∃ m : Literals, cs.foldlM step l = some m ∧ m.mode = .inside ∧ m.bytes = l.bytes ++ bs

theorem Adds.nil : Adds [] [] := fun l hl => ⟨l, rfl, hl, (List.append_nil _).symm⟩

theorem Adds.append {cs ds : List Char} {as bs : List UInt8} (h : Adds cs as) (h' : Adds ds bs) :
    Adds (cs ++ ds) (as ++ bs) := by
  intro l hl
  obtain ⟨m, hm, hmode, hbytes⟩ := h l hl
  obtain ⟨n, hn, hmode', hbytes'⟩ := h' m hmode
  refine ⟨n, ?_, hmode', ?_⟩
  · rw [List.foldlM_append, hm]
    exact hn
  · rw [hbytes', hbytes, List.append_assoc]

theorem Adds.flatMap {α : Type} {f : α → List Char} {g : α → List UInt8} (h : ∀ a, Adds (f a) (g a))
    (as : List α) : Adds (as.flatMap f) (as.flatMap g) := by
  induction as with
  | nil => exact .nil
  | cons a as ih =>
    rw [List.flatMap_cons, List.flatMap_cons]
    exact (h a).append ih

theorem adds_byte (b : UInt8) : Adds ('\\' :: 'x' :: Text.hexByte b ++ ['"', '"']) [b] := by
  rintro ⟨_, ended, current⟩ rfl
  obtain ⟨x, y, hi, lo, hb, hx, hy, hvalue⟩ := Text.hexByte_digits b
  have hlt := b.toNat_lt
  have hquote : Text.hexValue? '"' = none := by decide
  refine ⟨⟨.inside, ended ++ [current ++ [b]], []⟩, ?_, rfl, by simp [bytes]⟩
  rw [hb]
  simp [step, unescaped, hx, hy, hquote, hvalue, hlt]

theorem adds_char (c : Char) : Adds (literalChar c) (String.utf8EncodeChar c) := by
  by_cases hquote : c = '"'
  · subst hquote
    rintro ⟨_, ended, current⟩ rfl
    exact ⟨⟨.inside, ended, current ++ [0x22]⟩, rfl, rfl, (List.append_assoc ..).symm⟩
  by_cases hslash : c = '\\'
  · subst hslash
    rintro ⟨_, ended, current⟩ rfl
    exact ⟨⟨.inside, ended, current ++ [0x5C]⟩, rfl, rfl, (List.append_assoc ..).symm⟩
  by_cases hline : c = '\n'
  · subst hline
    rintro ⟨_, ended, current⟩ rfl
    exact ⟨⟨.inside, ended, current ++ [0x0A]⟩, rfl, rfl, (List.append_assoc ..).symm⟩
  by_cases hplain : 0x20 ≤ c.toNat ∧ c.toNat < 0x7F
  · rintro ⟨_, ended, current⟩ rfl
    have hchar : literalChar c = [c] := by simp [literalChar, hquote, hslash, hline, hplain]
    refine ⟨⟨.inside, ended, current ++ String.utf8EncodeChar c⟩, ?_, rfl,
      (List.append_assoc ..).symm⟩
    rw [hchar]
    simp [step, unescaped, hquote, hslash, hline]
  · have hchar : literalChar c = (String.utf8EncodeChar c).flatMap fun b =>
        '\\' :: 'x' :: Text.hexByte b ++ ['"', '"'] := by
      have hbytes : (String.singleton c).toUTF8.toList = String.utf8EncodeChar c := by
        rw [Text.Utf8.toList_toUTF8, Text.Utf8.encode, String.toList_singleton,
          List.flatMap_singleton]
      simp only [literalChar, beq_iff_eq, hquote, hslash, hline, if_false, Bool.and_eq_true,
        decide_eq_true_eq, hplain, hbytes]
    have hadds := Adds.flatMap adds_byte (String.utf8EncodeChar c)
    rwa [← hchar, List.flatMap_singleton'] at hadds

end Literals

theorem literals?_stringLiteral (s : String) : ∃ ls, literals? (stringLiteral s) = some ls ∧
    ls ≠ [] ∧ ls.flatten = Text.Utf8.encode s := by
  obtain ⟨l, hl, hmode, hbytes⟩ :=
    Literals.Adds.flatMap Literals.adds_char s.toList ⟨.inside, [], []⟩ rfl
  refine ⟨l.ended ++ [l.current], ?_, by simp, ?_⟩
  · have hread : (stringLiteral s).toList.foldlM Literals.step .begin =
        some ⟨.outside, l.ended ++ [l.current], []⟩ := by
      rw [stringLiteral, String.toList_ofList, List.foldlM_cons]
      show (List.foldlM Literals.step ⟨.inside, [], []⟩ _) = _
      rw [List.foldlM_append, hl]
      show Literals.step l '"' >>= _ = _
      simp [Literals.step, hmode, Literals.unescaped]
    rw [literals?, hread]
    rfl
  · rw [List.flatten_append, List.flatten_singleton]
    exact hbytes

def isPrintable (c : Char) : Bool := 0x20 ≤ c.toNat && c.toNat ≤ 0x7E

theorem isPrintable_hexByte {b : UInt8} {d : Char} (h : d ∈ Text.hexByte b) : isPrintable d := by
  have hdigit : ∀ n < 16, isPrintable (Text.hexDigit n) := by decide
  have hb := b.toNat_lt
  rcases List.mem_pair.1 h with rfl | rfl
  · exact hdigit _ (by omega)
  · exact hdigit _ (by omega)

theorem isPrintable_literalChar {c d : Char} (h : d ∈ literalChar c) : isPrintable d := by
  have hfixed {ds : List Char} (hds : ds ⊆ ['\\', '"', 'n', 'x']) (hd : d ∈ ds) : isPrintable d := by
    have hall : ∀ e ∈ ['\\', '"', 'n', 'x'], isPrintable e := List.all_eq_true.1 (by decide)
    exact hall d (hds hd)
  unfold literalChar at h
  split at h
  · exact hfixed (by decide) h
  split at h
  · exact hfixed (by decide) h
  split at h
  · exact hfixed (by decide) h
  split at h
  next hplain =>
    obtain rfl := List.mem_singleton.1 h
    simp only [Bool.and_eq_true, decide_eq_true_eq] at hplain
    simp only [isPrintable, Bool.and_eq_true, decide_eq_true_eq]
    omega
  next =>
    obtain ⟨b, -, hb⟩ := List.mem_flatMap.1 h
    rcases List.mem_append.1 hb with hb | hb
    · rcases List.mem_append.1 (show d ∈ ['\\', 'x'] ++ Text.hexByte b from hb) with hb | hb
      · exact hfixed (by decide) hb
      · exact isPrintable_hexByte hb
    · exact hfixed (by decide) hb

/-- What is written for a text is printable and stays on its line. The compiler reads it as string
literals, one at least, that have together the bytes of the text, so that different texts are
written differently. -/
theorem string_literals_denote_texts :
    (∀ s, (∀ c ∈ (stringLiteral s).toList, isPrintable c) ∧
      ∃ ls, literals? (stringLiteral s) = some ls ∧ ls ≠ [] ∧ ls.flatten = s.toUTF8.toList) ∧
    Function.Injective stringLiteral := by
  refine ⟨fun s => ⟨fun c hc => ?_, ?_⟩, fun s t h => ?_⟩
  · have hquote : isPrintable '"' := by decide
    simp only [stringLiteral, String.toList_ofList, List.mem_cons, List.mem_append,
      List.mem_flatMap, List.not_mem_nil, or_false] at hc
    rcases hc with rfl | ⟨d, -, hd⟩ | rfl
    · exact hquote
    · exact isPrintable_literalChar hd
    · exact hquote
  · rw [Text.Utf8.toList_toUTF8]
    exact literals?_stringLiteral s
  · obtain ⟨ls, hls, -, hs⟩ := literals?_stringLiteral s
    obtain ⟨ms, hms, -, ht⟩ := literals?_stringLiteral t
    obtain rfl : ls = ms := Option.some.inj (hls.symm.trans (h ▸ hms))
    exact Text.Utf8.encode_injective (hs.symm.trans ht)

/-- A digit behind an escape, which must not belong to it. -/
theorem accentedDigit_denoted : stringLiteral "\u00e94\"" = "\"\\xc3\"\"\\xa9\"\"4\\\"\"" ∧
    '\\' ∈ (stringLiteral "\u00e94\"").toList ∧ isPrintable '\\' ∧
    ∃ ls, literals? (stringLiteral "\u00e94\"") = some ls ∧ ls ≠ [] ∧
      ls.flatten = "\u00e94\"".toUTF8.toList := by
  have hmem : '\\' ∈ (stringLiteral "\u00e94\"").toList := by decide +kernel
  obtain ⟨hprintable, hread⟩ := string_literals_denote_texts.1 "\u00e94\""
  exact ⟨by decide +kernel, hmem, hprintable _ hmem, hread⟩

end ShaderBuild.Code.Cpp
