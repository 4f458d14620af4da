import Mathlib.Data.UInt
import ShaderBuild.Bytecode.Binary
import ShaderBuild.Proofs.Outcome

namespace ShaderBuild

section Word

theorem toNat_or_shiftLeft {w : UInt32} {b : UInt8} {k : UInt32} (hk : k.toNat ≤ 24)
    (hw : w.toNat < 2 ^ k.toNat) :
    (w ||| b.toUInt32 <<< k).toNat = w.toNat + 2 ^ k.toNat * b.toNat := by
  have hb := b.toNat_lt
  have hpow : 2 ^ k.toNat ≤ 2 ^ 24 := Nat.pow_le_pow_right (by decide) hk
  have hfit : b.toNat * 2 ^ k.toNat < 2 ^ 32 :=
    calc b.toNat * 2 ^ k.toNat ≤ b.toNat * 2 ^ 24 := Nat.mul_le_mul_left _ hpow
      _ < 2 ^ 32 := by omega
  rw [UInt32.toNat_or, UInt32.toNat_shiftLeft, UInt8.toNat_toUInt32,
    Nat.mod_eq_of_lt (show k.toNat < 32 by omega), Nat.shiftLeft_eq, Nat.mod_eq_of_lt hfit,
    ← Nat.shiftLeft_eq, Nat.or_comm, ← Nat.shiftLeft_add_eq_or_of_lt hw, Nat.shiftLeft_eq,
    Nat.add_comm, Nat.mul_comm]

theorem toNat_wordOfBytes (a b c d : UInt8) : (wordOfBytes a b c d).toNat =
    a.toNat + 2 ^ 8 * b.toNat + 2 ^ 16 * c.toNat + 2 ^ 24 * d.toNat := by
  have ha := a.toNat_lt
  have hb := b.toNat_lt
  have hc := c.toNat_lt
  have hone : a.toUInt32.toNat = a.toNat := UInt8.toNat_toUInt32 a
  have htwo : (a.toUInt32 ||| b.toUInt32 <<< 8).toNat = a.toNat + 2 ^ 8 * b.toNat := by
    rw [toNat_or_shiftLeft (by decide) (hone ▸ ha), hone]
    rfl
  have hthree : (a.toUInt32 ||| b.toUInt32 <<< 8 ||| c.toUInt32 <<< 16).toNat =
      a.toNat + 2 ^ 8 * b.toNat + 2 ^ 16 * c.toNat := by
    rw [toNat_or_shiftLeft (by decide) (by rw [htwo]; show _ < 2 ^ 16; omega), htwo]
    rfl
  rw [wordOfBytes, toNat_or_shiftLeft (by decide) (by rw [hthree]; show _ < 2 ^ 24; omega), hthree]
  rfl

theorem bytesOfWord_wordOfBytes (a b c d : UInt8) : bytesOfWord (wordOfBytes a b c d) = [a, b, c, d] := by
  have ha := a.toNat_lt
  have hb := b.toNat_lt
  have hc := c.toNat_lt
  have hd := d.toNat_lt
  have hword := toNat_wordOfBytes a b c d
  simp only [bytesOfWord, List.cons.injEq, and_true]
  refine ⟨?_, ?_, ?_, ?_⟩ <;> apply UInt8.toNat_inj.1 <;>
    simp [Nat.shiftRight_eq_div_pow, hword] <;> omega

theorem wordOfBytes_bytesOfWord (w : UInt32) :
    ∃ a b c d, bytesOfWord w = [a, b, c, d] ∧ wordOfBytes a b c d = w := by
  have hw := w.toNat_lt
  refine ⟨_, _, _, _, rfl, UInt32.toNat_inj.1 ?_⟩
  rw [toNat_wordOfBytes]
  simp [Nat.shiftRight_eq_div_pow]
  omega

end Word

section Words

variable {bytes : List UInt8} {ws : List UInt32}

@[simp]
theorem bytesOfWords_cons (w : UInt32) (ws : List UInt32) :
    bytesOfWords (w :: ws) = bytesOfWord w ++ bytesOfWords ws := List.flatMap_cons

theorem words?_bytesOfWords (ws : List UInt32) : words? (bytesOfWords ws) = some ws := by
  induction ws with
  | nil => rfl
  | cons w ws ih =>
    obtain ⟨a, b, c, d, hbytes, hword⟩ := wordOfBytes_bytesOfWord w
    rw [bytesOfWords_cons, hbytes]
    show (words? (bytesOfWords ws)).map (wordOfBytes a b c d :: ·) = _
    rw [ih, hword]
    rfl

theorem bytesOfWords_of_words? (h : words? bytes = some ws) : bytesOfWords ws = bytes := by
  fun_induction words? bytes generalizing ws with
  | case1 =>
    cases h
    rfl
  | case2 a b c d r ih =>
    obtain ⟨vs, hvs, rfl⟩ := Option.map_eq_some_iff.1 h
    rw [bytesOfWords_cons, bytesOfWord_wordOfBytes, ih hvs]
    rfl
  | case3 => cases h

theorem words?_eq_some_iff : words? bytes = some ws ↔ bytes = bytesOfWords ws :=
  ⟨fun h => (bytesOfWords_of_words? h).symm, fun h => h ▸ words?_bytesOfWords ws⟩

/-- Bytes are words where they come in fours. -/
theorem exists_words?_iff (bytes : List UInt8) :
    (∃ ws, words? bytes = some ws) ↔ 4 ∣ bytes.length := by
  fun_induction words? bytes with
  | case1 => simp
  | case2 a b c d r ih =>
    have hfour : 4 ∣ (a :: b :: c :: d :: r).length ↔ 4 ∣ r.length := by
      simp only [List.length_cons]
      omega
    rw [hfour, ← ih]
    constructor
    · rintro ⟨ws, h⟩
      obtain ⟨vs, hvs, -⟩ := Option.map_eq_some_iff.1 h
      exact ⟨vs, hvs⟩
    · rintro ⟨vs, hvs⟩
      exact ⟨_, Option.map_eq_some_iff.2 ⟨vs, hvs, rfl⟩⟩
  | case3 bytes hne hfour =>
    refine iff_of_false nofun fun hdvd => ?_
    match bytes with
    | [] => exact hne rfl
    | [_] | [_, _] | [_, _, _] => simp at hdvd
    | a :: b :: c :: d :: r => exact hfour a b c d r rfl

theorem startsWithMagic_bytesOfWords (w : UInt32) (ws : List UInt32) :
    startsWithMagic (bytesOfWords (w :: ws)) = (w == spirvMagic) := by
  obtain ⟨a, b, c, d, hbytes, hword⟩ := wordOfBytes_bytesOfWord w
  rw [bytesOfWords_cons, hbytes, ← hword]
  rfl

end Words

section Module

variable {bytes : List UInt8} {ws : List UInt32}

theorem spirvWords_ok_iff :
    spirvWords bytes = .ok ws ↔ bytes = bytesOfWords ws ∧ ws.head? = some spirvMagic := by
  rw [← words?_eq_some_iff, spirvWords]
  cases hwords : words? bytes with
  | none => simp
  | some vs =>
    cases vs with
    | nil =>
      simp only [refuse_ok_iff, false_iff, not_and, Option.some.injEq]
      rintro rfl
      simp
    | cons v vs =>
      by_cases hv : v = spirvMagic
      · simp only [hv, if_true, Except.ok.injEq, Option.some.injEq, iff_self_and]
        rintro rfl
        rfl
      · simp only [hv, if_false, refuse_ok_iff, Option.some.injEq, false_iff, not_and]
        rintro rfl
        simpa using hv

theorem exists_spirvWords_iff (bytes : List UInt8) : (∃ ws, spirvWords bytes = .ok ws) ↔
    4 ∣ bytes.length ∧ startsWithMagic bytes := by
  simp only [spirvWords_ok_iff, ← exists_words?_iff, words?_eq_some_iff]
  constructor
  · rintro ⟨ws, rfl, hhead⟩
    obtain ⟨vs, rfl⟩ := List.head?_eq_some_iff.1 hhead
    exact ⟨⟨_, rfl⟩, by rw [startsWithMagic_bytesOfWords]; exact beq_self_eq_true _⟩
  · rintro ⟨⟨ws, rfl⟩, hmagic⟩
    cases ws with
    | nil => cases hmagic
    | cons w ws =>
      rw [startsWithMagic_bytesOfWords, beq_iff_eq] at hmagic
      exact ⟨_, rfl, congrArg some hmagic⟩

/-- Modules and their bytes determine each other. Bytes are a module where there are some, they come
in fours, and the binary made of them, whatever it is for, counts as SPIR-V. -/
theorem words_and_bytes_correspond :
    (∀ ws : List UInt32, ws.head? = some spirvMagic → spirvWords (bytesOfWords ws) = .ok ws) ∧
    (∀ (bytes : List UInt8) (entryPoint : String) (stage : Stage),
      (∃ ws, spirvWords bytes = .ok ws) ↔ 0 < bytes.length ∧ 4 ∣ bytes.length ∧
        ∃ b, Bytecode.ofBytes bytes entryPoint stage = .ok b ∧ b.isSpirv) ∧
    ∀ bytes ws, spirvWords bytes = .ok ws → bytesOfWords ws = bytes := by
  refine ⟨fun ws h => spirvWords_ok_iff.2 ⟨rfl, h⟩, fun bytes entryPoint stage => ?_,
    fun bytes ws h => (spirvWords_ok_iff.1 h).1.symm⟩
  rw [exists_spirvWords_iff]
  cases bytes with
  | nil => simp [startsWithMagic]
  | cons a r =>
    have hbinary : Bytecode.ofBytes (a :: r) entryPoint stage = .ok ⟨a :: r, entryPoint, stage⟩ := rfl
    simp [hbinary, Bytecode.isSpirv]

/-- A word with all its bits, and a module that is cut off inside it. -/
theorem fullWord_and_bytes_correspond :
    spirvWords (bytesOfWords [spirvMagic, 0xFFFFFFFF]) = .ok [spirvMagic, 0xFFFFFFFF] ∧
    bytesOfWords [spirvMagic, 0xFFFFFFFF] = [3, 2, 0x23, 7, 0xFF, 0xFF, 0xFF, 0xFF] ∧
    (∃ b, Bytecode.ofBytes [3, 2, 0x23, 7, 0xFF] "main" .pixel = .ok b ∧ b.isSpirv) ∧
    ¬∃ ws, spirvWords [3, 2, 0x23, 7, 0xFF] = .ok ws := by
  obtain ⟨hwords, hbytes, hback⟩ := words_and_bytes_correspond
  have hread : spirvWords [3, 2, 0x23, 7, 0xFF, 0xFF, 0xFF, 0xFF] = .ok [spirvMagic, 0xFFFFFFFF] :=
    rfl
  refine ⟨hwords _ rfl, hback _ _ hread, ⟨_, rfl, rfl⟩, fun h => ?_⟩
  exact absurd ((hbytes _ "main" .pixel).1 h).2.1 (by decide)

end Module

end ShaderBuild
