import Mathlib.Data.Nat.Digits.Defs
import ShaderBuild.Proofs.Yaml.Nesting

namespace ShaderBuild.Yaml

namespace CoreSchema

theorem digit_range {c : Char} (h : c.isDigit) : 48 ≤ c.toNat ∧ c.toNat ≤ 57 := by
  simpa [Char.isDigit, UInt32.le_iff_toNat_le] using h

theorem hexValue?_digit {c : Char} (h : c.isDigit) :
    Text.hexValue? c = some (c.toNat - '0'.toNat) := by
  rw [Text.hexValue?, if_pos (digit_range h)]
  rfl

theorem digits?_eq {cs : List Char} (hne : cs ≠ []) (h : ∀ c ∈ cs, c.isDigit) :
    digits? 10 cs = some (Nat.ofDigitChars 10 cs 0) := by
  rw [digits?, if_neg (by simpa using hne)]
  generalize 0 = n
  clear hne
  induction cs generalizing n with
  | nil => rfl
  | cons c r ih =>
    rw [List.forall_mem_cons] at h
    have hlt : c.toNat - '0'.toNat < 10 := by
      have := (digit_range h.1).2
      show c.toNat - 48 < 10
      omega
    rw [List.foldlM_cons, hexValue?_digit h.1]
    simp only [Option.bind_some, hlt, if_true]
    exact ih h.2 _

theorem toDigits_of_leading_zero {n : Nat} (h : (Nat.toDigits 10 n).head? = some '0') :
    Nat.toDigits 10 n = ['0'] := by
  induction n using Nat.strongRecOn with
  | ind n ih =>
    obtain hlt | hle := Nat.lt_or_ge n 10
    · rw [Nat.toDigits_of_lt_base hlt] at h ⊢
      exact congrArg (· :: []) (Option.some.inj h)
    · obtain ⟨c, r, hc⟩ := List.exists_cons_of_ne_nil (Nat.toDigits_ne_nil (n := n / 10) (b := 10))
      rw [Nat.toDigits_of_base_le (by decide) hle, hc] at h
      have hq := ih (n / 10) (by omega) (by rw [hc]; exact h)
      have hzero : n / 10 = 0 := by
        rw [← Nat.ofDigitChars_ten_toDigits (n := n / 10), hq]
        rfl
      omega

theorem hasLeadingZero_toDigits (n : Nat) : hasLeadingZero (Nat.toDigits 10 n) = false := by
  have hd : ∀ c ∈ Nat.toDigits 10 n, c.isDigit := fun c hc =>
    Nat.isDigit_of_mem_toDigits (by decide) (by decide) hc
  have hz := toDigits_of_leading_zero (n := n)
  unfold hasLeadingZero
  generalize Nat.toDigits 10 n = cs at hd hz
  have hsign : (Decimal.Double.takeSign cs).2 = cs := by
    unfold Decimal.Double.takeSign
    split
    · exact absurd (hd '-' List.mem_cons_self) (by decide)
    · exact absurd (hd '+' List.mem_cons_self) (by decide)
    · rfl
  rw [hsign]
  split
  · cases hz rfl
  · rfl

theorem natural?_toString (n : Nat) : natural? (toString n) = some n := by
  have hd : ∀ c ∈ Nat.toDigits 10 n, c.isDigit := fun c hc =>
    Nat.isDigit_of_mem_toDigits (by decide) (by decide) hc
  have hv : digits? 10 (Nat.toDigits 10 n) = some n := by
    rw [digits?_eq Nat.toDigits_ne_nil hd, Nat.ofDigitChars_ten_toDigits]
  have hz := hasLeadingZero_toDigits n
  rw [natural?, Nat.toString_eq_ofList_toDigits, String.toList_ofList]
  generalize Nat.toDigits 10 n = cs at hd hv hz
  have hbase : prefixed? cs = none := by
    unfold prefixed?
    split
    · exact absurd (hd 'x' (by simp)) (by decide)
    · exact absurd (hd 'o' (by simp)) (by decide)
    · exact absurd (hd 'b' (by simp)) (by decide)
    · rfl
  split
  · exact absurd (hd '+' List.mem_cons_self) (by decide)
  · rw [hbase, hz, hv]
    rfl

theorem isNull_toString (n : Nat) : isNull (toString n) = false := by
  have hn := natural?_toString n
  by_contra h
  simp only [isNull, Bool.not_eq_false, List.contains_iff_mem, List.mem_cons, List.not_mem_nil,
    or_false] at h
  obtain h | h | h | h := h <;> rw [h] at hn <;> cases hn

end CoreSchema

/-- A text is written plain only where it does not look like nothing. -/
theorem ScalarStyle.plain_isSomething {s : String} (h : ScalarStyle.ofText s = .plain) :
    s.isEmpty = false ∧ CoreSchema.isNull s = false := by
  have hm : meansItself s := by
    unfold ofText at h
    grind
  simp only [meansItself, Bool.and_eq_true, beq_iff_eq] at hm
  have hm := hm.1
  unfold CoreSchema.meaning at hm
  split at hm
  · cases hm
  · next hs => simpa using hs

namespace Node

variable {α : Type}

def IsSomething : Node → Prop
  | reference _ => False
  | scalar p style s =>
    p.tag = none ∧ (style = .plain → s.isEmpty = false ∧ CoreSchema.isNull s = false)
  | _ => True

theorem readOption_of_isSomething {n : Node} (h : n.IsSomething) (reader : Node → Reading α) :
    n.readOption reader = some <$> reader n := by
  cases n with
  | reference => exact h.elim
  | scalar p style s =>
    obtain ⟨htag, hs⟩ := h
    cases style with
    | plain =>
      obtain ⟨he, hn⟩ := hs rfl
      show (if isTagged p "null" then _
        else if p.tag.isNone && (s.isEmpty || CoreSchema.isNull s) then _ else _) = _
      simp [isTagged, htag, he, hn]
    | _ => rfl
  | sequence => rfl
  | mapping => rfl

theorem ofText_isSomething (s : String) : (ofText s).IsSomething :=
  ⟨rfl, ScalarStyle.plain_isSomething⟩

theorem readText_ofText (s : String) : (ofText s).readText = pure s := rfl

theorem readName_ofText {ofName? : String → Option α} {s : String} {a : α}
    (h : ofName? s = some a) : (ofText s).readName ofName? = pure a := by
  simp [readName, ofText, resolve, h]

theorem readLabel_labelled {n : Node} {label : String} (hn : ∀ number, n ≠ reference number)
    (h : (Tag.ofLabel label).label? = some label) :
    (n.labelled label).readLabel = pure (label, n.labelled label) := by
  cases n with
  | reference number => exact (hn number rfl).elim
  | _ => simp [readLabel, labelled, resolve, tag?, properties, h]

theorem readText_labelled (label s : String) : ((ofText s).labelled label).readText = pure s := rfl

def readField (names : List String) (fields : List (String × Node)) (e : Node × Node) :
    Reading (List (String × Node)) := do
  let name ← e.1.readText
  if !names.contains name then return fields
  else if (fields.lookup name).isSome then throw Fault.duplicateKey
  else return fields ++ [(name, e.2)]

theorem foldlM_readField {names : List String} {fields : List (String × Node)}
    (before : List (String × Node))
    (hn : ((before ++ fields).map (·.1)).Nodup) (hnames : ∀ f ∈ fields, f.1 ∈ names) :
    (fields.map fun (name, n) => (ofWord name, n)).foldlM (readField names) before =
      pure (before ++ fields) := by
  induction fields generalizing before with
  | nil => simp
  | cons f r ih =>
    obtain ⟨name, n⟩ := f
    rw [List.forall_mem_cons] at hnames
    have hnew : before.lookup name = none := by
      rw [List.map_append, List.nodup_append] at hn
      refine List.lookup_eq_none_iff.2 fun f hf => bne_iff_ne.2 fun he => ?_
      exact hn.2.2 f.1 (List.mem_map_of_mem hf) name List.mem_cons_self he.symm
    have hstep : readField names before (ofWord name, n) = pure (before ++ [(name, n)]) := by
      show (if !names.contains name then pure before
        else if (before.lookup name).isSome then throw Fault.duplicateKey
        else pure (before ++ [(name, n)]) : Reading _) = _
      simp [hnames.1, hnew]
    rw [List.map_cons, List.foldlM_cons, hstep, pure_bind, List.append_cons before _ r]
    exact ih _ (by rwa [← List.append_cons]) hnames.2

section Fields

variable {fields : List (String × Node)} {names : List String}

theorem readFields_record (hnames : fields.map (·.1) = names) (h : names.Nodup) :
    (record fields).readFields true names = pure fields := by
  subst hnames
  exact foldlM_readField [] h fun _ hf => List.mem_map_of_mem hf

theorem readFields_labelled (label : String) (hnames : fields.map (·.1) = names)
    (h : names.Nodup) : ((record fields).labelled label).readFields true names = pure fields :=
  readFields_record hnames h

end Fields

theorem readList_sequence {p : Properties} {ns : List Node} (reader : Node → Reading α) :
    (sequence p ns).readList true reader = ns.mapM reader := rfl

theorem mapM_written {reader : Node → Reading α} {write : α → Node} {xs : List α}
    (h : ∀ x ∈ xs, reader (write x) = pure x) : (xs.map write).mapM reader = pure xs := by
  induction xs with
  | nil => rfl
  | cons x r ih =>
    rw [List.forall_mem_cons] at h
    rw [List.map_cons, List.mapM_cons, h.1, pure_bind, ih h.2, pure_bind]

end Node

/-- A tree whose text is read as the same tree, and as some value. -/
structure Node.ReadsBack (n : Node) : Prop where
  tree : Document.ofText n.render = .ok ⟨some n⟩
  value : ∃ v, Value.ofText n.render = .ok v

namespace Node.ReadsBack

variable {n : Node}

theorem depth_le (h : n.ReadsBack) : n.depth ≤ nestingLimit := by
  obtain ⟨v, hv⟩ := h.value
  rw [Value.ofText, bind_ok_iff] at hv
  obtain ⟨d, hd, hv⟩ := hv
  cases h.tree.symm.trans hd
  exact Value.depth_le_of_mayGive (Document.mayGive_of_read hv)

theorem of_toOption (ht : (Document.ofText n.render).toOption.bind (·.root) = some n)
    (hv : (Document.read ⟨some n⟩
      (·.elim (return .null) (Value.ofNode nestingLimit))).toOption.isSome) : n.ReadsBack := by
  have tree : Document.ofText n.render = .ok ⟨some n⟩ := by
    cases hd : Document.ofText n.render with
    | error f => rw [hd] at ht; cases ht
    | ok d =>
      rw [hd] at ht
      exact congrArg Except.ok (congrArg Document.mk ht)
  obtain ⟨v, hv⟩ := Option.isSome_iff_exists.1 hv
  refine ⟨tree, v, ?_⟩
  rw [Value.ofText, bind_ok_iff]
  exact ⟨_, tree, ok_of_toOption hv⟩

end Node.ReadsBack

theorem Token.scan_ofList (cs : List Char) : Token.scan (.ofList cs) =
    match cs.find? (!isAdmissible ·) with
    | some c => .error (.character c.toNat)
    | none => Lexer.run ((normalize cs).length + 1) { cursor := { rest := normalize cs } } := by
  have h : (String.ofList cs).toList = cs := String.toList_ofList
  unfold Token.scan
  generalize (String.ofList cs).toList = ds at h
  subst h
  rfl

end ShaderBuild.Yaml
