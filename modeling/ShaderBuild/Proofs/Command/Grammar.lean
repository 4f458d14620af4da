import ShaderBuild.Command.Arguments
import ShaderBuild.Proofs.Code.StructSize
import ShaderBuild.Proofs.Metadata.FirstSeen

namespace ShaderBuild.Command

open Code (OutputLanguage)

def Switch.words : Switch → List String
  | .metadata => ["-metadata"]
  | .reflection => ["-reflection"]
  | .builtin => ["-builtin"]
  | .serial => ["-serial"]
  | .verbose => ["-verbose"]
  | .help => ["-help", "-h", "--help"]

def AreSeconds (digits : List Char) (n : Nat) : Prop :=
  digits ≠ [] ∧ (∀ c ∈ digits, c.isDigit) ∧ n = Nat.ofDigitChars 10 digits 0 ∧
    0 < n ∧ n < UInt64.size

def IsSeconds (text : String) (n : Nat) : Prop :=
  AreSeconds text.toList n ∨ ∃ digits, text.toList = '+' :: digits ∧ AreSeconds digits n

/-- The words that a flag takes for its value. -/
def Flag.Takes : Flag → String → Prop
  | .stage, value => ∃ s : Stage, s.flagWord = value
  | .platform, value => ∃ p : Platform, p.flagWord = value
  | .api, value => ∃ x : Api, x.flagWord = value
  | .language, value => ∃ l : OutputLanguage, l.flagWord = value
  | .backend, value => ∃ b : SpirvBackend, b.name = value
  | .timeout, value => ∃ n, IsSeconds value n
  | _, _ => True

inductive Group
  | switch (s : Switch)
  | attached (text : String)
  | valued (flag : Flag) (value : String)

/-- The words that spell a group. -/
inductive Group.Spells : Group → List String → Prop
  | switch {s : Switch} {w : String} (h : w ∈ s.words) : Spells (.switch s) [w]
  | attached {text : String} (h : text ≠ "") : Spells (.attached text) ["-D" ++ text]
  | valued (flag : Flag) {value : String} (h : flag.Takes value) :
    Spells (.valued flag value) [flag.word, value]

/-- Words that split into groups from left to right. -/
inductive Splits : List String → List Group → Prop
  | nil : Splits [] []
  | cons {g : Group} {gs : List Group} {ws rest : List String} (h : g.Spells ws)
    (hrest : Splits rest gs) : Splits (ws ++ rest) (g :: gs)

def Group.given? : Group → Option (Flag × String)
  | .switch _ => none
  | .attached text => some (.define, text)
  | .valued flag value => some (flag, value)

def valuesOf (flag : Flag) (gs : List Group) : List String :=
  ((gs.filterMap Group.given?).filter (·.1 = flag)).map (·.2)

namespace Arguments

/-- What is known after a flag was given some values: the last one, where the flag stands for a
single value, every API where it came first, all defines and all directories. -/
def Holds (a : Arguments) : Flag → List String → Prop
  | .input, vs => a.input = vs.getLast?
  | .output, vs => a.output = vs.getLast?
  | .entryPoint, vs => a.entryPoint = vs.getLast?
  | .dxc, vs => a.dxc = vs.getLast?
  | .stage, vs => a.stage.map Stage.flagWord = vs.getLast?
  | .platform, vs => a.platform.map Platform.flagWord = vs.getLast?
  | .backend, vs => a.backend.map SpirvBackend.name = vs.getLast?
  | .language, vs => a.language.flagWord = vs.getLast?.getD OutputLanguage.cpp.flagWord
  | .timeout, vs => Option.Rel IsSeconds vs.getLast? a.timeout
  | .api, vs => a.apis.map Api.flagWord = vs.eraseDups
  | .define, vs => a.defines = vs
  | .includeDir, vs => a.includeDirs = vs

def isOn (a : Arguments) : Switch → Bool
  | .metadata => a.metadata
  | .reflection => a.reflection
  | .builtin => a.builtin
  | .serial => a.serial
  | .verbose => a.verbose
  | .help => a.help

/-- What groups say together. -/
structure Gathers (a : Arguments) (gs : List Group) : Prop where
  values : ∀ flag, a.Holds flag (valuesOf flag gs)
  switches : ∀ s, a.isOn s ↔ .switch s ∈ gs

end Arguments

section Words

theorem find?_spelling {α : Type} {xs : List α} {spell : α → String} (hall : ∀ a, a ∈ xs)
    (hinj : Function.Injective spell) {s : String} {a : α} :
    xs.find? (spell · == s) = some a ↔ spell a = s := by
  constructor
  · intro h
    have hs := List.find?_some h
    exact eq_of_beq hs
  · rintro rfl
    apply Code.find?_of_unique (p := (spell · == spell a)) (hall a) (beq_self_eq_true _)
    intro x _ hx
    exact hinj (eq_of_beq hx)

theorem stage_flagWord_injective : Function.Injective Stage.flagWord := by
  intro a b
  cases a <;> cases b <;> decide

theorem platform_flagWord_injective : Function.Injective Platform.flagWord := by
  intro a b
  cases a <;> cases b <;> decide

theorem api_flagWord_injective : Function.Injective Api.flagWord := by
  intro a b
  cases a <;> cases b <;> decide

theorem language_flagWord_injective : Function.Injective OutputLanguage.flagWord := by
  intro a b
  cases a <;> cases b <;> decide

theorem backend_name_injective : Function.Injective SpirvBackend.name := by
  intro a b
  cases a <;> cases b <;> decide

theorem flag_word_injective : Function.Injective Flag.word := by
  intro a b
  cases a <;> cases b <;> decide

theorem stage_ofFlagWord?_iff {s : String} {a : Stage} :
    Stage.ofFlagWord? s = some a ↔ a.flagWord = s := by
  apply find?_spelling _ stage_flagWord_injective
  intro a
  cases a <;> decide

theorem platform_ofFlagWord?_iff {s : String} {a : Platform} :
    Platform.ofFlagWord? s = some a ↔ a.flagWord = s := by
  apply find?_spelling _ platform_flagWord_injective
  intro a
  cases a <;> decide

theorem api_ofFlagWord?_iff {s : String} {a : Api} :
    Api.ofFlagWord? s = some a ↔ a.flagWord = s := by
  apply find?_spelling _ api_flagWord_injective
  intro a
  cases a <;> decide

theorem language_ofFlagWord?_iff {s : String} {a : OutputLanguage} :
    OutputLanguage.ofFlagWord? s = some a ↔ a.flagWord = s := by
  apply find?_spelling _ language_flagWord_injective
  intro a
  cases a <;> decide

theorem backend_ofName?_iff {s : String} {a : SpirvBackend} :
    SpirvBackend.ofName? s = some a ↔ a.name = s := by
  apply find?_spelling _ backend_name_injective
  intro a
  cases a <;> decide

theorem flag_ofWord?_iff {s : String} {f : Flag} : Flag.ofWord? s = some f ↔ f.word = s := by
  apply find?_spelling _ flag_word_injective
  intro a
  cases a <;> decide

theorem switch?_iff {w : String} {s : Switch} : switch? w = some s ↔ w ∈ s.words := by
  constructor
  · intro h
    unfold switch? at h
    split at h <;> cases h <;> decide
  · intro h
    cases s <;> simp only [Switch.words, List.mem_cons, List.not_mem_nil, or_false] at h
    case help => obtain rfl | rfl | rfl := h <;> rfl
    all_goals
      subst h
      rfl

theorem attachedDefine?_iff {w text : String} :
    attachedDefine? w = some text ↔ w = "-D" ++ text := by
  have htoList : ("-D" ++ text).toList = '-' :: 'D' :: text.toList := by simp
  rw [← String.toList_inj, htoList]
  unfold attachedDefine?
  split
  · next r heq =>
    rw [heq, Option.some.injEq, ← String.toList_inj, String.toList_ofList]
    simp
  · next hne =>
    simp only [reduceCtorEq, false_iff]
    intro h
    exact hne _ h

theorem areSeconds_iff {digits : List Char} {n : Nat} :
    (if digits.isEmpty || !digits.all Char.isDigit then none
      else if 0 < digitsValue digits ∧ digitsValue digits < UInt64.size then
        some (digitsValue digits)
      else none) = some n ↔ AreSeconds digits n := by
  have hvalue : digitsValue digits = Nat.ofDigitChars 10 digits 0 := rfl
  simp only [AreSeconds, ← hvalue]
  by_cases hd : digits ≠ [] ∧ ∀ c ∈ digits, c.isDigit
  · have hcond : (digits.isEmpty || !digits.all Char.isDigit) = false := by
      simpa using hd
    rw [hcond, if_neg Bool.false_ne_true, Option.ite_none_right_eq_some, Option.some.injEq]
    constructor
    · rintro ⟨hrange, rfl⟩
      exact ⟨hd.1, hd.2, rfl, hrange⟩
    · rintro ⟨-, -, rfl, hrange⟩
      exact ⟨hrange, rfl⟩
  · have hcond : (digits.isEmpty || !digits.all Char.isDigit) = true := by
      simpa [or_iff_not_imp_left] using hd
    rw [hcond, if_pos rfl]
    constructor
    · intro h
      cases h
    · intro h
      exact absurd ⟨h.1, h.2.1⟩ hd

theorem seconds?_iff {text : String} {n : Nat} : seconds? text = some n ↔ IsSeconds text n := by
  rw [IsSeconds, seconds?]
  split
  · next r heq =>
    rw [areSeconds_iff, heq]
    have hsign : ¬AreSeconds ('+' :: r) n := by
      intro h
      exact absurd (h.2.1 '+' List.mem_cons_self) (by decide)
    simp [hsign]
  · next hne =>
    rw [areSeconds_iff]
    constructor
    · exact .inl
    · rintro (h | ⟨digits, heq, -⟩)
      · exact h
      · exact absurd heq (hne digits)

end Words

section Reading

variable {a b : Arguments} {g : Group} {gs : List Group} {ws words rest : List String}

def Arguments.take (a : Arguments) : Group → Except Error Arguments
  | .switch s => .ok (a.enable s)
  | .attached text => a.set .define text
  | .valued flag value => a.set flag value

theorem switch?_flagWord (f : Flag) : switch? f.word = none := by
  cases f <;> rfl

theorem attached_unambiguous {text : String} (h : text ≠ "") :
    switch? ("-D" ++ text) = none ∧ Flag.ofWord? ("-D" ++ text) = none := by
  have hd : attachedDefine? ("-D" ++ text) = some text := attachedDefine?_iff.2 rfl
  constructor
  · apply Option.eq_none_iff_forall_ne_some.2
    intro s hs
    have hw : ∀ w ∈ s.words, attachedDefine? w = none := by
      cases s <;> decide
    rw [hw _ (switch?_iff.1 hs)] at hd
    cases hd
  · apply Option.eq_none_iff_forall_ne_some.2
    intro f hf
    have hw : ∀ text ∈ attachedDefine? f.word, text = "" := by
      cases f <;> decide
    rw [← flag_ofWord?_iff.1 hf] at hd
    exact h (hw text hd)

theorem read_spelled (h : g.Spells ws) (a : Arguments) (rest : List String) :
    a.read (ws ++ rest) = a.take g >>= fun b => b.read rest := by
  cases h with
  | switch hw =>
    rw [List.singleton_append, Arguments.read, switch?_iff.2 hw]
    rfl
  | attached ht =>
    obtain ⟨hs, hf⟩ := attached_unambiguous ht
    rw [List.singleton_append, Arguments.read, hs, hf, attachedDefine?_iff.2 rfl]
    rfl
  | valued flag hv =>
    rw [List.cons_append, List.singleton_append, Arguments.read, switch?_flagWord,
      flag_ofWord?_iff.2 rfl]
    rfl

theorem read_of_splits (h : Splits words gs) (a : Arguments) :
    a.read words = gs.foldlM Arguments.take a := by
  induction h generalizing a with
  | nil => rfl
  | cons hg hrest ih =>
    rw [read_spelled hg, List.foldlM_cons]
    simp only [ih]

theorem exists_set_iff {flag : Flag} {value : String} :
    (∃ b, a.set flag value = .ok b) ↔ flag.Takes value := by
  cases flag <;> simp [Arguments.set, Flag.Takes, stage_ofFlagWord?_iff, platform_ofFlagWord?_iff,
    api_ofFlagWord?_iff, language_ofFlagWord?_iff, backend_ofName?_iff, seconds?_iff]

theorem exists_splits (h : a.read words = .ok b) : ∃ gs, Splits words gs := by
  fun_induction Arguments.read a words with
  | case1 a => exact ⟨[], .nil⟩
  | case2 a w r s hs ih =>
    obtain ⟨gs, hgs⟩ := ih h
    exact ⟨_, .cons (.switch (switch?_iff.1 hs)) hgs⟩
  | case3 a w hs f hf => cases h
  | case4 a w hs f hf v r ih =>
    obtain ⟨c, hc, h⟩ := (bind_ok_iff ..).1 h
    obtain ⟨gs, hgs⟩ := ih c h
    obtain rfl := flag_ofWord?_iff.1 hf
    exact ⟨_, .cons (.valued _ (exists_set_iff.1 ⟨c, hc⟩)) hgs⟩
  | case5 a w r hs hf text ht ih =>
    obtain ⟨gs, hgs⟩ := ih h
    obtain rfl := attachedDefine?_iff.1 ht
    refine ⟨_, .cons (.attached ?_) hgs⟩
    rintro rfl
    cases hf
  | case6 a w r hs hf ht => cases h

theorem need_map_error {α β : Type} {x : Option α} {f : α → β} {e e' : Error}
    (h : (need x e >>= fun v => pure (f v)) = .error e') : e' = e := by
  cases x with
  | some v => cases h
  | none =>
    cases h
    rfl

theorem set_error {flag : Flag} {value : String} {e : Error} (h : a.set flag value = .error e) :
    e.kind = .configuration := by
  cases flag with
  | input | output | entryPoint | define | includeDir | dxc => cases h
  | stage | platform | api | language | backend | timeout =>
    obtain rfl := need_map_error h
    rfl

theorem read_error {e : Error} (h : a.read words = .error e) : e.kind = .configuration := by
  fun_induction Arguments.read a words with
  | case1 a => cases h
  | case2 a w r s hs ih => exact ih h
  | case3 a w hs f hf =>
    cases h
    rfl
  | case4 a w hs f hf v r ih =>
    cases hc : a.set f v with
    | ok c =>
      rw [hc] at h
      exact ih c h
    | error e' =>
      rw [hc] at h
      cases h
      exact set_error hc
  | case5 a w r hs hf text ht ih => exact ih h
  | case6 a w r hs hf ht =>
    cases h
    rfl

theorem splits_iff {words : List String} {gs : List Group} : Splits words gs ↔
    words = [] ∧ gs = [] ∨ ∃ g hs ws rest, words = ws ++ rest ∧ gs = g :: hs ∧ g.Spells ws ∧
      Splits rest hs := by
  constructor
  · intro h
    cases h with
    | nil => exact .inl ⟨rfl, rfl⟩
    | cons hg hrest => exact .inr ⟨_, _, _, _, rfl, rfl, hg, hrest⟩
  · rintro (⟨rfl, rfl⟩ | ⟨g, hs, ws, rest, rfl, rfl, hg, hrest⟩)
    · exact .nil
    · exact .cons hg hrest

def nextGroup? : List String → Option (Group × List String)
  | [] => none
  | w :: r =>
    match switch? w with
    | some s => some (.switch s, r)
    | none =>
      match Flag.ofWord? w with
      | some flag => r.head?.map fun value => (.valued flag value, r.tail)
      | none => (attachedDefine? w).map fun text => (.attached text, r)

theorem nextGroup?_spelled (h : g.Spells ws) (rest : List String) :
    nextGroup? (ws ++ rest) = some (g, rest) := by
  cases h with
  | switch hw => simp [nextGroup?, switch?_iff.2 hw]
  | attached ht => simp [nextGroup?, attached_unambiguous ht, attachedDefine?_iff.2 rfl]
  | valued flag hv => simp [nextGroup?, switch?_flagWord, flag_ofWord?_iff.2 rfl]

theorem splits_unique {hs : List Group} (h : Splits words gs) (h' : Splits words hs) : gs = hs := by
  induction h generalizing hs with
  | nil =>
    obtain ⟨-, rfl⟩ | ⟨g, hs, ws, rest, heq, rfl, hg, -⟩ := splits_iff.1 h'
    · rfl
    · cases hg <;> cases heq
  | @cons g gs ws rest hg hrest ih =>
    obtain ⟨heq, -⟩ | ⟨h, hs, vs, rest', heq, rfl, hh, hrest'⟩ := splits_iff.1 h'
    · cases hg <;> cases heq
    · have hnext := nextGroup?_spelled hg rest
      rw [heq, nextGroup?_spelled hh rest'] at hnext
      cases hnext
      rw [ih hrest']

end Reading

section Gathering

variable {a b : Arguments} {flag : Flag} {value : String} {gs : List Group}

def Arguments.Changes (a b : Arguments) (value : String) : Flag → Prop
  | .input => b = { a with input := some value }
  | .output => b = { a with output := some value }
  | .entryPoint => b = { a with entryPoint := some value }
  | .dxc => b = { a with dxc := some value }
  | .stage => ∃ s : Stage, s.flagWord = value ∧ b = { a with stage := some s }
  | .platform => ∃ p : Platform, p.flagWord = value ∧ b = { a with platform := some p }
  | .backend => ∃ k : SpirvBackend, k.name = value ∧ b = { a with backend := some k }
  | .language => ∃ l : OutputLanguage, l.flagWord = value ∧ b = { a with language := l }
  | .timeout => ∃ n, IsSeconds value n ∧ b = { a with timeout := some n }
  | .api => ∃ x : Api, x.flagWord = value ∧
    b = { a with apis := if a.apis.contains x then a.apis else a.apis ++ [x] }
  | .define => b = { a with defines := a.defines ++ [value] }
  | .includeDir => b = { a with includeDirs := a.includeDirs ++ [value] }

theorem set_changes (h : a.set flag value = .ok b) : a.Changes b value flag := by
  cases flag with
  | input | output | entryPoint | define | includeDir | dxc =>
    cases h
    rfl
  | api =>
    obtain ⟨x, hx, hb⟩ := (bind_ok_iff ..).1 h
    refine ⟨x, api_ofFlagWord?_iff.1 ((need_ok_iff ..).1 hx), ?_⟩
    by_cases hmem : a.apis.contains x
    · rw [if_pos hmem] at hb ⊢
      cases hb
      rfl
    · rw [if_neg hmem] at hb ⊢
      cases hb
      rfl
  | stage | platform | language | backend | timeout =>
    obtain ⟨v, hv, hb⟩ := (bind_ok_iff ..).1 h
    cases hb
    rw [need_ok_iff] at hv
    refine ⟨v, ?_, rfl⟩
    first
      | exact stage_ofFlagWord?_iff.1 hv
      | exact platform_ofFlagWord?_iff.1 hv
      | exact language_ofFlagWord?_iff.1 hv
      | exact backend_ofName?_iff.1 hv
      | exact seconds?_iff.1 hv

theorem set_isOn (h : a.set flag value = .ok b) (s : Switch) : b.isOn s = a.isOn s := by
  have hb := set_changes h
  cases flag with
  | input | output | entryPoint | define | includeDir | dxc =>
    subst hb
    cases s <;> rfl
  | stage | platform | api | language | backend | timeout =>
    obtain ⟨v, -, rfl⟩ := hb
    cases s <;> rfl

theorem set_other (h : a.set flag value = .ok b) {other : Flag} (hne : flag ≠ other)
    (vs : List String) : b.Holds other vs ↔ a.Holds other vs := by
  have hb := set_changes h
  cases flag with
  | input | output | entryPoint | define | includeDir | dxc =>
    subst hb
    cases other <;> first | exact absurd rfl hne | exact Iff.rfl
  | stage | platform | api | language | backend | timeout =>
    obtain ⟨v, -, rfl⟩ := hb
    cases other <;> first | exact absurd rfl hne | exact Iff.rfl

theorem set_same (h : a.set flag value = .ok b) {vs : List String} (ha : a.Holds flag vs) :
    b.Holds flag (vs ++ [value]) := by
  have hb := set_changes h
  cases flag with
  | input | output | entryPoint | dxc =>
    subst hb
    exact List.getLast?_concat.symm
  | define | includeDir =>
    subst hb
    exact congrArg (· ++ [value]) ha
  | stage | platform | language | backend =>
    obtain ⟨v, rfl, rfl⟩ := hb
    simp [Arguments.Holds]
  | timeout =>
    obtain ⟨n, hn, rfl⟩ := hb
    rw [Arguments.Holds, List.getLast?_concat]
    exact .some hn
  | api =>
    obtain ⟨x, rfl, rfl⟩ := hb
    have hmem : x.flagWord ∈ vs ↔ a.apis.contains x := by
      rw [← List.mem_eraseDups, ← ha, List.mem_map_of_injective api_flagWord_injective,
        List.contains_iff_mem]
    by_cases hx : a.apis.contains x
    · rw [Arguments.Holds, if_pos hx, eraseDups_snoc_of_mem (hmem.2 hx)]
      exact ha
    · rw [Arguments.Holds, if_neg hx, eraseDups_snoc_of_not_mem (mt hmem.1 hx), List.map_append]
      exact congrArg (· ++ [x.flagWord]) ha

theorem valuesOf_concat (gs : List Group) (g : Group) (flag : Flag) :
    valuesOf flag (gs ++ [g]) = valuesOf flag gs ++ valuesOf flag [g] := by
  simp [valuesOf]

theorem Arguments.Gathers.give (h : a.Gathers gs) {g : Group} (hg : g.given? = some (flag, value))
    (hb : a.set flag value = .ok b) : b.Gathers (gs ++ [g]) := by
  constructor
  · intro other
    rw [valuesOf_concat]
    by_cases hf : flag = other
    · subst hf
      have hone : valuesOf flag [g] = [value] := by simp [valuesOf, hg]
      rw [hone]
      exact set_same hb (h.values flag)
    · have hone : valuesOf other [g] = [] := by simp [valuesOf, hg, hf]
      rw [hone, List.append_nil]
      exact (set_other hb hf _).2 (h.values other)
  · intro s
    have hne : Group.switch s ≠ g := by
      rintro rfl
      cases hg
    rw [set_isOn hb, h.switches, List.mem_append, List.mem_singleton]
    exact (or_iff_left hne).symm

theorem Arguments.Gathers.enable (h : a.Gathers gs) (s : Switch) :
    (a.enable s).Gathers (gs ++ [.switch s]) := by
  constructor
  · intro flag
    have hsame : (a.enable s).Holds flag (valuesOf flag gs) ↔ a.Holds flag (valuesOf flag gs) := by
      cases s <;> cases flag <;> rfl
    rw [valuesOf_concat, show valuesOf flag [.switch s] = [] from rfl, List.append_nil]
    exact hsame.2 (h.values flag)
  · intro t
    have hon : (a.enable s).isOn t ↔ a.isOn t ∨ t = s := by
      cases s <;> cases t <;> simp [Arguments.isOn, Arguments.enable]
    rw [hon, h.switches, List.mem_append, List.mem_singleton, Group.switch.injEq]

theorem Arguments.Gathers.take (h : a.Gathers gs) {g : Group} (hb : a.take g = .ok b) :
    b.Gathers (gs ++ [g]) := by
  cases g with
  | switch s =>
    cases hb
    exact h.enable s
  | attached text => exact h.give rfl hb
  | valued flag value => exact h.give rfl hb

/-- One group after the other. -/
theorem Arguments.Gathers.run (h : a.Gathers gs) {hs : List Group}
    (hb : hs.foldlM Arguments.take a = .ok b) : b.Gathers (gs ++ hs) := by
  induction hs generalizing a gs with
  | nil =>
    cases hb
    rwa [List.append_nil]
  | cons g hs ih =>
    obtain ⟨c, hc, hb⟩ := (bind_ok_iff ..).1 hb
    rw [List.append_cons]
    exact ih (h.take hc) hb

theorem gathers_nil : ({} : Arguments).Gathers [] := by
  constructor
  · intro flag
    cases flag with
    | timeout => exact .none
    | _ => rfl
  · intro s
    cases s <;> simp [Arguments.isOn]

theorem seconds_unique {text : Option String} {m n : Option Nat}
    (hm : Option.Rel IsSeconds text m) (hn : Option.Rel IsSeconds text n) : m = n := by
  cases hm with
  | none =>
    cases hn
    rfl
  | some hm =>
    cases hn with
    | some hn => exact (seconds?_iff.2 hm).symm.trans (seconds?_iff.2 hn)

/-- The groups leave nothing open. -/
theorem Arguments.Gathers.unique (ha : a.Gathers gs) (hb : b.Gathers gs) : a = b := by
  have hon (s : Switch) : a.isOn s = b.isOn s :=
    Bool.eq_iff_iff.2 ((ha.switches s).trans (hb.switches s).symm)
  have hinput : a.input = b.input := (ha.values .input).trans (hb.values .input).symm
  have houtput : a.output = b.output := (ha.values .output).trans (hb.values .output).symm
  have hentry : a.entryPoint = b.entryPoint :=
    (ha.values .entryPoint).trans (hb.values .entryPoint).symm
  have hdxc : a.dxc = b.dxc := (ha.values .dxc).trans (hb.values .dxc).symm
  have hstage : a.stage = b.stage := Option.map_injective stage_flagWord_injective
    ((ha.values .stage).trans (hb.values .stage).symm)
  have hplatform : a.platform = b.platform := Option.map_injective platform_flagWord_injective
    ((ha.values .platform).trans (hb.values .platform).symm)
  have hbackend : a.backend = b.backend := Option.map_injective backend_name_injective
    ((ha.values .backend).trans (hb.values .backend).symm)
  have hlanguage : a.language = b.language := language_flagWord_injective
    ((ha.values .language).trans (hb.values .language).symm)
  have hapis : a.apis = b.apis := List.map_injective_iff.2 api_flagWord_injective
    ((ha.values .api).trans (hb.values .api).symm)
  have hdefines : a.defines = b.defines := (ha.values .define).trans (hb.values .define).symm
  have hdirs : a.includeDirs = b.includeDirs :=
    (ha.values .includeDir).trans (hb.values .includeDir).symm
  have htimeout : a.timeout = b.timeout := seconds_unique (ha.values .timeout) (hb.values .timeout)
  have hmetadata := hon .metadata
  have hreflection := hon .reflection
  have hbuiltin := hon .builtin
  have hserial := hon .serial
  have hverbose := hon .verbose
  have hhelp := hon .help
  cases a
  cases b
  simp only [Arguments.isOn] at *
  simp only [*]

theorem exists_take {g : Group} {ws : List String} (h : g.Spells ws) (a : Arguments) :
    ∃ b, a.take g = .ok b := by
  cases h with
  | switch hw => exact ⟨_, rfl⟩
  | attached ht => exact ⟨_, rfl⟩
  | valued flag hv => exact exists_set_iff.2 hv

theorem exists_run {words : List String} (h : Splits words gs) (a : Arguments) :
    ∃ b, gs.foldlM Arguments.take a = .ok b := by
  induction h generalizing a with
  | nil => exact ⟨a, rfl⟩
  | cons hg hrest ih =>
    obtain ⟨b, hb⟩ := exists_take hg a
    obtain ⟨c, hc⟩ := ih b
    exact ⟨c, by rw [List.foldlM_cons, hb]; exact hc⟩

end Gathering

/-- Words are read exactly where they split into groups, which they do in one way at most, and what
is read is what the groups say together. All other words are a fault of the configuration. -/
theorem command_line_is_its_groups (words : List String) :
    (∀ a, Arguments.parse words = .ok a ↔ ∃ gs, Splits words gs ∧ a.Gathers gs) ∧
    ((∃ a, Arguments.parse words = .ok a) ↔ ∃ gs, Splits words gs) ∧
    (¬(∃ gs, Splits words gs) →
      ∃ e, Arguments.parse words = .error e ∧ e.kind = .configuration) ∧
    ∀ gs hs, Splits words gs → Splits words hs → gs = hs := by
  have hread {gs : List Group} (h : Splits words gs) :
      ∃ a, Arguments.parse words = .ok a ∧ a.Gathers gs := by
    obtain ⟨a, ha⟩ := exists_run h {}
    exact ⟨a, (read_of_splits h _).trans ha, gathers_nil.run ha⟩
  refine ⟨fun a => ⟨fun h => ?_, ?_⟩, ⟨fun ⟨a, h⟩ => exists_splits h, ?_⟩, fun h => ?_, ?_⟩
  · obtain ⟨gs, hgs⟩ := exists_splits h
    obtain ⟨b, hb, hgathers⟩ := hread hgs
    rw [h] at hb
    cases hb
    exact ⟨gs, hgs, hgathers⟩
  · rintro ⟨gs, hgs, hgathers⟩
    obtain ⟨b, hb, hgathers'⟩ := hread hgs
    rwa [hgathers.unique hgathers']
  · rintro ⟨gs, hgs⟩
    obtain ⟨a, ha, -⟩ := hread hgs
    exact ⟨a, ha⟩
  · cases hp : Arguments.parse words with
    | ok a => exact absurd (exists_splits hp) h
    | error e => exact ⟨e, rfl, read_error hp⟩
  · intro gs hs
    exact splits_unique

def crowded : List String :=
  ["-input", "-metadata", "-DFOG", "-graphicsapi", "d3d12", "-D", "SAMPLES=4", "-timeout", "+007",
    "-graphicsapi", "vulkan", "-h", "-graphicsapi", "d3d12", "-timeout", "5"]

def crowdedGroups : List Group :=
  [.valued .input "-metadata", .attached "FOG", .valued .api "d3d12", .valued .define "SAMPLES=4",
    .valued .timeout "+007", .valued .api "vulkan", .switch .help, .valued .api "d3d12",
    .valued .timeout "5"]

theorem crowded_splits : Splits crowded crowdedGroups := by
  have seconds {text : String} {n : Nat} (h : seconds? text = some n) : Flag.timeout.Takes text :=
    ⟨n, seconds?_iff.1 h⟩
  apply Splits.cons (.valued .input trivial)
  apply Splits.cons (.attached (by decide : "FOG" ≠ ""))
  apply Splits.cons (.valued .api ⟨.d3d12, rfl⟩)
  apply Splits.cons (.valued .define trivial)
  apply Splits.cons (.valued .timeout (seconds (by decide : seconds? "+007" = some 7)))
  apply Splits.cons (.valued .api ⟨.vulkan, rfl⟩)
  apply Splits.cons (.switch (by decide : "-h" ∈ Switch.help.words))
  apply Splits.cons (.valued .api ⟨.d3d12, rfl⟩)
  apply Splits.cons (.valued .timeout (seconds (by decide : seconds? "5" = some 5)))
  exact .nil

/-- The last time limit counts, and a flag at the end lacks its value. -/
theorem crowded_is_read : Splits crowded crowdedGroups ∧
    (∃ a, Arguments.parse crowded = .ok a ∧ a.Gathers crowdedGroups ∧ a.timeout = some 5) ∧
    ¬(∃ gs, Splits (crowded ++ ["-output"]) gs) ∧
    ∃ e, Arguments.parse (crowded ++ ["-output"]) = .error e ∧ e.kind = .configuration := by
  obtain ⟨hok, hread, -, hunique⟩ := command_line_is_its_groups crowded
  obtain ⟨-, hread', hfault, -⟩ := command_line_is_its_groups (crowded ++ ["-output"])
  obtain ⟨a, ha⟩ := hread.2 ⟨_, crowded_splits⟩
  obtain ⟨gs, hgs, hgathers⟩ := (hok a).1 ha
  obtain rfl := hunique _ _ hgs crowded_splits
  have htimeout : a.timeout = some 5 := by
    have hlimit : (Arguments.parse crowded).toOption.map (·.timeout) = some (some 5) := by decide
    rw [ha] at hlimit
    exact Option.some.inj hlimit
  have hlacks : ¬∃ gs, Splits (crowded ++ ["-output"]) gs := by
    rintro hsplits
    obtain ⟨b, hb⟩ := hread'.2 hsplits
    have hnone : (Arguments.parse (crowded ++ ["-output"])).toOption = none := by decide
    rw [hb] at hnone
    cases hnone
  exact ⟨hgs, ⟨a, ha, hgathers, htimeout⟩, hlacks, hfault hlacks⟩

end ShaderBuild.Command
