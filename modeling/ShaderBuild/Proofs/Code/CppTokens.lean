import Mathlib.Data.List.DropRight
import ShaderBuild.Code.Cpp
import ShaderBuild.Proofs.Text.Identifiers
import ShaderBuild.Proofs.Text.Lines

namespace ShaderBuild.Code.Cpp

open Text (Directive Page isWord)

/-- Which lines a standard joins: some, such as C++23, pass over blanks behind the backslash. -/
class Standard where
  passesBlanks : Bool

abbrev Standard.cpp17 : Standard := ⟨false⟩

abbrev Standard.cpp23 : Standard := ⟨true⟩

section Stem

variable [Standard]

/-- Blanks that may stand between a backslash and the end of its line. -/
def isPassed (c : Char) : Bool := [' ', '\t', '\x0b', '\x0c'].contains c && Standard.passesBlanks

def stem (l : List Char) : List Char := l.rdropWhile isPassed

theorem stem_append (a b : List Char) :
    stem (a ++ b) = if stem b = [] then stem a else a ++ stem b := by
  simp only [stem, List.rdropWhile, List.reverse_append, List.dropWhile_append, List.isEmpty_iff,
    List.reverse_eq_nil_iff]
  split <;> simp

/-- Indentation does not connect lines. -/
theorem stem_unindented (l : List Char) :
    (stem (Page.unindented l)).getLast? = some '\\' ↔ (stem l).getLast? = some '\\' := by
  have hblank : (stem (l.takeWhile (· == ' '))).getLast? ≠ some '\\' := by
    intro h
    have hm := (List.rdropWhile_prefix _ _).subset (List.mem_of_getLast? h)
    simpa using List.mem_takeWhile_imp hm
  have hsplit : l.takeWhile (· == ' ') ++ Page.unindented l = l := List.takeWhile_append_dropWhile
  rw [← congrArg stem hsplit, stem_append]
  split
  · next h => simp [h, hblank]
  · next h => rw [List.getLast?_append, Option.or_of_isSome (by simpa using h)]

end Stem

inductive Token
  | word (spelling : List Char)
  | literal
  | mark (c : Char)
  | other
deriving DecidableEq, Repr

abbrev Token.of (s : String) : Token := .word s.toList

/-- What stands in front of a character in its line. -/
inductive Mode
  | start
  | gap
  | word (spelling : List Char)
  | slash
  /-- A comment or a line for the preprocessor, perhaps with a backslash at the end. -/
  | ignored (backslash : Bool)
  | literal
  | escape
deriving DecidableEq, Repr

/-- A line read up to some character; the last token comes first. -/
structure Scan where
  mode : Mode
  tokens : List Token
deriving DecidableEq, Repr

def marks : List Char :=
  ['{', '}', '(', ')', '[', ']', '<', '>', ';', ':', ',', '.', '&', '*', '=', '!', '?', '-']

namespace Scan

def begin : Scan := ⟨.start, []⟩

def fresh (ts : List Token) (c : Char) : Scan :=
  if c == ' ' then ⟨.gap, ts⟩
  else if isWord c then ⟨.word [c], ts⟩
  else if c == '/' then ⟨.slash, ts⟩
  else if c == '"' then ⟨.literal, ts⟩
  else if marks.contains c then ⟨.gap, .mark c :: ts⟩
  else ⟨.gap, .other :: ts⟩

def finish (s : Scan) : List Token :=
  match s.mode with
  | .start | .gap | .ignored false => s.tokens.reverse
  | .word w => (.word w :: s.tokens).reverse
  | .slash => (.mark '/' :: s.tokens).reverse
  | .ignored true | .literal | .escape => (.other :: s.tokens).reverse

theorem subset_finish (s : Scan) : s.tokens ⊆ s.finish := by
  unfold finish
  intro t ht
  split <;> simp [ht]

/-- The line has not come to an end, or something in it is not read. -/
def Open (s : Scan) : Prop :=
  .other ∈ s.tokens ∨ s.mode = .ignored true ∨ s.mode = .literal ∨ s.mode = .escape

theorem Open.other_mem_finish {s : Scan} (h : s.Open) : .other ∈ s.finish := by
  rcases h with h | h | h | h
  · exact subset_finish s h
  all_goals simp [finish, h]

variable [Standard]

def step (s : Scan) (c : Char) : Scan :=
  if c == '\n' then ⟨.start, .other :: s.tokens⟩
  else match s.mode with
    | .start =>
      if c == ' ' then s else if c == '#' then ⟨.ignored false, s.tokens⟩ else fresh s.tokens c
    | .gap => fresh s.tokens c
    | .word w =>
      if isWord c then ⟨.word (w ++ [c]), s.tokens⟩
      else if c == '"' then ⟨.literal, .other :: s.tokens⟩
      else fresh (.word w :: s.tokens) c
    | .slash =>
      if c == '/' then ⟨.ignored false, s.tokens⟩
      else if c == '*' then ⟨.gap, .other :: s.tokens⟩
      else fresh (.mark '/' :: s.tokens) c
    | .ignored b => ⟨.ignored (c == '\\' || b && isPassed c), s.tokens⟩
    | .literal =>
      if c == '"' then ⟨.gap, .literal :: s.tokens⟩
      else if c == '\\' then ⟨.escape, s.tokens⟩
      else s
    | .escape => ⟨.literal, s.tokens⟩

def run (s : Scan) (cs : List Char) : Scan := cs.foldl step s

end Scan

section Reading

variable [Standard]

def lexLine (l : List Char) : List Token := (Scan.begin.run l).finish

/-- Lines with those joined that a backslash connects. -/
def splice (before : List Char) : List (List Char) → List (List Char)
  | [] => [before]
  | l :: ls =>
    if (stem l).getLast? = some '\\' then splice (before ++ (stem l).dropLast) ls
    else (before ++ l) :: splice [] ls

def tokens (s : String) : List Token := (splice [] (Page.splitLines s.toList)).flatMap lexLine

def lexes (ds : List Directive) : List Token := ds.flatMap fun d => lexLine d.text.toList

@[simp]
theorem lexes_nil : lexes [] = [] := rfl

@[simp]
theorem lexes_cons (d : Directive) (ds : List Directive) :
    lexes (d :: ds) = lexLine d.text.toList ++ lexes ds := rfl

@[simp]
theorem lexes_append (ds es : List Directive) : lexes (ds ++ es) = lexes ds ++ lexes es :=
  List.flatMap_append

namespace Scan

variable {s : Scan} {ts : List Token} {c : Char} {cs : List Char} {n : String}

theorem run_append (s : Scan) (a b : List Char) : s.run (a ++ b) = (s.run a).run b :=
  List.foldl_append

theorem run_cons (s : Scan) (c : Char) (cs : List Char) : s.run (c :: cs) = (s.step c).run cs := rfl

section Clean

theorem tokens_suffix_step (s : Scan) (c : Char) : s.tokens <:+ (s.step c).tokens := by
  have hfresh (ts : List Token) : ts <:+ (fresh ts c).tokens := by
    unfold fresh
    (repeat' split) <;> simp
  unfold step
  split
  · simp
  · cases s.mode with
    | start => dsimp only; (repeat' split) <;> simp [hfresh]
    | gap => exact hfresh _
    | word w =>
      dsimp only
      (repeat' split) <;> first | exact (List.suffix_cons _ _).trans (hfresh _) | simp
    | slash =>
      dsimp only
      (repeat' split) <;> first | exact (List.suffix_cons _ _).trans (hfresh _) | simp
    | ignored => simp
    | literal => dsimp only; (repeat' split) <;> simp
    | escape => simp

theorem tokens_suffix_run (s : Scan) (cs : List Char) : s.tokens <:+ (s.run cs).tokens := by
  induction cs generalizing s with
  | nil => exact List.suffix_rfl
  | cons c cs ih => exact (tokens_suffix_step s c).trans (ih _)

theorem subset_run_finish (s : Scan) (cs : List Char) : s.tokens ⊆ (s.run cs).finish :=
  fun _ ht => subset_finish _ ((tokens_suffix_run s cs).subset ht)

end Clean

section Open

theorem Open.step (h : s.Open) (hc : isPassed c) : (s.step c).Open := by
  have hspecial : isPassed '\n' = false ∧ isPassed '"' = false ∧ isPassed '\\' = false :=
    ⟨rfl, rfl, rfl⟩
  obtain ⟨hline, hquote, hslash⟩ : c ≠ '\n' ∧ c ≠ '"' ∧ c ≠ '\\' := by
    refine ⟨?_, ?_, ?_⟩ <;> rintro rfl <;> simp_all
  rcases h with h | h | h | h
  · exact .inl ((tokens_suffix_step s c).subset h)
  · simp [Scan.step, Open, hline, h, hc]
  · simp [Scan.step, Open, hline, h, hquote, hslash]
  · simp [Scan.step, Open, hline, h]

theorem Open.run (h : s.Open) (hcs : ∀ c ∈ cs, isPassed c) : (s.run cs).Open := by
  induction cs generalizing s with
  | nil => exact h
  | cons c cs ih =>
    obtain ⟨hc, hcs⟩ := List.forall_mem_cons.1 hcs
    exact ih (h.step hc) hcs

theorem open_step_backslash (s : Scan) : (s.step '\\').Open := by
  have hfresh (ts : List Token) : fresh ts '\\' = ⟨.gap, .other :: ts⟩ := rfl
  obtain ⟨mode, ts⟩ := s
  cases mode <;> simp [Scan.step, Open, hfresh, isWord]

end Open

/-- A line that is read completely has no line break in it, and no other line goes on behind it. -/
theorem clean_of_lexLine {l : List Char} (h : Token.other ∉ lexLine l) :
    '\n' ∉ l ∧ (stem l).getLast? ≠ some '\\' := by
  constructor
  · intro hm
    obtain ⟨a, b, rfl⟩ := List.append_of_mem hm
    rw [lexLine, run_append, run_cons] at h
    refine h (subset_run_finish _ b ?_)
    simp [step]
  · intro hlast
    obtain ⟨a, ha⟩ := List.getLast?_eq_some_iff.1 hlast
    have hl : a ++ '\\' :: l.rtakeWhile isPassed = l := by
      rw [← List.singleton_append, ← List.append_assoc, ← ha]
      exact List.rdropWhile_append_rtakeWhile
    rw [← hl, lexLine, run_append, run_cons] at h
    exact h ((open_step_backslash _).run fun c => List.mem_rtakeWhile_imp).other_mem_finish

end Scan

theorem splice_of_plain {ls : List (List Char)} (h : ∀ l ∈ ls, (stem l).getLast? ≠ some '\\') :
    splice [] ls = ls ++ [[]] := by
  induction ls with
  | nil => rfl
  | cons l ls ih =>
    obtain ⟨hl, hls⟩ := List.forall_mem_cons.1 h
    rw [splice, if_neg hl, ih hls, List.nil_append, List.cons_append]

/-- A page whose lines are read completely has the tokens of its lines. -/
theorem tokens_render {ds : List Directive} (h : Token.other ∉ lexes ds) :
    tokens (Text.render ds) = lexes ds := by
  have hclean : ∀ d ∈ ds, '\n' ∉ d.text.toList ∧ (stem d.text.toList).getLast? ≠ some '\\' :=
    fun d hd => Scan.clean_of_lexLine fun hm => h (List.mem_flatMap.2 ⟨d, hd, hm⟩)
  have hcontent := Text.content_render fun d hd => (hclean d hd).1
  have hends : ∀ l ∈ Page.splitLines (Text.render ds).toList, (stem l).getLast? ≠ some '\\' := by
    intro l hl hlast
    have hlast' := (stem_unindented l).2 hlast
    have hne : Page.unindented l ≠ [] := by
      intro hempty
      simp [hempty, stem] at hlast'
    have hmem : Page.unindented l ∈ Page.content (ds.map fun d => d.text.toList) :=
      hcontent ▸ List.mem_filter.2 ⟨List.mem_map_of_mem hl, by simpa using hne⟩
    obtain ⟨t, ht, heq⟩ := List.mem_map.1 (List.mem_filter.1 hmem).1
    obtain ⟨d, hd, rfl⟩ := List.mem_map.1 ht
    exact (hclean d hd).2 ((stem_unindented _).1 (heq ▸ hlast'))
  have hread (ls : List (List Char)) : (Page.content ls).flatMap lexLine = ls.flatMap lexLine :=
    Page.flatMap_content rfl (fun _ => rfl) ls
  rw [tokens, splice_of_plain hends, List.flatMap_append, ← hread, hcontent, hread,
    List.flatMap_map]
  exact List.append_nil _

end Reading

section Names

/-- A name or a number: something that is one word wherever it stands. -/
structure IsWord (n : String) : Prop where
  wordy : Text.Wordy n
  nonempty : n ≠ ""

theorem isWord_of_isIdentifier {n : String} (h : Text.isIdentifier n) : IsWord n :=
  ⟨Text.wordy_of_isIdentifier h, by rintro rfl; exact absurd h (by decide)⟩

theorem isWord_toString (n : Nat) : IsWord (toString n) := by
  have hdigits : (toString n).toList = Nat.toDigits 10 n := by simp
  constructor
  · intro c hc
    rw [hdigits] at hc
    have hdigit := Nat.isDigit_of_mem_toDigits (by decide) (by decide) hc
    simp [isWord, Char.isAlphanum, hdigit]
  · intro h
    rw [h] at hdigits
    exact Nat.toDigits_ne_nil hdigits.symm

theorem isWord_toString_uint32 (n : UInt32) : IsWord (toString n) := isWord_toString n.toNat

theorem not_isWord_special : ∀ c ∈ ['\n', ' ', '#', '"', '\\', '/'], !isWord c :=
  List.all_eq_true.1 (by decide)

theorem hexByte_spec (b : UInt8) : ∃ c d, Text.hexByte b = [c, d] ∧ isWord c ∧ isWord d := by
  have hdigit : ∀ n < 16, isWord (Text.hexDigit n) := by decide
  have hb := b.toNat_lt
  exact ⟨_, _, rfl, hdigit _ (by omega), hdigit _ (by omega)⟩

theorem stem_of_wordy [Standard] {cs : List Char} (h : ∀ c ∈ cs, isWord c) : stem cs = cs := by
  refine List.rdropWhile_eq_self_iff.2 fun hne hp => ?_
  have hword := h _ (List.getLast_mem hne)
  have hpassed : ∀ c ∈ [' ', '\t', '\x0b', '\x0c'], !isWord c := List.all_eq_true.1 (by decide)
  simp only [isPassed, Bool.and_eq_true, List.contains_iff_mem] at hp
  simpa [hword] using hpassed _ hp.1

namespace Scan

variable [Standard] {s : Scan} {n : String}

def word (s : Scan) (n : String) : Scan :=
  match s.mode with
  | .start | .gap => ⟨.word n.toList, s.tokens⟩
  | .word w => ⟨.word (w ++ n.toList), s.tokens⟩
  | .ignored _ => ⟨.ignored false, s.tokens⟩
  | _ => s.run n.toList

theorem step_word {w : List Char} {ts : List Token} {c : Char} (h : isWord c) :
    step ⟨.word w, ts⟩ c = ⟨.word (w ++ [c]), ts⟩ := by
  have hc : (c == '\n') = false := by
    by_contra hc
    simp_all [isWord]
  simp [step, hc, h]

theorem run_inside_word {w cs : List Char} {ts : List Token} (h : ∀ c ∈ cs, isWord c) :
    run ⟨.word w, ts⟩ cs = ⟨.word (w ++ cs), ts⟩ := by
  induction cs generalizing w with
  | nil => rw [List.append_nil]; rfl
  | cons c cs ih =>
    obtain ⟨hc, hcs⟩ := List.forall_mem_cons.1 h
    rw [run_cons, step_word hc, ih hcs, List.append_assoc, List.singleton_append]

theorem run_inside_comment {cs : List Char} {ts : List Token} {b : Bool} (h : '\n' ∉ cs) :
    run ⟨.ignored b, ts⟩ cs = ⟨.ignored ((stem cs).getLast?.elim b (· == '\\')), ts⟩ := by
  induction cs using List.reverseRecOn with
  | nil => rfl
  | append_singleton cs c ih =>
    simp only [List.mem_append, List.mem_singleton, not_or] at h
    have hslash : isPassed '\\' = false := rfl
    have hstem : stem (cs ++ [c]) = if isPassed c then stem cs else cs ++ [c] :=
      List.rdropWhile_concat ..
    rw [run_append, ih h.1, hstem]
    split
    · next hc =>
      have hne : c ≠ '\\' := by
        rintro rfl
        cases hslash.symm.trans hc
      simp [run, step, Ne.symm h.2, hne, hc]
    · next hc => simp [run, step, Ne.symm h.2, hc]

theorem run_word (s : Scan) (h : IsWord n) : s.run n.toList = s.word n := by
  obtain ⟨c, cs, hn⟩ := List.exists_cons_of_ne_nil (mt String.toList_eq_nil_iff.1 h.nonempty)
  have hall : ∀ d ∈ n.toList, isWord d := h.wordy
  rw [hn] at hall
  obtain ⟨hc, hcs⟩ := List.forall_mem_cons.1 hall
  have hspecial {d : Char} (hd : d ∈ ['\n', ' ', '#', '"', '\\', '/']) : c ≠ d := by
    rintro rfl
    have hno := not_isWord_special _ hd
    rw [hc] at hno
    cases hno
  have hfresh (ts : List Token) : fresh ts c = ⟨.word [c], ts⟩ := by
    simp [fresh, hspecial, hc]
  obtain ⟨mode, ts⟩ := s
  cases mode with
  | start => simp [word, hn, run_cons, step, hspecial, hfresh, run_inside_word hcs]
  | gap => simp [word, hn, run_cons, step, hspecial, hfresh, run_inside_word hcs]
  | word w => simp [word, hn, run_inside_word hall]
  | ignored b =>
    have hline : '\n' ∉ n.toList := h.wordy.plain (by decide)
    rw [run_inside_comment hline, stem_of_wordy h.wordy, word]
    cases hl : n.toList.getLast? with
    | none => simp [hn] at hl
    | some d =>
      have hd := h.wordy d (List.mem_of_getLast? hl)
      have hne : (d == '\\') = false := by
        by_contra hb
        simp_all [isWord]
      rw [Option.elim_some, hne]
  | slash => rfl
  | literal => rfl
  | escape => rfl

end Scan

end Names

section Quiet

def Token.IsQuiet (t : Token) : Prop := t ≠ .mark '{' ∧ t ≠ .mark '}' ∧ t ≠ .other

instance (t : Token) : Decidable t.IsQuiet := inferInstanceAs (Decidable (_ ∧ _))

@[simp]
theorem isQuiet_word (w : List Char) : (Token.word w).IsQuiet := by simp [Token.IsQuiet]

@[simp]
theorem isQuiet_literal : Token.literal.IsQuiet := by decide

def isPlain (c : Char) : Bool := c == ' ' || isWord c || marks.contains c && c != '{' && c != '}'

def Plain (s : String) : Prop := ∀ c ∈ s.toList, isPlain c

instance (s : String) : Decidable (Plain s) := List.decidableBAll _ s.toList

@[simp]
theorem plain_append (s t : String) : Plain (s ++ t) ↔ Plain s ∧ Plain t := by
  simp [Plain, or_imp, forall_and]

theorem IsWord.plain {n : String} (h : IsWord n) : Plain n := fun c hc => by
  simp [isPlain, h.wordy c hc]

/-- A comment on one line, at whose end no other line goes on. -/
structure OneLine [Standard] (t : String) : Prop where
  unbroken : '\n' ∉ t.toList
  closed : (stem t.toList).getLast? ≠ some '\\'

instance [Standard] (t : String) : Decidable (OneLine t) :=
  decidable_of_iff ('\n' ∉ t.toList ∧ (stem t.toList).getLast? ≠ some '\\')
    ⟨fun h => ⟨h.1, h.2⟩, fun h => ⟨h.unbroken, h.closed⟩⟩

example : @OneLine .cpp17 "in C:\\ " ∧ ¬@OneLine .cpp23 "in C:\\ " := by decide

namespace Scan

variable {s : Scan} {cs : List Char}

/-- No brace has been read, nothing is left out, and the line can go on with any token. -/
structure Quiet (s : Scan) : Prop where
  mode : s.mode = .start ∨ s.mode = .gap ∨ ∃ w, s.mode = .word w
  tokens : ∀ t ∈ s.tokens, t.IsQuiet

theorem quiet_begin : begin.Quiet := ⟨.inl rfl, by simp [begin]⟩

theorem quiet_fresh {ts : List Token} (h : ∀ t ∈ ts, t.IsQuiet) {c : Char} (hc : isPlain c) :
    (fresh ts c).Quiet := by
  unfold fresh
  split
  · exact ⟨.inr (.inl rfl), h⟩
  next hblank =>
    split
    · exact ⟨.inr (.inr ⟨_, rfl⟩), h⟩
    next hword =>
      have hmark : c ∈ marks ∧ c ≠ '{' ∧ c ≠ '}' := by
        simpa [isPlain, hblank, hword, and_assoc] using hc
      have hother {d : Char} (hd : d ∉ marks) : c ≠ d := fun h => hd (h ▸ hmark.1)
      have hslash : c ≠ '/' := hother (by decide)
      have hquote : c ≠ '"' := hother (by decide)
      simp only [beq_iff_eq, hslash, hquote, if_false, List.contains_eq_mem, hmark.1, decide_true,
        if_true]
      refine ⟨.inr (.inl rfl), List.forall_mem_cons.2 ⟨?_, h⟩⟩
      simp [Token.IsQuiet, hmark]

theorem Quiet.finish (h : s.Quiet) : ∀ t ∈ s.finish, t.IsQuiet := by
  obtain ⟨mode, ts⟩ := s
  obtain ⟨hmode, hts⟩ := h
  dsimp only at hmode hts
  rcases hmode with rfl | rfl | ⟨w, rfl⟩
  · simpa [Scan.finish] using hts
  · simpa [Scan.finish] using hts
  · simpa [Scan.finish, or_imp, forall_and] using hts

variable [Standard]

theorem Quiet.step (h : s.Quiet) {c : Char} (hc : isPlain c) : (s.step c).Quiet := by
  have hother : isPlain '\n' = false ∧ isPlain '#' = false ∧ isPlain '"' = false := by decide
  have hline : (c == '\n') = false := by by_contra hb; simp_all
  have hhash : (c == '#') = false := by by_contra hb; simp_all
  have hquote : (c == '"') = false := by by_contra hb; simp_all
  obtain ⟨mode, ts⟩ := s
  obtain ⟨hmode, hts⟩ := h
  dsimp only at hmode hts
  rcases hmode with rfl | rfl | ⟨w, rfl⟩
  · simp only [Scan.step, hline, hhash, Bool.false_eq_true, if_false]
    split
    · exact ⟨.inl rfl, hts⟩
    · exact quiet_fresh hts hc
  · simp only [Scan.step, hline, Bool.false_eq_true, if_false]
    exact quiet_fresh hts hc
  · simp only [Scan.step, hline, hquote, Bool.false_eq_true, if_false]
    split
    · exact ⟨.inr (.inr ⟨_, rfl⟩), hts⟩
    · exact quiet_fresh (List.forall_mem_cons.2 ⟨isQuiet_word w, hts⟩) hc

theorem Quiet.run (h : s.Quiet) (hc : ∀ c ∈ cs, isPlain c) : (s.run cs).Quiet := by
  induction cs generalizing s with
  | nil => exact h
  | cons c cs ih =>
    obtain ⟨hc, hcs⟩ := List.forall_mem_cons.1 hc
    exact ih (h.step hc) hcs

theorem finish_inside_comment {t : String} (ht : OneLine t) (ts : List Token) :
    (run ⟨.ignored false, ts⟩ t.toList).finish = ts.reverse := by
  have hlast : (stem t.toList).getLast?.elim false (· == '\\') = false := by
    have hne := ht.closed
    cases hl : (stem t.toList).getLast? with
    | none => rfl
    | some c => simpa [hl] using hne
  rw [run_inside_comment ht.unbroken, hlast]
  rfl

theorem Quiet.finish_comment (h : s.Quiet) {t : String} (ht : OneLine t) :
    ∀ u ∈ (s.run ("// " ++ t).toList).finish, u.IsQuiet := by
  have hopen : ∃ ts, s.run "// ".toList = ⟨.ignored false, ts⟩ ∧ ∀ u ∈ ts, u.IsQuiet := by
    obtain ⟨mode, ts⟩ := s
    obtain ⟨hmode, hts⟩ := h
    dsimp only at hmode hts
    rcases hmode with rfl | rfl | ⟨w, rfl⟩
    · exact ⟨ts, rfl, hts⟩
    · exact ⟨ts, rfl, hts⟩
    · exact ⟨.word w :: ts, rfl, List.forall_mem_cons.2 ⟨isQuiet_word w, hts⟩⟩
  obtain ⟨ts, hrun, hts⟩ := hopen
  rw [String.toList_append, run_append, hrun, finish_inside_comment ht]
  simpa using hts

theorem step_literal {c : Char} {ts : List Token} (hline : c ≠ '\n') (hquote : c ≠ '"')
    (hslash : c ≠ '\\') : step ⟨.literal, ts⟩ c = ⟨.literal, ts⟩ := by
  simp [step, hline, hquote, hslash]

/-- The literal ends behind the escape of a byte, and another begins. -/
theorem run_escapedByte (b : UInt8) (ts : List Token) :
    run ⟨.literal, ts⟩ ('\\' :: 'x' :: Text.hexByte b ++ ['"', '"']) =
      ⟨.literal, .literal :: ts⟩ := by
  obtain ⟨x, y, hb, hx, hy⟩ := hexByte_spec b
  have hdigit {d : Char} (hd : isWord d) : step ⟨.literal, ts⟩ d = ⟨.literal, ts⟩ := by
    refine step_literal ?_ ?_ ?_ <;> rintro rfl <;> revert hd <;> decide
  have hstart : run ⟨.literal, ts⟩ ['\\', 'x'] = ⟨.literal, ts⟩ := rfl
  have hend : run ⟨.literal, ts⟩ ['"', '"'] = ⟨.literal, .literal :: ts⟩ := rfl
  rw [hb]
  show run _ (['\\', 'x'] ++ x :: y :: ['"', '"']) = _
  rw [run_append, hstart, run_cons, hdigit hx, run_cons, hdigit hy, hend]

theorem run_literalChar (c : Char) (ts : List Token) : ∃ k, run ⟨.literal, ts⟩ (literalChar c) =
    ⟨.literal, List.replicate k .literal ++ ts⟩ := by
  unfold literalChar
  split
  · exact ⟨0, rfl⟩
  next hquote =>
    split
    · exact ⟨0, rfl⟩
    next hslash =>
      split
      · exact ⟨0, rfl⟩
      next hline =>
        split
        · exact ⟨0, step_literal (by simpa using hline) (by simpa using hquote)
            (by simpa using hslash)⟩
        · -- each byte ends the literal behind its escape
          generalize (String.singleton c).toUTF8.toList = bytes
          induction bytes generalizing ts with
          | nil => exact ⟨0, rfl⟩
          | cons b bytes ih =>
            obtain ⟨k, hk⟩ := ih (.literal :: ts)
            refine ⟨k + 1, ?_⟩
            rw [List.flatMap_cons, run_append, run_escapedByte, hk, List.replicate_succ',
              List.append_assoc, List.singleton_append]

theorem run_stringLiteral (s : Scan) (h : s.mode = .start ∨ s.mode = .gap) (t : String) :
    ∃ k, s.run (stringLiteral t).toList = ⟨.gap, List.replicate k .literal ++ s.tokens⟩ := by
  have hinside (cs : List Char) (ts : List Token) :
      ∃ k, run ⟨.literal, ts⟩ (cs.flatMap literalChar) =
      ⟨.literal, List.replicate k .literal ++ ts⟩ := by
    induction cs generalizing ts with
    | nil => exact ⟨0, rfl⟩
    | cons c cs ih =>
      obtain ⟨j, hj⟩ := run_literalChar c ts
      obtain ⟨k, hk⟩ := ih (List.replicate j .literal ++ ts)
      refine ⟨k + j, ?_⟩
      rw [List.flatMap_cons, run_append, hj, hk, List.replicate_add, List.append_assoc]
  have hopen : s.step '"' = ⟨.literal, s.tokens⟩ := by
    obtain ⟨mode, ts⟩ := s
    rcases h with h | h <;> dsimp only at h <;> subst h <;> rfl
  obtain ⟨k, hk⟩ := hinside t.toList s.tokens
  refine ⟨k + 1, ?_⟩
  rw [stringLiteral, String.toList_ofList, run_cons, hopen, run_append, hk]
  rfl

end Scan

theorem lexLine_comment [Standard] {t : String} (h : OneLine t) : lexLine ("// " ++ t).toList = [] := by
  rw [lexLine, String.toList_append, Scan.run_append]
  exact Scan.finish_inside_comment h []

end Quiet

end ShaderBuild.Code.Cpp
