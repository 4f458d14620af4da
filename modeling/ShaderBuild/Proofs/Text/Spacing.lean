import Mathlib.Data.List.Chain
import ShaderBuild.Proofs.Text.Growth

namespace ShaderBuild.Text

section Texts

def Blank (l : List Char) : Prop := ∀ c ∈ l, c.isWhitespace

instance (l : List Char) : Decidable (Blank l) := List.decidableBAll _ l

def Closes (l : List Char) : Prop := ∃ c ∈ (Page.unindented l).head?, c = '}' ∨ c = ']'

instance (l : List Char) : Decidable (Closes l) :=
  Option.decidableExistsMem (Page.unindented l).head?

/-- A text that takes one line and can be seen there. -/
structure Legible (t : String) : Prop where
  unbroken : '\n' ∉ t.toList
  seen : ¬Blank t.toList

structure Fresh (t : String) : Prop where
  unbroken : '\n' ∉ t.toList
  front : ∃ c ∈ t.toList.head?, c.isWhitespace = false ∧ c ≠ '}' ∧ c ≠ ']'

structure Final (t : String) : Prop where
  unbroken : '\n' ∉ t.toList
  front : ∃ c ∈ t.toList.head?, c = '}' ∨ c = ']'

variable {t : String}

theorem fresh_iff : Fresh t ↔ '\n' ∉ t.toList ∧
    ∃ c ∈ t.toList.head?, c.isWhitespace = false ∧ c ≠ '}' ∧ c ≠ ']' :=
  ⟨fun h => ⟨h.1, h.2⟩, fun h => ⟨h.1, h.2⟩⟩

theorem final_iff : Final t ↔ '\n' ∉ t.toList ∧ ∃ c ∈ t.toList.head?, c = '}' ∨ c = ']' :=
  ⟨fun h => ⟨h.1, h.2⟩, fun h => ⟨h.1, h.2⟩⟩

theorem front_mark {l : List Char} {c : Char} (hc : c ∈ l.head?) (hm : c.isWhitespace = false) :
    (Page.unindented l).head? = some c ∧ ¬Blank l := by
  obtain ⟨r, rfl⟩ := List.head?_eq_some_iff.1 hc
  have hspace : c ≠ ' ' := by
    rintro rfl
    exact absurd hm (by decide)
  constructor
  · rw [Page.unindented, List.dropWhile_cons_of_neg (by simpa using hspace), List.head?_cons]
  · exact fun hb => by simp [hb c List.mem_cons_self] at hm

theorem Fresh.legible (h : Fresh t) : Legible t := by
  obtain ⟨c, hc, hm, -⟩ := h.front
  exact ⟨h.unbroken, (front_mark hc hm).2⟩

theorem Fresh.not_closes (h : Fresh t) : ¬Closes t.toList := by
  obtain ⟨c, hc, hm, hbrace, hbracket⟩ := h.front
  rintro ⟨d, hd, hclose⟩
  obtain rfl : c = d := by simpa [(front_mark hc hm).1] using hd
  exact hclose.elim hbrace hbracket

theorem Final.closes_legible (h : Final t) : Closes t.toList ∧ Legible t := by
  obtain ⟨c, hc, hclose⟩ := h.front
  have hm : c.isWhitespace = false := by rcases hclose with rfl | rfl <;> decide
  obtain ⟨hfirst, hseen⟩ := front_mark hc hm
  exact ⟨⟨c, hfirst, hclose⟩, h.unbroken, hseen⟩

theorem Legible.unbroken_indented (h : Legible t) (k : Nat) :
    '\n' ∉ Page.indentation k ++ t.toList := by
  rw [List.mem_append, not_or]
  exact ⟨by simp [Page.indentation], h.unbroken⟩

theorem Legible.seen_indented (h : Legible t) (k : Nat) :
    ¬Blank (Page.indentation k ++ t.toList) :=
  fun hb => h.seen fun c hc => hb c (List.mem_append_right _ hc)

end Texts

section Spaced

/-- How a line stands below another: no two blank lines, and none at either end of a block. -/
structure Spaced (above below : List Char) : Prop where
  single : Blank below → ¬Blank above
  opened : Blank below → above.getLast? ≠ some '{'
  closed : Closes below → ¬Blank above

def linesOf (text : String) : List (List Char) := (Page.splitLines text.toList).dropLast

/-- A text that ends with exactly one line break, and whose lines are spaced. -/
structure Neat (text : String) : Prop where
  ending : ∃ body c, text.toList = body ++ [c, '\n'] ∧ c ≠ '\n'
  spaced : (linesOf text).IsChain Spaced

/-- The lines of a page, last line first, as far as they are written. Only the last one may still
turn out to be a blank line too many. -/
structure Tidy (lines : List (List Char)) : Prop where
  unbroken : ∀ l ∈ lines, '\n' ∉ l
  empty : ∀ l ∈ lines, Blank l → l = []
  first : lines.getLast? ≠ some []
  spaced : lines.IsChain fun below above => Spaced above below

def EndsSeen (lines : List (List Char)) : Prop := ∀ l ∈ lines.head?, ¬Blank l

namespace Tidy

variable {lines : List (List Char)} {l : List Char}

theorem nil : Tidy [] := ⟨by simp, by simp, by simp, .nil⟩

theorem tail (h : Tidy (l :: lines)) (hne : lines ≠ []) : Tidy lines where
  unbroken := fun m hm => h.unbroken m (List.mem_cons_of_mem _ hm)
  empty := fun m hm => h.empty m (List.mem_cons_of_mem _ hm)
  first := by
    rw [← List.getLast?_cons_of_ne_nil hne]
    exact h.first
  spaced := h.spaced.tail

theorem cons (h : Tidy lines) (hn : '\n' ∉ l) (hs : ¬Blank l) (hc : Closes l → EndsSeen lines) :
    Tidy (l :: lines) where
  unbroken := List.forall_mem_cons.2 ⟨hn, h.unbroken⟩
  empty := List.forall_mem_cons.2 ⟨fun hb => absurd hb hs, h.empty⟩
  first := by
    have hl : l ≠ [] := by
      rintro rfl
      exact hs (List.forall_mem_nil _)
    cases lines with
    | nil => simpa using hl
    | cons m ms => exact h.first
  spaced := List.isChain_cons.2
    ⟨fun m hm => ⟨fun hb => absurd hb hs, fun hb => absurd hb hs, fun hcl => hc hcl m hm⟩, h.spaced⟩

/-- A blank line may follow a line that can be seen and opens nothing. -/
theorem cons_nil (h : Tidy (l :: lines)) (hs : ¬Blank l) (ho : l.getLast? ≠ some '{') :
    Tidy ([] :: l :: lines) where
  unbroken := List.forall_mem_cons.2 ⟨List.not_mem_nil, h.unbroken⟩
  empty := List.forall_mem_cons.2 ⟨fun _ => rfl, h.empty⟩
  first := h.first
  spaced := by
    have hclosed : ¬Closes [] := by decide
    exact List.isChain_cons_cons.2
      ⟨⟨fun _ => hs, fun _ => ho, fun hc => absurd hc hclosed⟩, h.spaced⟩

end Tidy

end Spaced

namespace Page

variable {p : Page} {t : String}

theorem endsSeen_iff (h : Tidy p.lines) : EndsSeen p.lines ↔ p.endsBlank = false := by
  unfold endsBlank EndsSeen
  split
  next l ls hl => simp [hl, Blank]
  next hl =>
    refine iff_of_true (fun l hm hb => ?_) rfl
    obtain ⟨ls, hlines⟩ := List.head?_eq_some_iff.1 hm
    obtain rfl : l = [] := h.empty l (List.mem_of_mem_head? hm) hb
    cases ls with
    | nil => exact h.first (by rw [hlines]; rfl)
    | cons m ms => exact hl m ms hlines

theorem tidy_separate (h : Tidy p.lines) : Tidy p.separate.lines := by
  unfold separate
  split
  · exact h
  next hc =>
    simp only [Bool.or_eq_true, not_or, Bool.not_eq_true] at hc
    obtain ⟨⟨hempty, hblank⟩, hopen⟩ := hc
    have hseen := (endsSeen_iff h).2 hblank
    cases hl : p.lines with
    | nil => simp [hl] at hempty
    | cons l ls =>
      rw [hl] at h hseen
      refine h.cons_nil (hseen l rfl) ?_
      simpa [endsOpen, hl] using hopen

theorem tidy_dropBlank (h : Tidy p.lines) :
    Tidy p.dropBlank.lines ∧ EndsSeen p.dropBlank.lines := by
  unfold dropBlank
  split
  next hb =>
    unfold endsBlank at hb
    split at hb
    next l ls hl =>
      rw [hl] at h ⊢
      refine ⟨h.tail (List.cons_ne_nil _ _), fun m hm => ?_⟩
      obtain rfl : l = m := by simpa using hm
      exact (List.isChain_cons_cons.1 h.spaced).1.single (List.forall_mem_nil _)
    next => simp at hb
  next hb => exact ⟨h, (endsSeen_iff h).2 (by simpa using hb)⟩

theorem closes_indented (k : Nat) (l : List Char) : Closes (indentation k ++ l) ↔ Closes l := by
  rw [Closes, unindented_indentation, Closes]

theorem lines_write (p : Page) (ht : Legible t) :
    (p.write t).lines = (indentation p.depth ++ t.toList) :: p.lines := by
  have hne : t ≠ "" := by
    rintro rfl
    exact ht.seen (by decide)
  rw [write, if_neg (by simpa using hne), splitLines_line (ht.unbroken_indented _)]
  rfl

theorem tidy_write (h : Tidy p.lines) (ht : Legible t) (hc : Closes t.toList → EndsSeen p.lines) :
    Tidy (p.write t).lines ∧ EndsSeen (p.write t).lines := by
  rw [lines_write p ht]
  refine ⟨h.cons (ht.unbroken_indented _) (ht.seen_indented _) ?_, ?_⟩
  · exact fun hcl => hc ((closes_indented _ _).1 hcl)
  · simpa [EndsSeen] using ht.seen_indented p.depth

theorem tidy_fresh (h : Tidy p.lines) (ht : Fresh t) :
    Tidy (p.write t).lines ∧ EndsSeen (p.write t).lines :=
  tidy_write h ht.legible fun hc => absurd hc ht.not_closes

/-- The end of a block drops the blank line above it. -/
theorem tidy_closing (h : Tidy p.lines) (ht : Final t) : Tidy (p.step (.closing t)).lines := by
  obtain ⟨hdrop, hseen⟩ := tidy_dropBlank (p := { p with depth := p.depth - 1 }) h
  exact (tidy_write hdrop ht.closes_legible.2 fun _ => hseen).1

end Page

section Depth

/-- The number of open blocks behind a directive; none where it closes a block and there is none to
close. -/
def Directive.level? (depth : Nat) : Directive → Option Nat
  | .line _ | .blank => some depth
  | .opening _ => some (depth + 1)
  | .closing _ => if depth = 0 then none else some (depth - 1)

/-- Directives that close what they open and nothing else, however many blocks are open. -/
def Paired (ds : List Directive) : Prop := ∀ depth, ds.foldlM Directive.level? depth = some depth

/-- No block is closed on a page where none is open, and in the end none is open. -/
structure Balanced (ds : List Directive) : Prop where
  closable : ∀ before t after, ds = before ++ .closing t :: after →
    0 < (Page.empty.run before).depth
  settled : (Page.empty.run ds).depth = 0

variable {ds es : List Directive}

theorem Page.depth_step {p : Page} {d : Directive} {k : Nat} (h : d.level? p.depth = some k) :
    (p.step d).depth = k := by
  cases d with
  | line t => simpa [Page.step, Directive.level?] using h
  | blank =>
    have hdepth : p.separate.depth = p.depth := by unfold Page.separate; split <;> rfl
    simpa [Page.step, Directive.level?, hdepth] using h
  | opening t => simpa [Page.step, Directive.level?] using h
  | closing t =>
    have hdepth (q : Page) : q.dropBlank.depth = q.depth := by unfold Page.dropBlank; split <;> rfl
    simp only [Directive.level?] at h
    split at h
    · simp at h
    · simpa [Page.step, hdepth] using h

/-- As long as no block is closed that is not open, the page counts the open blocks. -/
theorem Page.depth_run {p : Page} {k : Nat} (h : ds.foldlM Directive.level? p.depth = some k) :
    (p.run ds).depth = k := by
  induction ds generalizing p with
  | nil => exact Option.some.inj h
  | cons d ds ih =>
    rw [List.foldlM_cons] at h
    obtain ⟨j, hj, hk⟩ := Option.bind_eq_some_iff.1 h
    show ((p.step d).run ds).depth = k
    exact ih ((depth_step hj).symm ▸ hk)

theorem Paired.nil : Paired [] := fun _ => rfl

theorem Paired.append (hd : Paired ds) (he : Paired es) : Paired (ds ++ es) := by
  intro depth
  rw [List.foldlM_append, hd depth]
  exact he depth

theorem Paired.block (h : Paired ds) (head close : String) :
    Paired (.opening head :: ds ++ [.closing close]) := by
  intro depth
  have hopen : Directive.level? depth (.opening head) = some (depth + 1) := rfl
  have hclose : Directive.level? (depth + 1) (.closing close) = some depth := rfl
  rw [List.cons_append, List.foldlM_cons, hopen, Option.bind_eq_bind, Option.bind_some,
    List.foldlM_append, h (depth + 1)]
  simp [hclose]

theorem Paired.balanced (h : Paired ds) : Balanced ds where
  closable := by
    rintro before t after rfl
    have hrun := h 0
    rw [List.foldlM_append] at hrun
    obtain ⟨k, hk, hrest⟩ := Option.bind_eq_some_iff.1 hrun
    -- the depth in front of the directive that closes; at zero the rest would not have run
    rw [Page.depth_run (p := .empty) hk]
    rcases Nat.eq_zero_or_pos k with rfl | hpos
    · simp [Directive.level?] at hrest
    · exact hpos
  settled := Page.depth_run (p := .empty) (h 0)

end Depth

section Orderly

def Directive.IsRow (d : Directive) : Prop := ∃ t, d = .line t ∧ Legible t

theorem Directive.IsRow.of_mem {t : String} {c : Char} (hn : '\n' ∉ t.toList) (hc : c ∈ t.toList)
    (hm : c.isWhitespace = false) : (Directive.line t).IsRow :=
  ⟨t, rfl, hn, fun hb => by simp [hb c hc] at hm⟩

/-- Directives that leave a tidy page tidy and as deep as it was. -/
structure Orderly (ds : List Directive) : Prop where
  tidy : ∀ p : Page, Tidy p.lines → Tidy (p.run ds).lines
  paired : Paired ds
  final : ∀ t, .closing t ∈ ds → Final t

namespace Orderly

variable {ds es rows : List Directive} {t head close : String}

theorem nil : Orderly [] := ⟨fun _ h => h, .nil, by simp⟩

theorem append (hd : Orderly ds) (he : Orderly es) : Orderly (ds ++ es) where
  tidy := fun p h => Page.run_append p ds es ▸ he.tidy _ (hd.tidy p h)
  paired := hd.paired.append he.paired
  final := fun t ht => (List.mem_append.1 ht).elim (hd.final t) (he.final t)

theorem line (h : Fresh t) : Orderly [.line t] where
  tidy := fun _ hp => (Page.tidy_fresh hp h).1
  paired := fun _ => rfl
  final := by simp

theorem blank : Orderly [.blank] where
  tidy := fun _ hp => Page.tidy_separate hp
  paired := fun _ => rfl
  final := by simp

theorem cons_line (h : Fresh t) (hd : Orderly ds) : Orderly (.line t :: ds) := (line h).append hd

theorem cons_blank (hd : Orderly ds) : Orderly (.blank :: ds) := blank.append hd

theorem flatMap {α : Type} {xs : List α} {f : α → List Directive} (h : ∀ x ∈ xs, Orderly (f x)) :
    Orderly (xs.flatMap f) := by
  induction xs with
  | nil => exact nil
  | cons x xs ih =>
    obtain ⟨hx, hxs⟩ := List.forall_mem_cons.1 h
    rw [List.flatMap_cons]
    exact hx.append (ih hxs)

/-- Rows may look like anything where no blank line stands in front of them. -/
theorem tidy_rows {p : Page} (h : Tidy p.lines) (hs : EndsSeen p.lines)
    (hrows : ∀ d ∈ rows, d.IsRow) : Tidy (p.run rows).lines := by
  induction rows generalizing p with
  | nil => exact h
  | cons d rows ih =>
    obtain ⟨⟨t, rfl, ht⟩, hrest⟩ := List.forall_mem_cons.1 hrows
    obtain ⟨htidy, hseen⟩ := Page.tidy_write h ht fun _ => hs
    exact ih htidy hseen hrest

theorem paired_rows (hrows : ∀ d ∈ rows, d.IsRow) : Paired rows := by
  induction rows with
  | nil => exact .nil
  | cons d rows ih =>
    obtain ⟨⟨t, rfl, -⟩, hrest⟩ := List.forall_mem_cons.1 hrows
    have hline : Paired [.line t] := fun _ => rfl
    exact hline.append (ih hrest)

theorem block (hhead : Fresh head) (hrows : ∀ d ∈ rows, d.IsRow) (hd : Orderly ds)
    (hclose : Final close) : Orderly (.opening head :: (rows ++ ds) ++ [.closing close]) where
  tidy := by
    intro p hp
    obtain ⟨hopen, hseen⟩ := Page.tidy_fresh hp hhead
    have hbody : Tidy ((p.step (.opening head)).run (rows ++ ds)).lines := by
      rw [Page.run_append]
      exact hd.tidy _ (tidy_rows (p := p.step (.opening head)) hopen hseen hrows)
    rw [Page.run_append]
    exact Page.tidy_closing hbody hclose
  paired := ((paired_rows hrows).append hd.paired).block head close
  final := by
    intro t ht
    have hrow : .closing t ∉ rows := by
      intro hm
      obtain ⟨_, h, -⟩ := hrows _ hm
      cases h
    simp only [List.mem_append, List.mem_cons, reduceCtorEq, hrow, List.not_mem_nil, or_false,
      false_or, Directive.closing.injEq] at ht
    rcases ht with ht | rfl
    · exact hd.final t ht
    · exact hclose

theorem rowBlock (hhead : Fresh head) (hrows : ∀ d ∈ rows, d.IsRow) (hclose : Final close) :
    Orderly (.opening head :: rows ++ [.closing close]) :=
  List.append_nil rows ▸ block hhead hrows nil hclose

theorem itemBlock (hhead : Fresh head) (hd : Orderly ds) (hclose : Final close) :
    Orderly (.opening head :: ds ++ [.closing close]) :=
  block hhead (List.forall_mem_nil _) hd hclose

end Orderly

theorem tidy_trimEnd {lines : List (List Char)} (h : Tidy lines) (hne : lines ≠ []) :
    ∃ l ls, Page.trimEnd lines = l :: ls ∧ l ≠ [] ∧ Tidy (l :: ls) := by
  fun_induction Page.trimEnd lines with
  | case1 l ls ih => exact ih (h.tail (List.cons_ne_nil _ _)) (List.cons_ne_nil _ _)
  | case2 lines hlast =>
    obtain ⟨l, ls, rfl⟩ := List.exists_cons_of_ne_nil hne
    refine ⟨l, ls, rfl, ?_, h⟩
    rintro rfl
    cases ls with
    | nil => exact h.first rfl
    | cons m ms => exact hlast m ms rfl

/-- A page that begins with a line, and goes on in good order, is rendered as a neat text. -/
theorem Orderly.neat {t : String} {ds : List Directive} (h : Orderly ds)
    (hfirst : ds.head? = some (.line t)) (ht : Legible t) : Neat (render ds) := by
  obtain ⟨ds, rfl⟩ := List.head?_eq_some_iff.1 hfirst
  have htidy : Tidy (Page.empty.run (.line t :: ds)).lines := h.tidy .empty .nil
  have hne : (Page.empty.run (.line t :: ds)).lines ≠ [] := by
    have hchars : t.toList ≠ [] := fun hnil => ht.seen (hnil ▸ List.forall_mem_nil _)
    have hkept : [t.toList] <:+ (Page.empty.run (.line t :: ds)).lines := by
      refine Page.suffix_run (p := Page.empty.write t) hchars ?_ ds
      rw [Page.lines_write _ ht]
      exact List.suffix_rfl
    exact hkept.ne_nil (List.cons_ne_nil _ _)
  obtain ⟨l, ls, htrim, hl, hneat⟩ := tidy_trimEnd htidy hne
  have htext : (render (.line t :: ds)).toList =
      (l :: ls).reverse.flatMap fun l => l ++ ['\n'] := by
    rw [render, Page.text, String.toList_ofList, htrim]
  constructor
  · obtain ⟨front, c, rfl⟩ := (List.eq_nil_or_concat l).resolve_left hl
    refine ⟨(ls.reverse.flatMap fun l => l ++ ['\n']) ++ front, c, by simp [htext], ?_⟩
    rintro rfl
    exact hneat.unbroken _ List.mem_cons_self (by simp)
  · have hlines : linesOf (render (.line t :: ds)) = (l :: ls).reverse := by
      rw [linesOf, htext,
        Page.splitLines_lines fun l hl => hneat.unbroken l (List.mem_reverse.1 hl),
        List.dropLast_concat]
    rw [hlines, List.isChain_reverse]
    exact hneat.spaced

/-- A blank line is dropped at either end of a block, and where there is one already. -/
example : render [.line "struct A", .opening "\x7b", .blank, .line "int x;", .blank,
    .closing "\x7d;", .blank, .blank, .line "// end"] =
    "struct A\n\x7b\n    int x;\n\x7d;\n\n// end\n" := by
  decide +kernel

end Orderly

end ShaderBuild.Text
