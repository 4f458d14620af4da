import Mathlib.Data.List.TakeWhile
import ShaderBuild.Text.Page

namespace ShaderBuild.Text

@[simp]
theorem toString_text (s : String) : toString s = s := rfl

section Before

variable {c : Char} {a b : List Char}

theorem takeWhile_before (h : c ∉ a) : (a ++ c :: b).takeWhile (· != c) = a := by
  rw [List.takeWhile_append_of_pos, List.takeWhile_cons_of_neg (by simp), List.append_nil]
  intro d hd
  simpa using fun he : d = c => h (he ▸ hd)

theorem dropWhile_before (h : c ∉ a) : (a ++ c :: b).dropWhile (· != c) = c :: b := by
  rw [List.dropWhile_append_of_pos, List.dropWhile_cons_of_neg (by simp)]
  intro d hd
  simpa using fun he : d = c => h (he ▸ hd)

end Before

namespace Directive

def text : Directive → String
  | line t | opening t | closing t => t
  | blank => ""

end Directive

namespace Page

theorem splitLines_cons (l r : List Char) (h : '\n' ∉ l) :
    splitLines (l ++ '\n' :: r) = l :: splitLines r := by
  induction l with
  | nil => simp [splitLines]
  | cons c l ih =>
    obtain ⟨hc, hl⟩ := not_or.1 (mt List.mem_cons.2 h)
    simp [splitLines, Ne.symm hc, ih hl]

theorem splitLines_line {l : List Char} (h : '\n' ∉ l) : splitLines l = [l] := by
  induction l with
  | nil => rfl
  | cons c l ih =>
    obtain ⟨hc, hl⟩ := not_or.1 (mt List.mem_cons.2 h)
    simp [splitLines, Ne.symm hc, ih hl]

theorem splitLines_lines {ls : List (List Char)} (h : ∀ l ∈ ls, '\n' ∉ l) :
    splitLines (ls.flatMap fun l => l ++ ['\n']) = ls ++ [[]] := by
  induction ls with
  | nil => rfl
  | cons l ls ih =>
    obtain ⟨hl, hls⟩ := List.forall_mem_cons.1 h
    rw [List.flatMap_cons, List.append_assoc, List.singleton_append, splitLines_cons l _ hl, ih hls,
      List.cons_append]

def unindented (l : List Char) : List Char := l.dropWhile (· == ' ')

/-- Lines without indentation, those left out that have nothing else. -/
def content (ls : List (List Char)) : List (List Char) := (ls.map unindented).filter (· ≠ [])

section Content

@[simp]
theorem content_nil : content [] = [] := rfl

@[simp]
theorem content_blank (ls : List (List Char)) : content ([] :: ls) = content ls := rfl

theorem content_append (ls ms : List (List Char)) :
    content (ls ++ ms) = content ls ++ content ms := by
  simp [content]

theorem content_cons (l : List Char) (ls : List (List Char)) :
    content (l :: ls) = content [l] ++ content ls := content_append [l] ls

theorem content_reverse (ls : List (List Char)) : content ls.reverse = (content ls).reverse := by
  simp [content, List.filter_reverse]

theorem unindented_indentation (k : Nat) (l : List Char) :
    unindented (indentation k ++ l) = unindented l := by
  rw [unindented, List.dropWhile_append_of_pos, unindented]
  intro c hc
  simp [List.eq_of_mem_replicate hc]

/-- A reader that takes no notice of indentation and of empty lines finds the same in the content. -/
theorem flatMap_content {α : Type} {read : List Char → List α} (hnil : read [] = [])
    (hblank : ∀ l, read (' ' :: l) = read l) (ls : List (List Char)) :
    (content ls).flatMap read = ls.flatMap read := by
  have hread (l : List Char) : read (unindented l) = read l := by
    induction l with
    | nil => rfl
    | cons c l ih =>
      rw [unindented, List.dropWhile_cons]
      split
      next hc => rw [eq_of_beq hc, hblank, ← ih, unindented]
      next => rfl
  induction ls with
  | nil => rfl
  | cons l ls ih =>
    rw [List.flatMap_cons, ← ih, ← hread l, content, List.map_cons, List.filter_cons]
    by_cases hl : unindented l = []
    · simp [hl, hnil, content]
    · simp [hl, content]

end Content

theorem content_write (p : Page) {t : String} (h : '\n' ∉ t.toList) :
    content (p.write t).lines = content (t.toList :: p.lines) := by
  unfold write
  split
  next ht => rw [eq_of_beq ht]; rfl
  next =>
    have hline : '\n' ∉ indentation p.depth ++ t.toList := by
      simp [indentation, h]
    rw [splitLines_line hline, List.reverse_singleton, List.singleton_append]
    simp only [content, List.map_cons, unindented_indentation]

theorem content_dropBlank (p : Page) : content p.dropBlank.lines = content p.lines := by
  unfold dropBlank endsBlank
  split
  next hl => simp [hl]
  next => rfl

theorem content_step (p : Page) {d : Directive} (h : '\n' ∉ d.text.toList) :
    content (p.step d).lines = content (d.text.toList :: p.lines) := by
  cases d with
  | line t | opening t => exact content_write p h
  | blank =>
    rw [step, separate]
    split <;> rfl
  | closing t =>
    calc content (({ p with depth := p.depth - 1 } : Page).dropBlank.write t).lines
        = content (t.toList :: ({ p with depth := p.depth - 1 } : Page).dropBlank.lines) :=
          content_write _ h
      _ = content (t.toList :: p.lines) := by rw [content_cons, content_dropBlank, ← content_cons]

theorem content_run (p : Page) {ds : List Directive} (h : ∀ d ∈ ds, '\n' ∉ d.text.toList) :
    content (p.run ds).lines.reverse =
      content (p.lines.reverse ++ ds.map fun d => d.text.toList) := by
  induction ds generalizing p with
  | nil => simp [run]
  | cons d ds ih =>
    obtain ⟨hd, hds⟩ := List.forall_mem_cons.1 h
    show content ((p.step d).run ds).lines.reverse = _
    rw [ih _ hds, content_append, content_reverse, content_step p hd, ← content_reverse,
      ← content_append, List.reverse_cons, List.append_assoc]
    rfl

theorem content_trimEnd (ls : List (List Char)) : content (trimEnd ls) = content ls := by
  fun_induction trimEnd ls with
  | case1 l ls ih => rw [ih, content_blank]
  | case2 => rfl

theorem forall_of_content {c : Char} (hc : c ≠ ' ') {ls : List (List Char)}
    (h : ∀ t ∈ content ls, c ∉ t) {l : List Char} (hl : l ∈ ls) : c ∉ l := by
  intro hm
  have hrest : c ∈ unindented l := by
    rw [← List.takeWhile_append_dropWhile (p := (· == ' ')) (l := l), List.mem_append] at hm
    exact hm.resolve_left fun hb => hc (by simpa using List.mem_takeWhile_imp hb)
  refine h _ (List.mem_filter.2 ⟨List.mem_map_of_mem hl, ?_⟩) hrest
  simpa using List.ne_nil_of_mem hrest

end Page

/-- A rendered page, read line by line, has the texts that were written. -/
theorem content_render {ds : List Directive} (h : ∀ d ∈ ds, '\n' ∉ d.text.toList) :
    Page.content (Page.splitLines (render ds).toList) =
      Page.content (ds.map fun d => d.text.toList) := by
  have hrun := Page.content_run .empty h
  have hlines : Page.content (Page.trimEnd (Page.empty.run ds).lines).reverse =
      Page.content (ds.map fun d => d.text.toList) := by
    rw [Page.content_reverse, Page.content_trimEnd, ← Page.content_reverse, hrun]
    rfl
  have hplain : ∀ t ∈ Page.content (ds.map fun d => d.text.toList), '\n' ∉ t := by
    intro t ht
    obtain ⟨l, hl, rfl⟩ := List.mem_map.1 (List.mem_filter.1 ht).1
    obtain ⟨d, hd, rfl⟩ := List.mem_map.1 hl
    exact fun hm => h d hd ((List.dropWhile_sublist _).subset hm)
  rw [render, Page.text, String.toList_ofList, Page.splitLines_lines, Page.content_append, hlines]
  · exact List.append_nil _
  · exact fun l hl => Page.forall_of_content (by decide) (hlines ▸ hplain) hl

end ShaderBuild.Text
