import ShaderBuild.Proofs.Text.Lines

namespace ShaderBuild.Text

namespace Page

def chars (p : Page) : List Char := p.lines.reverse.flatMap fun l => l ++ ['\n']

def EndsFull (p : Page) : Prop := ∃ l ls, p.lines = l :: ls ∧ l ≠ []

theorem chars_ends (p : Page) : p.chars = [] ∨ p.chars.getLast? = some '\n' := by
  cases hl : p.lines with
  | nil => exact .inl (by simp [chars, hl])
  | cons l ls => exact .inr (by simp [chars, hl])

section Write

theorem flatMap_splitLines (cs : List Char) :
    (splitLines cs).flatMap (fun l => l ++ ['\n']) = cs ++ ['\n'] := by
  induction cs with
  | nil => rfl
  | cons c r ih =>
    by_cases hc : c = '\n'
    · simp [splitLines, hc, ih]
    · rw [splitLines, if_neg (by simpa using hc)]
      cases hl : splitLines r with
      | nil => simp [hl] at ih
      | cons l ls =>
        rw [hl] at ih
        simpa using ih

theorem chars_write (p : Page) {t : String} (h : t ≠ "") :
    (p.write t).chars = p.chars ++ (indentation p.depth ++ t.toList ++ ['\n']) := by
  rw [write, if_neg (by simpa using h), chars]
  simp only [List.reverse_append, List.reverse_reverse, List.flatMap_append, flatMap_splitLines]
  rfl

@[simp]
theorem depth_write (p : Page) (t : String) : (p.write t).depth = p.depth := by
  unfold write
  split <;> rfl

theorem endsFull_write (p : Page) {t : String} (h : t ≠ "") (hn : '\n' ∉ t.toList) :
    (p.write t).EndsFull := by
  have hline : '\n' ∉ indentation p.depth ++ t.toList := by simp [indentation, hn]
  rw [write, if_neg (by simpa using h), splitLines_line hline]
  exact ⟨_, _, rfl, by simp [h]⟩

theorem EndsFull.dropBlank {p : Page} (h : p.EndsFull) : p.dropBlank = p := by
  obtain ⟨l, ls, hlines, hl⟩ := h
  cases l with
  | nil => exact absurd rfl hl
  | cons c l => simp [Page.dropBlank, endsBlank, hlines]

end Write

section Keep

variable {l : List Char} {ls : List (List Char)}

theorem suffix_write {p : Page} (h : ls <:+ p.lines) (t : String) : ls <:+ (p.write t).lines := by
  unfold write
  split
  · exact h.trans (List.suffix_cons _ _)
  · exact h.trans (List.suffix_append _ _)

/-- A blank line may go, but no line with text and nothing above one. -/
theorem suffix_dropBlank {p : Page} (hl : l ≠ []) (h : l :: ls <:+ p.lines) :
    l :: ls <:+ p.dropBlank.lines := by
  unfold dropBlank endsBlank
  split
  next m r hlines =>
    obtain ⟨above, habove⟩ := h
    cases above with
    | nil =>
      rw [List.nil_append, hlines] at habove
      exact absurd (List.cons.inj habove).1 hl
    | cons b above =>
      rw [hlines, List.cons_append] at habove
      exact ⟨above, by rw [hlines]; exact (List.cons.inj habove).2⟩
  next => exact h

theorem suffix_step {p : Page} (hl : l ≠ []) (h : l :: ls <:+ p.lines) (d : Directive) :
    l :: ls <:+ (p.step d).lines := by
  cases d with
  | line t | opening t => exact suffix_write h t
  | blank =>
    rw [step, separate]
    split
    · exact h
    · exact h.trans (List.suffix_cons _ _)
  | closing t =>
    exact suffix_write (suffix_dropBlank (p := { p with depth := p.depth - 1 }) hl h) t

theorem suffix_run {p : Page} (hl : l ≠ []) (h : l :: ls <:+ p.lines) (ds : List Directive) :
    l :: ls <:+ (p.run ds).lines := by
  induction ds generalizing p with
  | nil => exact h
  | cons d ds ih => exact ih (suffix_step hl h d)

theorem suffix_trimEnd (hl : l ≠ []) {ms : List (List Char)} (h : l :: ls <:+ ms) :
    l :: ls <:+ trimEnd ms := by
  fun_induction trimEnd ms with
  | case1 m ms ih =>
    obtain h | h := List.suffix_cons_iff.1 h
    · exact absurd (List.cons.inj h).1 hl
    · exact ih h
  | case2 => exact h

end Keep

theorem run_append (p : Page) (ds es : List Directive) : p.run (ds ++ es) = (p.run ds).run es :=
  List.foldl_append

theorem EndsFull.render {before : List Directive} (h : (empty.run before).EndsFull)
    (after : List Directive) : (empty.run before).chars <+: (render (before ++ after)).toList := by
  obtain ⟨l, ls, hlines, hl⟩ := h
  have hkept : l :: ls <:+ trimEnd (empty.run (before ++ after)).lines := by
    apply suffix_trimEnd hl
    rw [run_append]
    exact suffix_run hl (hlines ▸ List.suffix_rfl) after
  obtain ⟨above, habove⟩ := hkept
  refine ⟨above.reverse.flatMap fun l => l ++ ['\n'], ?_⟩
  rw [Text.render, text, String.toList_ofList, chars, hlines, ← habove, List.reverse_append,
    List.flatMap_append]

section Block

structure IsRow (t : String) : Prop where
  full : t ≠ ""
  single : '\n' ∉ t.toList

variable {rows : List String} {head close : String}

theorem depth_rows (p : Page) (rows : List String) : (p.run (rows.map .line)).depth = p.depth := by
  induction rows generalizing p with
  | nil => rfl
  | cons t rows ih => exact (ih (p.write t)).trans (depth_write p t)

theorem chars_rows (p : Page) (h : ∀ t ∈ rows, IsRow t) : (p.run (rows.map .line)).chars =
    p.chars ++ rows.flatMap fun t => indentation p.depth ++ t.toList ++ ['\n'] := by
  induction rows generalizing p with
  | nil => exact (List.append_nil _).symm
  | cons t rows ih =>
    obtain ⟨ht, hrows⟩ := List.forall_mem_cons.1 h
    have htail := ih (p.write t) hrows
    rw [depth_write, chars_write p ht.full, List.append_assoc] at htail
    exact htail

theorem endsFull_rows {p : Page} (hp : p.EndsFull) (h : ∀ t ∈ rows, IsRow t) :
    (p.run (rows.map .line)).EndsFull := by
  induction rows generalizing p with
  | nil => exact hp
  | cons t rows ih =>
    obtain ⟨ht, hrows⟩ := List.forall_mem_cons.1 h
    exact ih (endsFull_write p ht.full ht.single) hrows

theorem chars_block (p : Page) (hhead : head ≠ "") (hne : rows ≠ []) (h : ∀ t ∈ rows, IsRow t)
    (hclose : IsRow close) :
    (p.run (.opening head :: rows.map .line ++ [.closing close])).EndsFull ∧
      (p.run (.opening head :: rows.map .line ++ [.closing close])).chars =
        p.chars ++ (indentation p.depth ++ head.toList ++ ['\n']) ++
          (rows.flatMap fun t => indentation (p.depth + 1) ++ t.toList ++ ['\n']) ++
          (indentation p.depth ++ close.toList ++ ['\n']) := by
  obtain ⟨t, r, rfl⟩ := List.exists_cons_of_ne_nil hne
  let q : Page := { p.write head with depth := p.depth + 1 }
  let body := q.run ((t :: r).map .line)
  let outer : Page := { body with depth := p.depth }
  have hopen : p.step (.opening head) = q := by simp [step, q]
  have hdepth : body.depth = p.depth + 1 := depth_rows q _
  have hfull : body.EndsFull := by
    obtain ⟨ht, hr⟩ := List.forall_mem_cons.1 h
    show ((q.write t).run (r.map .line)).EndsFull
    exact endsFull_rows (endsFull_write q ht.full ht.single) hr
  have hrun : p.run (.opening head :: (t :: r).map .line ++ [.closing close]) =
      outer.write close := by
    have houter : outer.dropBlank = outer := EndsFull.dropBlank hfull
    rw [run_append]
    show (((p.step (.opening head)).run ((t :: r).map .line)).step (.closing close)) = _
    rw [hopen, step, show q.run ((t :: r).map .line) = body from rfl, hdepth, Nat.add_sub_cancel,
      houter]
  rw [hrun]
  refine ⟨endsFull_write outer hclose.full hclose.single, ?_⟩
  calc (outer.write close).chars
      = body.chars ++ (indentation p.depth ++ close.toList ++ ['\n']) :=
        chars_write outer hclose.full
    _ = q.chars ++ ((t :: r).flatMap fun t => indentation (p.depth + 1) ++ t.toList ++ ['\n']) ++
          (indentation p.depth ++ close.toList ++ ['\n']) := by rw [chars_rows q h]
    _ = _ := by
      have hq : q.chars = (p.write head).chars := rfl
      rw [hq, chars_write p hhead]

/-- The block stands in the rendered page as it was written, behind what came before it. -/
theorem render_block (before : List Directive) (head close : String) (after : List Directive)
    (hhead : head ≠ "") (hne : rows ≠ []) (h : ∀ t ∈ rows, IsRow t) (hclose : IsRow close) : ∃ rest,
    (render (before ++ (.opening head :: rows.map .line ++ [.closing close]) ++ after)).toList =
      (empty.run before).chars ++
        (indentation (empty.run before).depth ++ head.toList ++ ['\n']) ++
        (rows.flatMap fun t => indentation ((empty.run before).depth + 1) ++ t.toList ++ ['\n']) ++
        (indentation (empty.run before).depth ++ close.toList ++ ['\n']) ++ rest := by
  obtain ⟨hfull, hchars⟩ := chars_block (empty.run before) hhead hne h hclose
  rw [← run_append] at hfull hchars
  obtain ⟨rest, hrest⟩ := hfull.render after
  exact ⟨rest, by rw [← hrest, hchars]⟩

end Block

end Page

end ShaderBuild.Text
