import ShaderBuild.Code.Language
import ShaderBuild.Proofs.Code.CppSpacing
import ShaderBuild.Proofs.Code.RustSpacing

namespace ShaderBuild.Code

open Text

/-- What is written for a file, page by page. The source of a C++ header that stands alone is a page
as well, but an empty one that is not rendered. -/
def OutputLanguage.pages (language : OutputLanguage) (f : File) : List (List Directive) :=
  match language with
  | cpp => [(Cpp.fileSides f).header, (Cpp.fileSides f).source]
  | rust => [Rust.fileLines f]

section Pages

variable {f : File}

theorem orderly_pages (hn : ∀ n ∈ f.names, '\n' ∉ n.toList) (hc : ∀ t ∈ f.comments, '\n' ∉ t.toList)
    (language : OutputLanguage) : ∀ ds ∈ language.pages f, Orderly ds := by
  cases language with
  | cpp =>
    obtain ⟨hheader, hsource⟩ := Cpp.orderly_fileSides hn hc
    exact List.forall_mem_cons.2 ⟨hheader, List.forall_mem_singleton.2 hsource⟩
  | rust => exact List.forall_mem_singleton.2 (Rust.orderly_fileLines hn hc)

theorem exists_page {language : OutputLanguage} {out : List EmittedFile}
    (h : language.emit f = .ok out) {e : EmittedFile} (he : e ∈ out) :
    ∃ ds ∈ language.pages f, e.contents = render ds ∧ ds.head? = some (.line banner) := by
  cases language with
  | rust =>
    obtain rfl := Except.ok.inj h
    obtain rfl := List.mem_singleton.1 he
    exact ⟨_, List.mem_singleton_self _, rfl, rfl⟩
  | cpp =>
    have hemit : Cpp.emit f = .ok out := h
    unfold Cpp.emit at hemit
    split at hemit
    · cases hemit
    · cases hh : f.headerOnly with
      | true =>
        rw [hh] at hemit
        obtain rfl := Except.ok.inj hemit
        obtain rfl := List.mem_singleton.1 he
        exact ⟨_, List.mem_cons_self, rfl, rfl⟩
      | false =>
        rw [hh] at hemit
        obtain rfl := Except.ok.inj hemit
        rcases List.mem_pair.1 he with rfl | rfl
        · exact ⟨_, List.mem_cons_self, rfl, rfl⟩
        · exact ⟨_, List.mem_cons_of_mem _ List.mem_cons_self, rfl, by
            simp [Cpp.fileSides, Cpp.preamble, Cpp.Sides.append, hh]⟩

end Pages

/-- Where no name and no comment breaks its line, the pages of a file never close a block that is
not open, and leave none open; the ends of blocks can be told by their first mark. What is rendered
ends with one line break and has no two blank lines in a row, none behind the brace that opens a
block and none in front of the end of one. -/
theorem emitted_pages_well_spaced (language : OutputLanguage) (f : File)
    (hn : ∀ n ∈ f.names, '\n' ∉ n.toList) (hc : ∀ t ∈ f.comments, '\n' ∉ t.toList) :
    (∀ ds ∈ language.pages f, Balanced ds ∧ ∀ t, .closing t ∈ ds → Closes t.toList) ∧
      ∀ out, language.emit f = .ok out → ∀ e ∈ out,
        (∃ ds ∈ language.pages f, e.contents = render ds) ∧ Neat e.contents := by
  have horderly := orderly_pages hn hc language
  refine ⟨fun ds hds => ⟨(horderly ds hds).paired.balanced, fun t ht => ?_⟩,
    fun out hout e he => ?_⟩
  · exact ((horderly ds hds).final t ht).closes_legible.1
  · obtain ⟨ds, hds, htext, hfirst⟩ := exists_page hout he
    exact ⟨⟨ds, hds, htext⟩, htext ▸ (horderly ds hds).neat hfirst fresh_banner.legible⟩

def cabinet : File where
  name := "Cabinet"
  headerOnly := false
  dependencies := [.std "array", .sibling "Shelf"]
  items :=
    [.comment "drawers \x7b",
      .module "Oak \x7b"
        [.module "Empty" [],
          .struct ⟨"Box", [⟨"lid", .named "\x7d", [2], some "\x7b"⟩]⟩,
          .comment "\x7d"],
      .enum ⟨"Kinds", []⟩]

theorem cabinet_well_spaced : (∀ n ∈ cabinet.names, '\n' ∉ n.toList) ∧
    (∀ t ∈ cabinet.comments, '\n' ∉ t.toList) ∧ ∀ language : OutputLanguage,
      (∀ ds ∈ language.pages cabinet, Balanced ds ∧ ∀ t, .closing t ∈ ds → Closes t.toList) ∧
        ∃ out, language.emit cabinet = .ok out ∧ out ≠ [] ∧ ∀ e ∈ out, Neat e.contents := by
  have hnames : ∀ n ∈ cabinet.names, '\n' ∉ n.toList := by decide
  have hcomments : ∀ t ∈ cabinet.comments, '\n' ∉ t.toList := by decide
  refine ⟨hnames, hcomments, fun language => ?_⟩
  obtain ⟨hpages, hneat⟩ := emitted_pages_well_spaced language cabinet hnames hcomments
  refine ⟨hpages, ?_⟩
  cases language with
  | cpp => exact ⟨_, rfl, List.cons_ne_nil _ _, fun e he => (hneat _ rfl e he).2⟩
  | rust => exact ⟨_, rfl, List.cons_ne_nil _ _, fun e he => (hneat _ rfl e he).2⟩

end ShaderBuild.Code
