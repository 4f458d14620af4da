import ShaderBuild.Code.Query
import ShaderBuild.Proofs.Code.CppItems

namespace ShaderBuild.Code

open Cpp

def Dependency.name : Dependency → String
  | std n | sibling n => n

section Items

variable (path : List String) (is : List Item)

theorem itemsNames_eq : itemsNames is = is.flatMap Item.names := by
  induction is with
  | nil => rfl
  | cons i r ih => rw [itemsNames, ih, List.flatMap_cons]

theorem itemsComments_eq : itemsComments is = is.flatMap Item.comments := by
  induction is with
  | nil => rfl
  | cons i r ih => rw [itemsComments, ih, List.flatMap_cons]

theorem itemsEntities_eq : itemsEntities path is = is.flatMap (Item.entities path) := by
  induction is with
  | nil => rfl
  | cons i r ih => rw [itemsEntities, ih, List.flatMap_cons]

theorem itemsEnumerations_eq : itemsEnumerations path is = is.flatMap (Item.enumerations path) := by
  induction is with
  | nil => rfl
  | cons i r ih => rw [itemsEnumerations, ih, List.flatMap_cons]

end Items

namespace File

def names (f : File) : List String :=
  f.name :: f.dependencies.map (·.name) ++ itemsNames f.items

def comments (f : File) : List String := itemsComments f.items

/-- What other files may use of a file, with the modules around it, in the order of the items. -/
def entities (f : File) : List Entity := itemsEntities [] f.items

def enumerations (f : File) : List (List String × String × List String) :=
  itemsEnumerations [] f.items

end File

namespace Cpp

open Text (Directive)
open Declaration

section Failure

mutual
theorem emptyBlob?_isSome : ∀ i : Item, (emptyBlob? i).isSome ↔
    ∃ d, Item.blob d ∈ i.flatten ∧ d.bytes = []
  | .blob d => by
    rw [emptyBlob?]
    split <;> simp_all [Item.flatten]
  | .module n is => by
    rw [emptyBlob?, emptyBlobs?_isSome is]
    simp [Item.flatten]
  | .comment _ | .enum _ | .struct _ | .wrapper _ | .instance_ _ | .table _ | .dispatcher _ => by
    simp [emptyBlob?, Item.flatten]
theorem emptyBlobs?_isSome : ∀ is : List Item, (emptyBlobs? is).isSome ↔
    ∃ d, Item.blob d ∈ flattenItems is ∧ d.bytes = []
  | [] => by simp [emptyBlobs?, flattenItems]
  | i :: r => by
    rw [emptyBlobs?, Option.isSome_or, Bool.or_eq_true, emptyBlob?_isSome i, emptyBlobs?_isSome r]
    simp only [flattenItems, List.mem_append, or_and_right, exists_or]
end

/-- Only a blob without bytes makes emission fail. -/
theorem emit_error_iff (f : File) : (∃ e, emit f = .error e) ↔
    ∃ d, Item.blob d ∈ flattenItems f.items ∧ d.bytes = [] := by
  rw [← emptyBlobs?_isSome, emit]
  cases emptyBlobs? f.items with
  | some n => simp [refuse]
  | none => cases f.headerOnly <;> simp

end Failure

section Agreement

variable [Standard]

section Preamble

theorem lexLine_include {d : Dependency} (h : IsWord d.name) :
    lexLine (includeLine d).text.toList = [] := by
  cases d with
  | std n =>
    have hn : IsWord n := h
    show lexLine ("#include <" ++ n ++ ">").toList = []
    simp only [lexLine, String.toList_append, Scan.run_append, Scan.run_word _ hn]
    rfl
  | sibling n =>
    have hn : IsWord n := h
    show lexLine ("#include \"" ++ n ++ ".h\"").toList = []
    simp only [lexLine, String.toList_append, Scan.run_append, Scan.run_word _ hn]
    rfl

theorem lexes_preamble {f : File} (hn : ∀ n ∈ f.names, IsWord n) :
    lexes (preamble f).header = [] ∧ lexes (preamble f).source = [] := by
  have hbanner : lexLine banner.toList = [] := rfl
  have hpragma : lexLine "#pragma once".toList = [] := rfl
  have hblank : lexLine "".toList = [] := rfl
  have hincludes : lexes (f.dependencies.map includeLine) = [] := by
    rw [lexes, List.flatMap_map, List.flatMap_eq_nil_iff]
    exact fun d hd => lexLine_include (hn _ (by simp [File.names, List.mem_map_of_mem hd]))
  have hheader : lexLine (includeLine (.sibling f.name)).text.toList = [] :=
    lexLine_include (hn _ (by simp [File.names, Dependency.name]))
  constructor
  · simp only [preamble, lexes_append, lexes_cons, lexes_nil, Directive.text, hbanner, hpragma, hblank,
      hincludes, List.append_nil]
  · rw [preamble]
    split
    · rfl
    · simp only [lexes_cons, lexes_nil, hheader]
      simp only [Directive.text, hbanner, hblank, List.append_nil]

end Preamble

/-- Every text of a file is read completely, and its sides agree. -/
theorem reads_emit {f : File} {out : List EmittedFile} (hn : ∀ n ∈ f.names, Text.isIdentifier n)
    (hc : ∀ t ∈ f.comments, OneLine t) (hout : emit f = .ok out) :
    ∃ hs ss, Agree f.headerOnly f.enumerations f.entities hs ss ∧
      if f.headerOnly then
        ∃ header, out = [header] ∧ header.name = f.name ++ ".h" ∧ read? header.contents = some hs ∧
          ss = []
      else ∃ header source, out = [header, source] ∧ header.name = f.name ++ ".h" ∧
        source.name = f.name ++ ".cpp" ∧ read? header.contents = some hs ∧
        read? source.contents = some ss := by
  have hwords : ∀ n ∈ f.names, IsWord n := fun n h => isWord_of_isIdentifier (hn n h)
  obtain ⟨hheader, hsource⟩ := lexes_preamble hwords
  obtain ⟨hempty, hs, ss, hhs, hss, hagree⟩ := reads_items f.headerOnly [] f.items
    (fun n h => hwords n (by simp [File.names, h])) hc
  have hreadHeader : read? (Text.render (fileSides f).header) = some hs :=
    read?_render (by rwa [fileSides, Sides.append, lexes_append, hheader])
  have hreadSource : read? (Text.render (fileSides f).source) = some ss :=
    read?_render (by rwa [fileSides, Sides.append, lexes_append, hsource])
  refine ⟨hs, ss, hagree, ?_⟩
  unfold emit at hout
  split at hout
  · cases hout
  · cases hh : f.headerOnly with
    | true =>
      rw [hh] at hout
      obtain rfl := Except.ok.inj hout
      rw [hempty hh] at hss
      exact ⟨_, rfl, rfl, hreadHeader, hss.eq_nil⟩
    | false =>
      rw [hh] at hout
      obtain rfl := Except.ok.inj hout
      exact ⟨_, _, rfl, rfl, rfl, hreadHeader, hreadSource⟩

/-- A header and a source, with what each declares and defines. -/
def PairsUp (f : File) (out : List EmittedFile) : Prop :=
  ∃ header source hs ss, out = [header, source] ∧ header.name = f.name ++ ".h" ∧
    source.name = f.name ++ ".cpp" ∧ read? header.contents = some hs ∧
    read? source.contents = some ss ∧ hs.filterMap declared? = f.entities ∧
    ss.filterMap defined? = f.entities.map (false, ·) ∧ hs.filterMap defined? = [] ∧
    ss.filterMap declared? = []

/-- A header with all definitions, which are inline, as are the tables behind them. -/
def StandsAlone (f : File) (out : List EmittedFile) : Prop :=
  ∃ header hs, out = [header] ∧ header.name = f.name ++ ".h" ∧ read? header.contents = some hs ∧
    hs.filterMap defined? = f.entities.map (true, ·) ∧ hs.filterMap declared? = [] ∧
    ∀ b path n, Declaration.table b path n ∈ hs → b = true

/-- Read back from the text, a header declares exactly what its source defines. -/
theorem emitted_sides_agree (f : File) :
    ((∃ e, emit f = .error e) ↔ ∃ d, Item.blob d ∈ flattenItems f.items ∧ d.bytes = []) ∧
      ((∀ n ∈ f.names, Text.isIdentifier n) → (∀ t ∈ f.comments, OneLine t) →
        ∀ out, emit f = .ok out → if f.headerOnly then StandsAlone f out else PairsUp f out) := by
  refine ⟨emit_error_iff f, fun hn hc out hout => ?_⟩
  obtain ⟨hs, ss, hagree, hread⟩ := reads_emit hn hc hout
  cases hh : f.headerOnly with
  | true =>
    rw [hh] at hagree hread
    obtain ⟨header, hout, hname, hheader, -⟩ := hread
    exact ⟨header, hs, hout, hname, hheader, hagree.inHeader, hagree.declared,
      fun b path n hm => hagree.tables b path n (List.mem_append_left _ hm)⟩
  | false =>
    rw [hh] at hagree hread
    obtain ⟨header, source, hout, hname, hname', hheader, hsource⟩ := hread
    exact ⟨header, source, hs, ss, hout, hname, hname', hheader, hsource, hagree.declared,
      hagree.inSource, hagree.inHeader, hagree.undeclared⟩

end Agreement

def gallery (headerOnly : Bool) : File where
  name := "Gallery"
  headerOnly := headerOnly
  dependencies := [.std "array", .sibling "Records"]
  items :=
    [.comment "a \"picture\"", .enum ⟨"Picture", ["Sunset"]⟩,
      .module "Vulkan"
        [.blob ⟨"Pixels", [7, 9]⟩,
          .instance_ ⟨"Sunset", "Record", [("title", .str "\x7b"), ("pixels", .blob "Pixels")]⟩,
          .table ⟨"All", "Record", .byEnum "Picture", [("Sunset", "Sunset")], "Find", "Missing"⟩],
      .dispatcher ⟨"Find", "Record", "Picture", "Api", [("Vulkan", "Vulkan")], "Missing"⟩]

theorem gallery_sides_agree : (gallery false).entities.map (fun e => (e.path, e.symbol)) =
      [(["Vulkan"], "Pixels"), (["Vulkan"], "Sunset"), (["Vulkan"], "Find"), ([], "Find")] ∧
    (∀ b, ∀ n ∈ (gallery b).names, Text.isIdentifier n) ∧
    (∀ _ : Standard, ∀ b, ∀ t ∈ (gallery b).comments, OneLine t) ∧
    (∃ out, emit (gallery false) = .ok out ∧ ∀ _ : Standard, PairsUp (gallery false) out) ∧
    ∃ out, emit (gallery true) = .ok out ∧ ∀ _ : Standard, StandsAlone (gallery true) out := by
  have hnames : ∀ b, ∀ n ∈ (gallery b).names, Text.isIdentifier n := by decide
  have hcomments : ∀ _ : Standard, ∀ b, ∀ t ∈ (gallery b).comments, OneLine t := by
    rintro ⟨_ | _⟩ <;> decide
  exact ⟨by decide, hnames, hcomments,
    ⟨_, rfl, fun s => (emitted_sides_agree _).2 (hnames false) (hcomments s false) _ rfl⟩,
    ⟨_, rfl, fun s => (emitted_sides_agree _).2 (hnames true) (hcomments s true) _ rfl⟩⟩

/-- A comment on one line, but with a backslash at its end, in front of a constant. -/
def swallowed : File :=
  ⟨"Answers", false, [],
    [.comment "see C:\\", .instance_ ⟨"Answer", "Number", [("value", .uint 42)]⟩]⟩

/-- The line behind the comment belongs to it, so that nothing is declared. -/
theorem comment_swallows_declaration : swallowed.headerOnly = false ∧
    (∀ n ∈ swallowed.names, Text.isIdentifier n) ∧ (∀ t ∈ swallowed.comments, '\n' ∉ t.toList) ∧
    ∃ header source, emit swallowed = .ok [header, source] ∧ ∀ _ : Standard,
      read? header.contents = some [] ∧ ¬PairsUp swallowed [header, source] := by
  refine ⟨rfl, by decide, by decide, _, _, rfl, fun standard => ?_⟩
  have hheader : read? (Text.render (fileSides swallowed).header) = some [] := by
    obtain ⟨_ | _⟩ := standard <;> decide +kernel
  refine ⟨hheader, ?_⟩
  rintro ⟨_, _, hs, _, hout, -, -, hread, -, hdeclared, -⟩
  obtain ⟨rfl, -⟩ := List.cons.inj hout
  obtain rfl := Option.some.inj (hheader.symm.trans hread)
  exact absurd hdeclared (by decide)

end Cpp

end ShaderBuild.Code
