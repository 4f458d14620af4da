import Mathlib.Data.List.Infix
import ShaderBuild.Code.Cpp
import ShaderBuild.Code.Query
import ShaderBuild.Code.Rust

namespace ShaderBuild.Code

section RustLines

open Rust

mutual
theorem itemLines_in_item {i : Item} : ∀ {j : Item}, i ∈ j.flatten → itemLines i <:+: itemLines j
  | .module n is, h => by
    rcases List.mem_cons.1 h with rfl | h
    · exact List.infix_rfl
    · refine (itemLines_in_items h).trans ?_
      exact ⟨.line allowance :: .opening s!"pub mod {ident n} \x7b" ::
        [.line "#[allow(unused_imports)]", .line "use super::*;", .blank],
        [.closing "\x7d", .blank], by simp [itemLines, block]⟩
  | .comment _, h | .enum _, h | .struct _, h | .wrapper _, h | .instance_ _, h | .table _, h
  | .blob _, h | .dispatcher _, h => List.mem_singleton.1 h ▸ List.infix_rfl
theorem itemLines_in_items {i : Item} :
    ∀ {is : List Item}, i ∈ flattenItems is → itemLines i <:+: itemsLines is
  | [], h => nomatch h
  | j :: r, h => by
    rcases List.mem_append.1 h with h | h
    · exact (itemLines_in_item h).trans (List.prefix_append _ _).isInfix
    · exact (itemLines_in_items h).trans (List.suffix_append _ _).isInfix
end

/-- The lines of an item stand together in the file, also those of an item in a module. -/
theorem itemLines_in_file {f : File} {i : Item} (h : i ∈ flattenItems f.items) :
    itemLines i <:+: fileLines f :=
  (itemLines_in_items h).trans (List.suffix_append _ _).isInfix

end RustLines

namespace Cpp

namespace Sides

structure Within (u v : Sides) : Prop where
  header : u.header <:+: v.header
  source : u.source <:+: v.source

variable {u v w : Sides}

theorem Within.refl (u : Sides) : Within u u := ⟨List.infix_rfl, List.infix_rfl⟩

theorem Within.trans (h : Within u v) (k : Within v w) : Within u w :=
  ⟨h.header.trans k.header, h.source.trans k.source⟩

theorem within_append_left (u v : Sides) : Within u (u.append v) :=
  ⟨(List.prefix_append _ _).isInfix, (List.prefix_append _ _).isInfix⟩

theorem within_append_right (u v : Sides) : Within v (u.append v) :=
  ⟨(List.suffix_append _ _).isInfix, (List.suffix_append _ _).isInfix⟩

theorem within_inNamespace (headerOnly : Bool) (name : String) (u : Sides) :
    Within u (u.inNamespace headerOnly name) := by
  have hwrap (body : List Text.Directive) : body <:+:
      .line s!"namespace {name}" :: block body s!"\x7d // namespace {name}" :=
    ⟨[.line s!"namespace {name}", .opening "\x7b"],
      [.closing s!"\x7d // namespace {name}", .blank], by simp [block]⟩
  cases headerOnly with
  | true => exact ⟨hwrap _, List.infix_rfl⟩
  | false => exact ⟨hwrap _, hwrap _⟩

end Sides

mutual
theorem itemSides_in_item (headerOnly : Bool) {i : Item} :
    ∀ {j : Item}, i ∈ j.flatten → (itemSides headerOnly i).Within (itemSides headerOnly j)
  | .module n is, h => by
    rcases List.mem_cons.1 h with rfl | h
    · exact .refl _
    · exact (itemSides_in_items headerOnly h).trans (Sides.within_inNamespace headerOnly n _)
  | .comment _, h | .enum _, h | .struct _, h | .wrapper _, h | .instance_ _, h | .table _, h
  | .blob _, h | .dispatcher _, h => List.mem_singleton.1 h ▸ .refl _
theorem itemSides_in_items (headerOnly : Bool) {i : Item} :
    ∀ {is : List Item}, i ∈ flattenItems is →
      (itemSides headerOnly i).Within (itemsSides headerOnly is)
  | [], h => nomatch h
  | j :: r, h => by
    rcases List.mem_append.1 h with h | h
    · exact (itemSides_in_item headerOnly h).trans (Sides.within_append_left _ _)
    · exact (itemSides_in_items headerOnly h).trans (Sides.within_append_right _ _)
end

theorem itemSides_in_file {f : File} {i : Item} (h : i ∈ flattenItems f.items) :
    (itemSides f.headerOnly i).Within (fileSides f) :=
  (itemSides_in_items f.headerOnly h).trans (Sides.within_append_right _ _)

end Cpp

end ShaderBuild.Code
