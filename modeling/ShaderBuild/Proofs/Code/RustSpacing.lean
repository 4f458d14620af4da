import ShaderBuild.Proofs.Code.LineTexts

namespace ShaderBuild.Code.Rust

open Text

section Attributes

theorem fresh_allowance : Fresh allowance := by simp [fresh_iff, allowance]

theorem final_array : Final "];" := by simp [final_iff]

theorem orderly_dataAttributes : Orderly dataAttributes :=
  .cons_line fresh_allowance (.cons_line (by simp [fresh_iff]) (.line (by simp [fresh_iff])))

end Attributes

section Types

theorem orderly_enumDecl {d : EnumDecl} (h : ∀ n ∈ (Item.enum d).names, '\n' ∉ n.toList) :
    Orderly (enumDecl d) := by
  obtain ⟨hn, hv⟩ := List.forall_mem_cons.1 h
  have hrows : ∀ r ∈ (d.variants.mapIdx fun i v => Directive.line s!"{ident v} = {i},") ++
      [.line s!"{countVariant} = {d.variants.length},"], r.IsRow := by
    refine List.forall_mem_append.2 ⟨fun r hr => ?_, List.forall_mem_singleton.2 ?_⟩
    · obtain ⟨i, hi, rfl⟩ := List.mem_mapIdx.1 hr
      have hname := hv _ (List.getElem_mem hi)
      exact .of_mem (c := '=') (by simp [hname]) (by simp) rfl
    · exact .of_mem (c := '=') (by simp [countVariant]) (by simp) rfl
  have hattributes : Orderly [.line allowance, .line "#[repr(u32)]",
      .line "#[derive(Debug, Clone, Copy, PartialEq, Eq, Hash)]"] :=
    .cons_line fresh_allowance (.cons_line (by simp [fresh_iff]) (.line (by simp [fresh_iff])))
  have hblock := Orderly.rowBlock
    (show Fresh s!"pub enum {ident d.name} \x7b" by simp [fresh_iff, hn]) hrows final_brace
  exact (hattributes.append hblock).append .blank

theorem isRow_fieldLine {f : Field} (hn : '\n' ∉ f.name.toList)
    (ht : ∀ n ∈ f.type.names, '\n' ∉ n.toList) (hc : ∀ t ∈ f.sourceType, '\n' ∉ t.toList) :
    (fieldLine f).IsRow := by
  have htype := newline_notMem_fieldType ht
  unfold fieldLine
  cases hs : f.sourceType with
  | none => exact .of_mem (c := ':') (by simp [hn, htype]) (by simp) rfl
  | some t => exact .of_mem (c := ':') (by simp [hn, htype, hc t hs]) (by simp) rfl

theorem orderly_structDecl {d : StructDecl} (h : ∀ n ∈ (Item.struct d).names, '\n' ∉ n.toList)
    (hc : ∀ t ∈ (Item.struct d).comments, '\n' ∉ t.toList) : Orderly (structDecl d) := by
  simp only [Item.names, List.forall_mem_cons, List.forall_mem_flatMap] at h
  obtain ⟨hn, hf⟩ := h
  have hrows : ∀ r ∈ d.fields.map fieldLine, r.IsRow := List.forall_mem_map.2 fun f hm =>
    isRow_fieldLine (hf f hm).1 (hf f hm).2 fun t ht => hc t (List.mem_filterMap.2 ⟨f, hm, ht⟩)
  have hblock := Orderly.rowBlock
    (show Fresh s!"pub struct {ident d.name} \x7b" by simp [fresh_iff, hn]) hrows final_brace
  exact (orderly_dataAttributes.append hblock).append .blank

theorem orderly_wrapperDecl {d : WrapperDecl} (h : ∀ n ∈ (Item.wrapper d).names, '\n' ∉ n.toList) :
    Orderly (wrapperDecl d) := by
  simp only [Item.names, List.forall_mem_cons, List.forall_mem_append] at h
  obtain ⟨hn, hb, ⟨hindex, hsize⟩, hstride⟩ := h
  have hi := newline_notMem_value hindex
  have hs := newline_notMem_value hsize
  have ht := newline_notMem_value hstride
  have hdata : ∀ r ∈ [Directive.line s!"pub data: {ident d.base},"], r.IsRow :=
    List.forall_mem_singleton.2 (.of_mem (c := ':') (by simp [hb]) (by simp) rfl)
  have hconstants : ∀ r ∈ [Directive.line s!"pub const index: u32 = {value d.index};",
      .line s!"pub const size: u32 = {value d.size};",
      .line s!"pub const stride: u32 = {value d.stride};"], r.IsRow := by
    simp only [List.forall_mem_cons]
    exact ⟨.of_mem (c := '=') (by simp [hi]) (by simp) rfl,
      .of_mem (c := '=') (by simp [hs]) (by simp) rfl,
      .of_mem (c := '=') (by simp [ht]) (by simp) rfl, List.forall_mem_nil _⟩
  have hstruct := Orderly.rowBlock
    (show Fresh s!"pub struct {ident d.name} \x7b" by simp [fresh_iff, hn]) hdata final_brace
  have himpl := Orderly.rowBlock
    (show Fresh s!"impl {ident d.name} \x7b" by simp [fresh_iff, hn]) hconstants final_brace
  exact (((orderly_dataAttributes.append hstruct).append
    (.cons_blank (.line fresh_allowance))).append himpl).append .blank

end Types

section Data

theorem orderly_instanceDecl {d : InstanceDecl}
    (h : ∀ n ∈ (Item.instance_ d).names, '\n' ∉ n.toList) : Orderly (instanceDecl d) := by
  simp only [Item.names, List.forall_mem_cons, List.forall_mem_flatMap] at h
  obtain ⟨hn, ht, hv⟩ := h
  refine .append (.cons_line fresh_allowance
    (.rowBlock ?_ (List.forall_mem_map.2 fun p hm => ?_) final_value)) .blank
  · simp [fresh_iff, hn, ht]
  · obtain ⟨hfield, hnames⟩ := hv p hm
    have hvalue := newline_notMem_value hnames
    exact .of_mem (c := ':') (by simp [hfield, hvalue]) (by simp) rfl

theorem orderly_blobDecl {d : BlobDecl} (h : ∀ n ∈ (Item.blob d).names, '\n' ∉ n.toList) :
    Orderly (blobDecl d) := by
  have hn := h d.name (by simp [Item.names])
  exact .append (.cons_line fresh_allowance
    (Orderly.rowBlock (by simp [fresh_iff, hn]) (isRow_hexRows _ _) final_array)) .blank

theorem orderly_table {head : String} {entries lookup : List Directive} (hhead : Fresh head)
    (he : ∀ r ∈ entries, r.IsRow) (hl : Orderly lookup) : Orderly
      (.line allowance :: block head entries "];" ++ [.blank, .line allowance] ++ lookup ++
        [.blank]) :=
  .append (.append (.append (.cons_line fresh_allowance
    (Orderly.rowBlock hhead he final_array)) (.cons_blank (.line fresh_allowance))) hl) .blank

theorem orderly_arrayTable {d : TableDecl} (h : ∀ n ∈ (Item.table d).names, '\n' ∉ n.toList) :
    Orderly (arrayTable d) := by
  simp only [Item.names, List.forall_mem_cons, List.forall_mem_append, List.forall_mem_map] at h
  obtain ⟨hn, ht, hl, hf, hk, he⟩ := h
  have hparameter : '\n' ∉ (lookupParameter d.kind).toList := by
    cases hkind : d.kind with
    | byId | byName => simp [lookupParameter]
    | byEnum key =>
      have hkey := hk key (by simp [hkind, TableKind.names])
      simp [lookupParameter, hkey]
  have hindex : '\n' ∉ (lookupIndex d.kind).toList := by cases d.kind <;> simp [lookupIndex]
  refine orderly_table ?_ (List.forall_mem_map.2 fun e hm => ?_)
    (Orderly.rowBlock ?_ (List.forall_mem_singleton.2 ?_) final_brace)
  · simp [fresh_iff, hn, ht]
  · exact .of_mem (c := '&') (by simp [he e hm]) (by simp) rfl
  · simp [fresh_iff, hl, ht, hparameter]
  · exact .of_mem (c := '&') (by simp [hn, hindex, hf]) (by simp) rfl

theorem orderly_nameTable {d : TableDecl} (h : ∀ n ∈ (Item.table d).names, '\n' ∉ n.toList) :
    Orderly (nameTable d) := by
  simp only [Item.names, List.forall_mem_cons, List.forall_mem_append, List.forall_mem_map] at h
  obtain ⟨hn, ht, hl, hf, -, he⟩ := h
  refine orderly_table ?_ (List.forall_mem_map.2 fun e hm => ?_)
    (Orderly.itemBlock ?_ (Orderly.rowBlock ?_ ?_ final_brace) final_brace)
  · simp [fresh_iff, hn, ht]
  · exact .of_mem (c := '&') (by simp [he e hm]) (by simp) rfl
  · simp [fresh_iff, hl, ht]
  · simp [fresh_iff]
  · refine List.forall_mem_append.2
      ⟨List.forall_mem_map.2 fun e hm => ?_, List.forall_mem_singleton.2 ?_⟩
    · exact .of_mem (c := '&') (by simp [he e hm]) (by simp) rfl
    · exact .of_mem (c := '&') (by simp [hf]) (by simp) rfl

theorem orderly_tableDecl {d : TableDecl} (h : ∀ n ∈ (Item.table d).names, '\n' ∉ n.toList) :
    Orderly (tableDecl d) := by
  unfold tableDecl
  split
  · exact orderly_nameTable h
  · exact orderly_arrayTable h

theorem orderly_dispatcherDecl {d : DispatcherDecl}
    (h : ∀ n ∈ (Item.dispatcher d).names, '\n' ∉ n.toList) : Orderly (dispatcherDecl d) := by
  simp only [Item.names, List.forall_mem_cons, List.forall_mem_flatMap] at h
  obtain ⟨hn, ht, hkey, hs, hf, hr⟩ := h
  have hrows : ∀ r ∈ (d.routes.map fun p => Directive.line
      s!"{ident d.selectorEnum}::{ident p.1} => {ident p.2}::{ident d.name}(key),") ++
      [.line s!"_ => &{ident d.fallback},"], r.IsRow := by
    refine List.forall_mem_append.2
      ⟨List.forall_mem_map.2 fun p hm => ?_, List.forall_mem_singleton.2 ?_⟩
    · obtain ⟨hvariant, hmodule, -⟩ := hr p hm
      exact .of_mem (c := ':') (by simp [hs, hvariant, hmodule, hn]) (by simp) rfl
    · exact .of_mem (c := '&') (by simp [hf]) (by simp) rfl
  have hmatch := Orderly.rowBlock (show Fresh "match selector \x7b" by simp [fresh_iff]) hrows
    final_brace
  exact .append (.cons_line fresh_allowance
    (Orderly.itemBlock (by simp [fresh_iff, hn, ht, hkey, hs]) hmatch final_brace)) .blank

end Data

section Files

mutual
theorem orderly_itemLines : ∀ {i : Item}, (∀ n ∈ i.names, '\n' ∉ n.toList) →
    (∀ t ∈ i.comments, '\n' ∉ t.toList) → Orderly (itemLines i)
  | .comment t, _, hc => by
    have ht := hc t (by simp [Item.comments])
    exact .line (by simp [fresh_iff, ht])
  | .enum _, hn, _ => orderly_enumDecl hn
  | .struct _, hn, hc => orderly_structDecl hn hc
  | .wrapper _, hn, _ => orderly_wrapperDecl hn
  | .instance_ _, hn, _ => orderly_instanceDecl hn
  | .table _, hn, _ => orderly_tableDecl hn
  | .blob _, hn, _ => orderly_blobDecl hn
  | .module name _, hn, hc => by
    obtain ⟨hname, hitems⟩ := List.forall_mem_cons.1 hn
    have huses : Orderly [.line "#[allow(unused_imports)]", .line "use super::*;", .blank] :=
      .cons_line (by simp [fresh_iff]) (.cons_line (by simp [fresh_iff]) .blank)
    have hbody := huses.append (orderly_itemsLines hitems hc)
    exact .append (.cons_line fresh_allowance
      (Orderly.itemBlock (by simp [fresh_iff, hname]) hbody final_brace)) .blank
  | .dispatcher _, hn, _ => orderly_dispatcherDecl hn
theorem orderly_itemsLines : ∀ {is : List Item}, (∀ n ∈ itemsNames is, '\n' ∉ n.toList) →
    (∀ t ∈ itemsComments is, '\n' ∉ t.toList) → Orderly (itemsLines is)
  | [], _, _ => .nil
  | _ :: _, hn, hc => by
    obtain ⟨hni, hnr⟩ := List.forall_mem_append.1 hn
    obtain ⟨hci, hcr⟩ := List.forall_mem_append.1 hc
    exact (orderly_itemLines hni hci).append (orderly_itemsLines hnr hcr)
end

theorem orderly_dependencyLines {d : Dependency} (headerOnly : Bool) (h : '\n' ∉ d.name.toList) :
    Orderly (dependencyLines headerOnly d) := by
  cases d with
  | std n => exact .nil
  | sibling n =>
    have hmodule : '\n' ∉ (Text.snakeCase n).toList := newline_notMem_snakeCase h
    cases headerOnly with
    | true =>
      have hinclude := Orderly.itemBlock
        (show Fresh s!"pub mod {Text.snakeCase n} \x7b" by simp [fresh_iff, hmodule])
        (.line (t := s!"include!(\"{Text.snakeCase n}.rs\");") (by simp [fresh_iff, hmodule]))
        final_brace
      exact .append (.cons_line fresh_allowance hinclude) (.line (by simp [fresh_iff, hmodule]))
    | false => exact .cons_line (by simp [fresh_iff]) (.line (by simp [fresh_iff, hmodule]))

theorem orderly_fileLines {f : File} (hn : ∀ n ∈ f.names, '\n' ∉ n.toList)
    (hc : ∀ t ∈ f.comments, '\n' ∉ t.toList) : Orderly (fileLines f) := by
  obtain ⟨hdependencies, hitems⟩ := List.forall_mem_append.1 (List.forall_mem_cons.1 hn).2
  have hsiblings : Orderly (f.dependencies.flatMap (dependencyLines f.headerOnly)) :=
    .flatMap fun d hd =>
      orderly_dependencyLines f.headerOnly (hdependencies d.name (List.mem_map_of_mem hd))
  exact .append (.append (.append (.cons_line fresh_banner .blank) hsiblings) .blank)
    (orderly_itemsLines hitems hc)

end Files

end ShaderBuild.Code.Rust
