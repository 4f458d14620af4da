import ShaderBuild.Proofs.Code.LineTexts

namespace ShaderBuild.Code.Cpp

open Text

section Blocks

theorem fresh_brace : Fresh "\x7b" := by simp [fresh_iff]

variable {head close : String} {rows ds : List Directive}

theorem orderly_rows (hhead : Fresh head) (hrows : ∀ d ∈ rows, d.IsRow) (hclose : Final close) :
    Orderly (.line head :: block rows close) := by
  have hbraces := (Orderly.rowBlock fresh_brace hrows hclose).append .blank
  simpa [block] using hbraces.cons_line hhead

theorem orderly_nested (hhead : Fresh head) (hd : Orderly ds) (hclose : Final close) :
    Orderly (.line head :: block ds close) := by
  have hbraces := (Orderly.itemBlock fresh_brace hd hclose).append .blank
  simpa [block] using hbraces.cons_line hhead

end Blocks

section Types

theorem orderly_enumDecl {d : EnumDecl} (h : ∀ n ∈ (Item.enum d).names, '\n' ∉ n.toList) :
    Orderly (enumDecl d) := by
  obtain ⟨hn, hv⟩ := List.forall_mem_cons.1 h
  have hrows : ∀ r ∈ (d.variants.mapIdx fun i v => Directive.line s!"{v} = {i},") ++
      [.line s!"{countVariant} = {d.variants.length}"], r.IsRow := by
    refine List.forall_mem_append.2 ⟨fun r hr => ?_, List.forall_mem_singleton.2 ?_⟩
    · obtain ⟨i, hi, rfl⟩ := List.mem_mapIdx.1 hr
      have hname := hv _ (List.getElem_mem hi)
      exact .of_mem (c := '=') (by simp [hname]) (by simp) rfl
    · exact .of_mem (c := '=') (by simp [countVariant]) (by simp) rfl
  have hbraces := Orderly.rowBlock fresh_brace hrows final_value
  have hvalues := hbraces.cons_line (show Fresh "enum Type : uint32_t" by simp [fresh_iff])
  have hspace := orderly_nested (show Fresh s!"namespace {d.name}" by simp [fresh_iff, hn]) hvalues
    (show Final s!"\x7d // namespace {d.name}" by simp [final_iff, hn])
  simpa [enumDecl, block] using hspace

theorem isRow_fieldLine {f : Field} (hn : '\n' ∉ f.name.toList)
    (ht : ∀ n ∈ f.type.names, '\n' ∉ n.toList) (hc : ∀ t ∈ f.sourceType, '\n' ∉ t.toList) :
    (fieldLine f).IsRow := by
  have hdecl := newline_notMem_declarator hn ht
  unfold fieldLine
  cases hs : f.sourceType with
  | none => exact .of_mem (c := ';') (by simp [hdecl]) (by simp) rfl
  | some t => exact .of_mem (c := ';') (by simp [hdecl, hc t hs]) (by simp) rfl

theorem orderly_structDecl {d : StructDecl} (h : ∀ n ∈ (Item.struct d).names, '\n' ∉ n.toList)
    (hc : ∀ t ∈ (Item.struct d).comments, '\n' ∉ t.toList) : Orderly (structDecl d) := by
  simp only [Item.names, List.forall_mem_cons, List.forall_mem_flatMap] at h
  obtain ⟨hn, hf⟩ := h
  have hrows : ∀ r ∈ d.fields.map fieldLine, r.IsRow := List.forall_mem_map.2 fun f hm =>
    isRow_fieldLine (hf f hm).1 (hf f hm).2 fun t ht => hc t (List.mem_filterMap.2 ⟨f, hm, ht⟩)
  exact orderly_rows (by simp [fresh_iff, hn]) hrows final_value

theorem orderly_wrapperDecl {d : WrapperDecl} (h : ∀ n ∈ (Item.wrapper d).names, '\n' ∉ n.toList) :
    Orderly (wrapperDecl d) := by
  simp only [Item.names, List.forall_mem_cons, List.forall_mem_append] at h
  obtain ⟨hn, hb, ⟨hindex, hsize⟩, hstride⟩ := h
  have hi := newline_notMem_value hindex
  have hs := newline_notMem_value hsize
  have ht := newline_notMem_value hstride
  refine orderly_rows (by simp [fresh_iff, hn, hb]) ?_ final_value
  simp only [List.forall_mem_cons]
  exact ⟨.of_mem (c := '=') (by simp [hi]) (by simp) rfl,
    .of_mem (c := '=') (by simp [hs]) (by simp) rfl,
    .of_mem (c := '=') (by simp [ht]) (by simp) rfl, List.forall_mem_nil _⟩

end Types

section Definitions

variable (b : Bool)

theorem orderly_instanceDefinition {d : InstanceDecl}
    (h : ∀ n ∈ (Item.instance_ d).names, '\n' ∉ n.toList) :
    Orderly (instanceDefinition b d) ∧ Fresh s!"extern {instanceHead d};" := by
  simp only [Item.names, List.forall_mem_cons, List.forall_mem_flatMap] at h
  obtain ⟨hn, ht, hv⟩ := h
  have hrows : ∀ r ∈ d.values.map valueLine, r.IsRow := List.forall_mem_map.2 fun p hm => by
    have hvalue := newline_notMem_value (hv p hm).2
    exact .of_mem (c := ',') (by simp [(hv p hm).1, hvalue]) (by simp) rfl
  refine ⟨?_, by simp [fresh_iff, instanceHead, hn, ht]⟩
  rw [instanceDefinition_eq]
  refine orderly_rows ?_ hrows final_value
  cases b <;> simp [fresh_iff, linkage, instanceHead, hn, ht]

theorem orderly_blobDefinition {d : BlobDecl} (h : ∀ n ∈ (Item.blob d).names, '\n' ∉ n.toList) :
    Orderly (blobDefinition b d) ∧ Fresh s!"extern {blobHead d};" := by
  have hn := h d.name (by simp [Item.names])
  have hhead : blobHead d = s!"const uint8_t {d.name}[{d.bytes.length}]" := rfl
  refine ⟨orderly_rows ?_ (isRow_hexRows _ _) final_value, ?_⟩
  · cases b <;> simp [fresh_iff, linkage, hhead, hn]
  · simp [fresh_iff, hhead, hn]

theorem newline_notMem_lookup {k : TableKind} (h : ∀ n ∈ k.names, '\n' ∉ n.toList) :
    '\n' ∉ (lookupParameter k).toList ∧ '\n' ∉ (lookupIndex k).toList := by
  cases k with
  | byId | byName => simp [lookupParameter, lookupIndex]
  | byEnum key =>
    have hkey := h key (by simp [TableKind.names])
    simp [lookupParameter, lookupIndex, enumType, hkey]

theorem orderly_tableDefinition {d : TableDecl} (h : ∀ n ∈ (Item.table d).names, '\n' ∉ n.toList) :
    Orderly (tableDefinition b d) ∧ Fresh s!"{tableSignature d};" := by
  simp only [Item.names, List.forall_mem_cons, List.forall_mem_append, List.forall_mem_map] at h
  obtain ⟨hn, ht, hl, hf, hk, he⟩ := h
  obtain ⟨hparameter, hindex⟩ := newline_notMem_lookup hk
  have hhead : tableSignature d =
    s!"const {d.elementType}& {d.lookup}({lookupParameter d.kind})" := rfl
  have hlookup : Fresh s!"{linkage b}{tableSignature d}" := by
    cases b <;> simp [fresh_iff, linkage, hhead, ht, hl, hparameter]
  refine ⟨?_, by simp [fresh_iff, hhead, ht, hl, hparameter]⟩
  have harray : Orderly (arrayTable b d) := by
    refine (orderly_rows ?_ (List.forall_mem_map.2 fun e hm => ?_) final_value).append
      (orderly_rows hlookup (List.forall_mem_singleton.2 ?_) final_brace)
    · cases b <;> simp [fresh_iff, storage, hn, ht]
    · exact .of_mem (c := '&') (by simp [he e hm]) (by simp) rfl
    · exact .of_mem (c := ';') (by simp [hindex, hn, hf]) (by simp) rfl
  have hmap : Orderly (mapTable b d) := by
    refine (orderly_rows ?_ (List.forall_mem_map.2 fun e hm => ?_) final_value).append
      (orderly_rows hlookup (List.forall_mem_cons.2 ⟨?_, List.forall_mem_singleton.2 ?_⟩)
        final_brace)
    · cases b <;> simp [fresh_iff, storage, hn, ht]
    · exact .of_mem (c := '&') (by simp [he e hm]) (by simp) rfl
    · exact .of_mem (c := ';') (by simp [hn]) (by simp) rfl
    · exact .of_mem (c := ';') (by simp [hn, hf]) (by simp) rfl
  unfold tableDefinition
  split
  · exact hmap
  · exact harray

theorem orderly_dispatcherDefinition {d : DispatcherDecl}
    (h : ∀ n ∈ (Item.dispatcher d).names, '\n' ∉ n.toList) :
    Orderly (dispatcherDefinition b d) ∧ Fresh s!"{dispatcherSignature d};" := by
  simp only [Item.names, List.forall_mem_cons, List.forall_mem_flatMap] at h
  obtain ⟨hn, ht, hkey, hs, hf, hr⟩ := h
  have hhead : dispatcherSignature d = "const " ++ d.returnType ++ "& " ++ d.name ++ "(" ++
    (d.keyEnum ++ "::Type") ++ " key, " ++ (d.selectorEnum ++ "::Type") ++ " selector)" := rfl
  have hdefinition : Fresh s!"{linkage b}{dispatcherSignature d}" := by
    cases b <;> simp [fresh_iff, linkage, hhead, hn, ht, hkey, hs]
  have hrows : ∀ r ∈ d.routes.flatMap (routeLines d) ++
      [.line "default:", .line ("    return " ++ d.fallback ++ ";")], r.IsRow := by
    simp only [List.forall_mem_append, List.forall_mem_flatMap, List.forall_mem_cons, routeLines]
    refine ⟨fun p hm => ?_, ?_, ?_, List.forall_mem_nil _⟩
    · obtain ⟨hvariant, hmodule, -⟩ := hr p hm
      exact ⟨.of_mem (c := ':') (by simp [hs, hvariant]) (by simp) rfl,
        .of_mem (c := ';') (by simp [hmodule, hn]) (by simp) rfl, List.forall_mem_nil _⟩
    · exact .of_mem (c := ':') (by simp) (by simp) rfl
    · exact .of_mem (c := ';') (by simp [hf]) (by simp) rfl
  refine ⟨?_, by simp [fresh_iff, hhead, hn, ht, hkey, hs]⟩
  have hbraces := Orderly.rowBlock fresh_brace hrows final_brace
  have hswitch := hbraces.cons_line (show Fresh "switch (selector)" by simp [fresh_iff])
  rw [dispatcherDefinition_eq]
  simpa [switchBody] using orderly_nested hdefinition hswitch final_brace

end Definitions

section Files

namespace Sides

structure Orderly (u : Sides) : Prop where
  header : Text.Orderly u.header
  source : Text.Orderly u.source

variable {u v : Sides} {headerOnly : Bool}

theorem Orderly.append (hu : u.Orderly) (hv : v.Orderly) : (u.append v).Orderly :=
  ⟨hu.header.append hv.header, hu.source.append hv.source⟩

theorem orderly_define {declaration : String} {definition : Bool → List Directive}
    (h : ∀ b, Text.Orderly (definition b) ∧ Fresh s!"{declaration};") :
    (define headerOnly declaration definition).Orderly := by
  cases headerOnly with
  | true => exact ⟨(h true).1, .nil⟩
  | false => exact ⟨.cons_line (h false).2 .blank, (h false).1⟩

theorem Orderly.inNamespace {name : String} (h : u.Orderly) (hn : '\n' ∉ name.toList) :
    (u.inNamespace headerOnly name).Orderly := by
  have hwrap {body : List Directive} (hb : Text.Orderly body) : Text.Orderly
      (.line s!"namespace {name}" :: block body s!"\x7d // namespace {name}") :=
    orderly_nested (by simp [fresh_iff, hn]) hb (by simp [final_iff, hn])
  cases headerOnly with
  | true => exact ⟨hwrap h.header, h.source⟩
  | false => exact ⟨hwrap h.header, hwrap h.source⟩

end Sides

variable {headerOnly : Bool}

mutual
theorem orderly_itemSides : ∀ {i : Item}, (∀ n ∈ i.names, '\n' ∉ n.toList) →
    (∀ t ∈ i.comments, '\n' ∉ t.toList) → (itemSides headerOnly i).Orderly
  | .comment t, _, hc => by
    have ht := hc t (by simp [Item.comments])
    exact ⟨.line (by simp [fresh_iff, ht]), .nil⟩
  | .enum _, hn, _ => ⟨orderly_enumDecl hn, .nil⟩
  | .struct _, hn, hc => ⟨orderly_structDecl hn hc, .nil⟩
  | .wrapper _, hn, _ => ⟨orderly_wrapperDecl hn, .nil⟩
  | .instance_ _, hn, _ => Sides.orderly_define fun b => orderly_instanceDefinition b hn
  | .table _, hn, _ => Sides.orderly_define fun b => orderly_tableDefinition b hn
  | .blob _, hn, _ => Sides.orderly_define fun b => orderly_blobDefinition b hn
  | .module _ _, hn, hc =>
    (orderly_itemsSides (List.forall_mem_cons.1 hn).2 hc).inNamespace (List.forall_mem_cons.1 hn).1
  | .dispatcher _, hn, _ => Sides.orderly_define fun b => orderly_dispatcherDefinition b hn
theorem orderly_itemsSides : ∀ {is : List Item}, (∀ n ∈ itemsNames is, '\n' ∉ n.toList) →
    (∀ t ∈ itemsComments is, '\n' ∉ t.toList) → (itemsSides headerOnly is).Orderly
  | [], _, _ => ⟨.nil, .nil⟩
  | _ :: _, hn, hc => by
    obtain ⟨hni, hnr⟩ := List.forall_mem_append.1 hn
    obtain ⟨hci, hcr⟩ := List.forall_mem_append.1 hc
    exact (orderly_itemSides hni hci).append (orderly_itemsSides hnr hcr)
end

theorem orderly_includeLine {d : Dependency} (h : '\n' ∉ d.name.toList) :
    Text.Orderly [includeLine d] := by
  cases d with
  | std n | sibling n =>
    have hn : '\n' ∉ n.toList := h
    exact .line (by simp [fresh_iff, hn])

theorem orderly_preamble {f : File} (h : ∀ n ∈ f.names, '\n' ∉ n.toList) :
    (preamble f).Orderly := by
  obtain ⟨hn, hrest⟩ := List.forall_mem_cons.1 h
  have hincludes : Text.Orderly (f.dependencies.map includeLine) := by
    rw [List.map_eq_flatMap]
    exact .flatMap fun d hd =>
      orderly_includeLine (hrest d.name (List.mem_append_left _ (List.mem_map_of_mem hd)))
  constructor
  · have hpragma : Fresh "#pragma once" := by simp [fresh_iff]
    exact .append (.append (.cons_line fresh_banner (.cons_line hpragma .blank)) hincludes) .blank
  · show Text.Orderly (if f.headerOnly then [] else _)
    split
    · exact .nil
    · exact .cons_line fresh_banner ((orderly_includeLine (d := .sibling f.name) hn).append .blank)

theorem orderly_fileSides {f : File} (hn : ∀ n ∈ f.names, '\n' ∉ n.toList)
    (hc : ∀ t ∈ f.comments, '\n' ∉ t.toList) : (fileSides f).Orderly :=
  (orderly_preamble hn).append
    (orderly_itemsSides (List.forall_mem_append.1 (List.forall_mem_cons.1 hn).2).2 hc)

end Files

end ShaderBuild.Code.Cpp
