import ShaderBuild.Proofs.Code.CppLines

namespace ShaderBuild.Code.Cpp

open Text (Directive)

section Parts

def variantLine (i : Nat) (v : String) : Directive := .line (v ++ " = " ++ toString i ++ ",")

def countLine (d : EnumDecl) : Directive :=
  .line (countVariant ++ " = " ++ toString d.variants.length)

def enumLines (d : EnumDecl) : List Directive := d.variants.mapIdx variantLine ++ [countLine d]

theorem enumDecl_eq (d : EnumDecl) : enumDecl d =
    [Directive.line ("namespace " ++ d.name), .opening "\x7b", .line "enum Type : uint32_t",
      .opening "\x7b"] ++ enumLines d ++
      [.closing "\x7d;", .closing ("\x7d // namespace " ++ d.name), .blank] := by
  simp only [enumDecl, enumLines, List.append_assoc]
  rfl

def valueLine (p : String × Value) : Directive := .line (value p.2 ++ ", // " ++ p.1)

theorem instanceDefinition_eq (b : Bool) (d : InstanceDecl) : instanceDefinition b d =
    Directive.line (linkage b ++ instanceHead d ++ " =") ::
      block (d.values.map valueLine) "\x7d;" := rfl

theorem blobDefinition_eq (b : Bool) (d : BlobDecl) : blobDefinition b d =
    Directive.line (linkage b ++ blobHead d ++ " =") ::
      block ((hexRows d.bytes 16).map .line) "\x7d;" := rfl

def arrayBody (d : TableDecl) : List Directive :=
  [.line ("return " ++ lookupIndex d.kind ++ " < " ++ d.name ++ ".size() ? *" ++ d.name ++ "[" ++
    lookupIndex d.kind ++ "] : " ++ d.fallback ++ ";")]

def mapBody (d : TableDecl) : List Directive :=
  [.line ("const auto it = " ++ d.name ++ ".find(name);"),
    .line ("return it != " ++ d.name ++ ".end() ? *it->second : " ++ d.fallback ++ ";")]

def arrayEntry (e : String × String) : Directive := .line ("&" ++ e.2 ++ ",")

def mapEntry (e : String × String) : Directive :=
  .line ("\x7b " ++ stringLiteral e.1 ++ ", &" ++ e.2 ++ " \x7d,")

theorem arrayTable_eq (b : Bool) (d : TableDecl) : arrayTable b d =
    Directive.line (storage b ++ " const std::array<const " ++ d.elementType ++ "*, " ++
        toString d.entries.length ++ "> " ++ (d.name ++ " =")) ::
      block (d.entries.map arrayEntry) "\x7d;" ++
    Directive.line (linkage b ++ tableSignature d) :: block (arrayBody d) "\x7d" := rfl

theorem mapTable_eq (b : Bool) (d : TableDecl) : mapTable b d =
    Directive.line (storage b ++ " const std::unordered_map<std::string_view, const " ++
        d.elementType ++ "*> " ++ (d.name ++ " =")) ::
      block (d.entries.map mapEntry) "\x7d;" ++
    Directive.line (linkage b ++ tableSignature d) :: block (mapBody d) "\x7d" := rfl

def routeLines (d : DispatcherDecl) (r : String × String) : List Directive :=
  [.line ("case " ++ d.selectorEnum ++ "::" ++ r.1 ++ ":"),
    .line ("    return " ++ r.2 ++ "::" ++ d.name ++ "(key);")]

def switchBody (d : DispatcherDecl) : List Directive :=
  [Directive.line "switch (selector)", .opening "\x7b"] ++ (d.routes.flatMap (routeLines d) ++
    [Directive.line "default:", .line ("    return " ++ d.fallback ++ ";"), .closing "\x7d"])

theorem dispatcherDefinition_eq (b : Bool) (d : DispatcherDecl) : dispatcherDefinition b d =
    Directive.line (linkage b ++ dispatcherSignature d) :: block (switchBody d) "\x7d" := by
  simp only [block, switchBody, List.append_assoc, List.cons_append, List.nil_append]
  rfl

end Parts

section Heads

variable {path : List String}

theorem isHead_linkage {ts : List Token} (h : IsHead ts) (b : Bool) :
    IsHead (linkageTokens b ++ ts) := by
  cases b with
  | true => exact List.forall_mem_cons.2 ⟨by simp [Token.IsQuiet], h⟩
  | false => exact h

theorem isHead_lookup {d : TableDecl} : IsHead (d.entity path).head := by
  obtain ⟨name, type, kind, entries, lookup, fallback⟩ := d
  cases kind <;>
  simp [IsHead, TableDecl.entity, Entity.head, lookupTokens, enumTypeTokens, Token.IsQuiet]

theorem isHead_dispatcher {d : DispatcherDecl} : IsHead (d.entity path).head := by
  simp [IsHead, DispatcherDecl.entity, Entity.head, enumTypeTokens, Token.IsQuiet]

theorem isHead_declares {ts : List Token} (h : IsHead ts) : IsHead (.of "extern" :: ts) :=
  List.forall_mem_cons.2 ⟨by simp [Token.IsQuiet], h⟩

end Heads

section Types

variable [Standard] {path : List String}

theorem enumerators?_lines {vs : List String} {line : Nat → String → Directive}
    (hline : ∀ v ∈ vs, ∀ i, ∃ w,
      lexLine (line i v).text.toList = [Token.of v, .mark '=', .word w, .mark ','])
    {rest : List Token} {names : List String} (hrest : enumerators? rest = some names) :
    enumerators? (lexes (vs.mapIdx line) ++ rest) = some (vs ++ names) := by
  induction vs generalizing line with
  | nil => exact hrest
  | cons v vs ih =>
    obtain ⟨hl, hls⟩ := List.forall_mem_cons.1 hline
    obtain ⟨w, hw⟩ := hl 0
    rw [List.mapIdx_cons, lexes_cons, hw, List.append_assoc]
    show (enumerators? (lexes (vs.mapIdx fun i => line (i + 1)) ++ rest)).map _ = _
    rw [ih fun v hv i => hls v hv (i + 1)]
    simp

section Enum

variable {d : EnumDecl} (hv : ∀ v ∈ d.variants, IsWord v)

include hv

theorem lexLine_variantLine {v : String} (h : v ∈ d.variants) (i : Nat) :
    lexLine (variantLine i v).text.toList = [Token.of v, .mark '=', .of (toString i), .mark ','] :=
  (lexLine_variant (hv v h) (isWord_toString i)).1

omit hv in
theorem lexLine_countLine (d : EnumDecl) : lexLine (countLine d).text.toList =
    [Token.of countVariant, .mark '=', .of (toString d.variants.length)] :=
  (lexLine_variant (isWord_of_isIdentifier (by decide)) (isWord_toString _)).2

theorem enumerators?_enumLines :
    enumerators? (lexes (enumLines d)) = some (d.variants ++ [countVariant]) := by
  have hline : ∀ v ∈ d.variants, ∀ i, ∃ w, lexLine (variantLine i v).text.toList =
      [Token.of v, .mark '=', .word w, .mark ','] := fun v h i => ⟨_, lexLine_variantLine hv h i⟩
  have hcount : enumerators? (lexes [countLine d]) = some [countVariant] := by
    rw [lexes_cons, lexes_nil, List.append_nil, lexLine_countLine]
    rfl
  rw [enumLines, lexes_append]
  exact enumerators?_lines hline hcount

theorem inside_enumLines : Inside (lexes (enumLines d)) := by
  have hquiet (v w : String) : Inside [.of v, .mark '=', .of w] :=
    .of_quiet (by simp [Token.IsQuiet])
  have hcomma : Inside [.mark ','] := .of_quiet (by simp [Token.IsQuiet])
  have hcount : Inside (lexes [countLine d]) := by
    rw [lexes_cons, lexes_nil, List.append_nil, lexLine_countLine]
    exact hquiet _ _
  rw [enumLines, lexes_append]
  refine .append (.flatMap fun l hl => ?_) hcount
  obtain ⟨i, hi, rfl⟩ := List.mem_mapIdx.1 hl
  rw [lexLine_variantLine hv (List.getElem_mem hi)]
  exact (hquiet _ _).append hcomma

theorem reads_enum (hn : IsWord d.name) : Reads path (lexes (enumDecl d))
    [.enumeration (path ++ [d.name]) "Type" (d.variants ++ [countVariant])] := by
  have hlexes : lexes (enumDecl d) = Token.of "namespace" :: .of d.name :: .mark '{' ::
      ([Token.of "enum", .of "Type", .mark ':', .of "uint32_t"] ++ Token.mark '{' ::
        (lexes (enumLines d) ++ [Token.mark '}', .mark ';']) ++ [Token.mark '}']) := by
    have hhead : lexLine "enum Type : uint32_t".toList =
      [Token.of "enum", .of "Type", .mark ':', .of "uint32_t"] := rfl
    have hend : lexLine "\x7d;".toList = [Token.mark '}', .mark ';'] := rfl
    have hblank : lexLine "".toList = [] := rfl
    rw [enumDecl_eq]
    simp only [lexes_append, lexes_cons, lexes_nil, Directive.text, lexLine_namespace hn,
      lexLine_brace, lexLine_namespaceEnd hn, hhead, hend, hblank]
    simp
  rw [hlexes]
  refine .namespace (.block (by simp [IsHead, Token.IsQuiet]) rfl (inside_enumLines hv) (by simp) ?_)
  show (enumerators? (lexes (enumLines d))).map _ = _
  rw [enumerators?_enumLines hv]
  rfl

end Enum

/-- A line in front of a body, and the body of a type or of a value. -/
theorem reads_valueBlock {t : String} {body : List Directive} {d : Declaration} {head : List Token}
    (ht : lexLine t.toList = head) (h : IsHead head) (hn : Reader.opened? head = none)
    (hlast : head.getLast? ≠ some (.mark ')')) (hb : Inside (lexes body))
    (hd : declaration? path head (some (lexes body)) = some d) :
    Reads path (lexes (.line t :: block body "\x7d;")) [d] := by
  have hend : lexLine "\x7d;".toList = [Token.mark '}', .mark ';'] := rfl
  rw [lexes_cons, lexes_block, hend, Directive.text, ht]
  exact .block h hn hb hlast hd

theorem reads_functionBlock {t : String} {body : List Directive} {d : Declaration}
    {head : List Token} (ht : lexLine t.toList = head) (h : IsHead head)
    (hn : Reader.opened? head = none) (hlast : head.getLast? = some (.mark ')'))
    (hb : Inside (lexes body)) (hd : declaration? path head (some (lexes body)) = some d) :
    Reads path (lexes (.line t :: block body "\x7d")) [d] := by
  have hend : lexLine "\x7d".toList = [Token.mark '}'] := rfl
  rw [lexes_cons, lexes_block, hend, Directive.text, ht]
  exact .function h hn hb hlast hd

theorem reads_struct {d : StructDecl} (hn : IsWord d.name)
    (hf : ∀ f ∈ d.fields, IsWord f.name ∧ ∀ n ∈ f.type.names, IsWord n)
    (hc : ∀ f ∈ d.fields, ∀ t ∈ f.sourceType, OneLine t) :
    Reads path (lexes (structDecl d)) [.struct path d.name] := by
  have hbody : Inside (lexes (d.fields.map fieldLine)) :=
    inside_lines fun f h => inside_fieldLine (hf f h).1 (hf f h).2 (hc f h)
  refine reads_valueBlock (lexLine_struct hn hn).1 (by simp [IsHead, Token.IsQuiet]) rfl (by simp)
    hbody ?_
  show some (Declaration.struct path (.ofList d.name.toList)) = _
  rw [String.ofList_toList]

theorem reads_wrapper {d : WrapperDecl} (hn : IsWord d.name) (hb : IsWord d.base)
    (hv : ∀ v ∈ [d.index, d.size, d.stride], ∀ n ∈ v.names, IsWord n) :
    Reads path (lexes (wrapperDecl d)) [.struct path d.name] := by
  have hindex :
      Inside (lexLine ("static constexpr uint32_t index = " ++ value d.index ++ ";").toList) :=
    inside_constant (hv _ (by simp)) (by decide) rfl
  have hsize :
      Inside (lexLine ("static constexpr uint32_t size = " ++ value d.size ++ ";").toList) :=
    inside_constant (hv _ (by simp)) (by decide) rfl
  have hstride :
      Inside (lexLine ("static constexpr uint32_t stride = " ++ value d.stride ++ ";").toList) :=
    inside_constant (hv _ (by simp)) (by decide) rfl
  refine reads_valueBlock (lexLine_struct hn hb).2 (by simp [IsHead, Token.IsQuiet]) rfl (by simp)
    (hindex.append (hsize.append (hstride.append .nil))) ?_
  show some (Declaration.struct path (.ofList d.name.toList)) = _
  rw [String.ofList_toList]

end Types

section Entities

variable [Standard] {path : List String}

theorem reads_instance {d : InstanceDecl} (hn : IsWord d.name) (ht : IsWord d.type)
    (hv : ∀ p ∈ d.values, IsWord p.1 ∧ ∀ n ∈ p.2.names, IsWord n) (b : Bool) :
    Reads path (lexes (instanceDefinition b d)) [.defines b (d.entity path)] := by
  have hbody : Inside (lexes (d.values.map valueLine)) :=
    inside_lines fun p h => inside_valueLine (hv p h).2 (hv p h).1
  have hhead : IsHead ((d.entity path).head ++ [Token.mark '=']) := by
    simp [IsHead, InstanceDecl.entity, Entity.head, Token.IsQuiet]
  rw [instanceDefinition_eq]
  refine reads_valueBlock (lexLine_instance path hn ht b).2 (isHead_linkage hhead b) ?_ ?_ hbody
    (declaration?_definition (d.entity path) b (.inr rfl) _)
  · cases b <;> rfl
  · simp [← List.append_assoc]

theorem reads_blob {d : BlobDecl} (hn : IsWord d.name) (b : Bool) :
    Reads path (lexes (blobDefinition b d)) [.defines b (d.entity path)] := by
  have hbody : Inside (lexes ((hexRows d.bytes 16).map .line)) :=
    inside_lines fun row h => inside_plain (plain_hexRow h)
  have hhead : IsHead ((d.entity path).head ++ [Token.mark '=']) := by
    simp [IsHead, BlobDecl.entity, Entity.head, Token.IsQuiet]
  rw [blobDefinition_eq]
  refine reads_valueBlock (lexLine_blob path hn b).2 (isHead_linkage hhead b) ?_ ?_ hbody
    (declaration?_definition (d.entity path) b (.inr rfl) _)
  · cases b <;> rfl
  · simp [← List.append_assoc]

theorem reads_functionDefinition {n r : String} {ps : List Token} {t : String}
    {body : List Directive} {b : Bool}
    (ht : lexLine t.toList = linkageTokens b ++ (Entity.head ⟨path, n, .function r ps⟩))
    (h : IsHead (Entity.head ⟨path, n, .function r ps⟩)) (hb : Inside (lexes body)) :
    Reads path (lexes (.line t :: block body "\x7d")) [.defines b ⟨path, n, .function r ps⟩] := by
  refine reads_functionBlock ht (isHead_linkage h b) ?_ ?_ hb
    (declaration?_definition _ b (.inl rfl) _)
  · cases b <;> rfl
  · rw [List.getLast?_append, getLast?_function]
    rfl

theorem reads_variable {t n : String} {body : List Directive} {b : Bool} {ts : List Token}
    (ht : lexLine t.toList = storageToken b :: (ts ++ [Token.mark '='])) (h : IsHead ts)
    (hshape : shape? ts = none) (hname : variableName? ts = some n) (hb : Inside (lexes body)) :
    Reads path (lexes (.line t :: block body "\x7d;")) [.table b path n] := by
  have hhead : IsHead (storageToken b :: (ts ++ [Token.mark '='])) := by
    have hequals : IsHead [.mark '='] := by simp [IsHead, Token.IsQuiet]
    refine List.forall_mem_cons.2 ⟨?_, fun t h' => (List.mem_append.1 h').elim (h t) (hequals t)⟩
    cases b <;> simp [storageToken, Token.IsQuiet]
  refine reads_valueBlock ht hhead ?_ ?_ hb (declaration?_table path b hshape hname _)
  · exact Reader.opened?_concat_mark (storageToken b :: ts) '='
  · rw [← List.cons_append, List.getLast?_concat]
    simp

section Table

variable {d : TableDecl} (hn : IsWord d.name) (ht : IsWord d.elementType) (hl : IsWord d.lookup)
  (hf : IsWord d.fallback) (hk : ∀ n ∈ d.kind.names, IsWord n) (he : ∀ e ∈ d.entries, IsWord e.2)

include hn hf in
theorem inside_bodies : Inside (lexes (arrayBody d)) ∧ Inside (lexes (mapBody d)) := by
  have hname := hn.plain
  have hfallback := hf.plain
  have hindex : Plain (lookupIndex d.kind) := by
    cases d.kind with
    | byId | byName => decide
    | byEnum key =>
      show Plain "static_cast<uint32_t>(key)"
      decide
  have hreturn : Plain ("return " ++ lookupIndex d.kind ++ " < " ++ d.name ++ ".size() ? *" ++
      d.name ++ "[" ++ lookupIndex d.kind ++ "] : " ++ d.fallback ++ ";") := by
    simp +decide only [plain_append, hindex, hname, hfallback]
  have hfind : Plain ("const auto it = " ++ d.name ++ ".find(name);") := by
    simp +decide only [plain_append, hname]
  have hfound :
      Plain ("return it != " ++ d.name ++ ".end() ? *it->second : " ++ d.fallback ++ ";") := by
    simp +decide only [plain_append, hname, hfallback]
  exact ⟨(inside_plain hreturn).append .nil,
    (inside_plain hfind).append ((inside_plain hfound).append .nil)⟩

theorem inside_pair {k n : String} (hn : IsWord n) :
    Inside (lexLine ("\x7b " ++ stringLiteral k ++ ", &" ++ n ++ " \x7d,").toList) := by
  have hopen : Scan.begin.run "\x7b ".toList = ⟨.gap, [.mark '{']⟩ := rfl
  obtain ⟨j, hj⟩ := Scan.run_stringLiteral ⟨.gap, [.mark '{']⟩ (.inr rfl) k
  have hlex : lexLine ("\x7b " ++ stringLiteral k ++ ", &" ++ n ++ " \x7d,").toList =
      Token.mark '{' :: (List.replicate j Token.literal ++ [Token.mark ',', .mark '&', .of n]) ++
        [Token.mark '}'] ++ [Token.mark ','] := by
    have hrest : (((Scan.run ⟨.gap, List.replicate j Token.literal ++ [Token.mark '{']⟩
        ", &".toList).run n.toList).run " \x7d,".toList).finish =
          ([Token.mark ',', .mark '}', .of n, .mark '&', .mark ','] ++
            (List.replicate j Token.literal ++ [Token.mark '{'])).reverse := by
      rw [Scan.run_word _ hn]
      rfl
    simp only [lexLine, String.toList_append, Scan.run_append, hopen, hj, hrest]
    simp
  rw [hlex]
  have hend : Inside [.mark ','] := .of_quiet (by simp [Token.IsQuiet])
  have hinstance : Inside [.mark ',', .mark '&', .of n] := .of_quiet (by simp [Token.IsQuiet])
  have hliterals : Inside (List.replicate j .literal) :=
    .of_quiet fun u hu => List.eq_of_mem_replicate hu ▸ isQuiet_literal
  exact (hliterals.append hinstance).braces.append hend

include hn ht hl hf hk he

theorem reads_arrayTable (b : Bool) : Reads path (lexes (arrayTable b d))
    [.table b path d.name, .defines b (d.entity path)] := by
  have hentries : Inside (lexes (d.entries.map arrayEntry)) := by
    refine inside_lines fun e h => ?_
    have hname := (he e h).plain
    exact inside_plain (show Plain ("&" ++ e.2 ++ ",") by simp +decide only [plain_append, hname])
  rw [arrayTable_eq, lexes_append]
  exact .append (reads_variable (lexLine_tableVariable hn ht b).1
      (by simp [IsHead, arrayHead, Token.IsQuiet]) rfl (by simp [variableName?, arrayHead]) hentries)
    (reads_functionDefinition (lexLine_lookup path hl ht hk b).2 isHead_lookup
      (inside_bodies hn hf).1)

theorem reads_mapTable (b : Bool) : Reads path (lexes (mapTable b d))
    [.table b path d.name, .defines b (d.entity path)] := by
  have hentries : Inside (lexes (d.entries.map mapEntry)) :=
    inside_lines fun e h => inside_pair (he e h)
  rw [mapTable_eq, lexes_append]
  exact .append (reads_variable (lexLine_tableVariable hn ht b).2
      (by simp [IsHead, mapHead, Token.IsQuiet]) rfl (by simp [variableName?, mapHead]) hentries)
    (reads_functionDefinition (lexLine_lookup path hl ht hk b).2 isHead_lookup
      (inside_bodies hn hf).2)

theorem reads_table (b : Bool) : Reads path (lexes (tableDefinition b d))
    [.table b path d.name, .defines b (d.entity path)] := by
  unfold tableDefinition
  split
  · exact reads_mapTable hn ht hl hf hk he b
  · exact reads_arrayTable hn ht hl hf hk he b

end Table

section Dispatcher

variable {d : DispatcherDecl} (hn : IsWord d.name) (hs : IsWord d.selectorEnum)
  (hf : IsWord d.fallback) (hr : ∀ r ∈ d.routes, IsWord r.1 ∧ IsWord r.2)

include hn hs hf hr

theorem inside_switchBody : Inside (lexes (switchBody d)) := by
  have hname := hn.plain
  have henum := hs.plain
  have hroutes : Inside (lexes (d.routes.flatMap (routeLines d))) := by
    rw [lexes, List.flatMap_assoc]
    refine .flatMap fun r h => ?_
    have hvariant := (hr r h).1.plain
    have hmodule := (hr r h).2.plain
    have hcase : Plain ("case " ++ d.selectorEnum ++ "::" ++ r.1 ++ ":") := by
      simp +decide only [plain_append, henum, hvariant]
    have hreturn : Plain ("    return " ++ r.2 ++ "::" ++ d.name ++ "(key);") := by
      simp +decide only [plain_append, hmodule, hname]
    exact (inside_plain hcase).append ((inside_plain hreturn).append .nil)
  have hdefault : Inside (lexLine "default:".toList) := inside_plain (by decide)
  have hreturn : Inside (lexLine ("    return " ++ d.fallback ++ ";").toList) := by
    have hfallback := hf.plain
    exact inside_plain (by simp +decide only [plain_append, hfallback])
  have hswitch : Inside (lexLine "switch (selector)".toList) := inside_plain (by decide)
  have hclose : lexLine "\x7d".toList = [Token.mark '}'] := rfl
  have hlexes : lexes (switchBody d) = lexLine "switch (selector)".toList ++
      (Token.mark '{' :: (lexes (d.routes.flatMap (routeLines d)) ++ (lexLine "default:".toList ++
        lexLine ("    return " ++ d.fallback ++ ";").toList)) ++ [Token.mark '}']) := by
    simp only [switchBody, lexes_append, lexes_cons, lexes_nil, Directive.text, lexLine_brace, hclose,
      List.append_nil, List.append_assoc, List.cons_append, List.nil_append]
  rw [hlexes]
  exact hswitch.append (hroutes.append (hdefault.append hreturn)).braces

theorem reads_dispatcher (ht : IsWord d.returnType) (hk : IsWord d.keyEnum) (b : Bool) :
    Reads path (lexes (dispatcherDefinition b d)) [.defines b (d.entity path)] := by
  rw [dispatcherDefinition_eq]
  exact reads_functionDefinition (lexLine_dispatcher path hn ht hk hs b).2 isHead_dispatcher
    (inside_switchBody hn hs hf hr)

end Dispatcher

theorem reads_declaration {t : String} {d : Declaration} {head : List Token}
    (ht : lexLine t.toList = head ++ [Token.mark ';']) (h : IsHead head)
    (hd : declaration? path head none = some d) : Reads path (lexes [.line t, .blank]) [d] := by
  have hblank : lexLine Directive.blank.text.toList = [] := rfl
  rw [lexes_cons, lexes_cons, lexes_nil, hblank, Directive.text, ht, List.append_nil, List.append_nil]
  exact .statement h hd

end Entities

open Declaration

/-- The declarations of a header and a source agree on the entities. With a source the header
declares what the source defines; without one, all definitions are in the header, and inline. -/
structure Agree (headerOnly : Bool) (enums : List (List String × String × List String))
    (es : List Entity) (header source : List Declaration) : Prop where
  declared : header.filterMap declared? = if headerOnly then [] else es
  inHeader : header.filterMap defined? = if headerOnly then es.map (true, ·) else []
  inSource : source.filterMap defined? = if headerOnly then [] else es.map (false, ·)
  undeclared : source.filterMap declared? = []
  tables : ∀ b path n, Declaration.table b path n ∈ header ++ source → b = headerOnly
  enums : header.filterMap enumeration? = enums
  untyped : source.filterMap enumeration? = []

theorem Agree.nil {h : Bool} : Agree h [] [] [] [] := by
  constructor <;> simp

theorem Agree.append {h : Bool} {ns ms : List (List String × String × List String)} {es fs : List Entity}
    {hs ss ht st : List Declaration} (a : Agree h ns es hs ss) (b : Agree h ms fs ht st) :
    Agree h (ns ++ ms) (es ++ fs) (hs ++ ht) (ss ++ st) where
  declared := by
    rw [List.filterMap_append, a.declared, b.declared]
    cases h <;> simp
  inHeader := by
    rw [List.filterMap_append, a.inHeader, b.inHeader]
    cases h <;> simp
  inSource := by
    rw [List.filterMap_append, a.inSource, b.inSource]
    cases h <;> simp
  undeclared := by rw [List.filterMap_append, a.undeclared, b.undeclared, List.append_nil]
  tables := by
    intro t p n hm
    have hmem : Declaration.table t p n ∈ hs ++ ss ∨ Declaration.table t p n ∈ ht ++ st := by
      simp only [List.mem_append] at hm ⊢
      exact or_or_or_comm.1 hm
    exact hmem.elim (a.tables t p n) (b.tables t p n)
  enums := by rw [List.filterMap_append, a.enums, b.enums]
  untyped := by rw [List.filterMap_append, a.untyped, b.untyped, List.append_nil]

section Agree

variable [Standard] {h : Bool} {path : List String} {e : Entity} {ds : List Declaration}

/-- What both sides of an item declare. -/
def ReadsSides (h : Bool) (path : List String) (u : Sides)
    (enums : List (List String × String × List String)) (es : List Entity) : Prop :=
  (h = true → u.source = []) ∧
    ∃ hs ss, Reads path (lexes u.header) hs ∧ Reads path (lexes u.source) ss ∧ Agree h enums es hs ss

/-- An entity, perhaps behind a variable that it uses. -/
theorem readsSides_define {declaration : String} {definition : Bool → List Directive}
    (tables : Bool → List Declaration) (ht : ∀ b, ∀ d ∈ tables b, ∃ n, d = .table b path n)
    (hdecl : Reads path (lexes [.line (declaration ++ ";"), .blank]) [.declares e])
    (hdef : ∀ b, Reads path (lexes (definition b)) (tables b ++ [Declaration.defines b e])) :
    ReadsSides h path (.define h declaration definition) [] [e] := by
  have hnone {α : Type} {f : Declaration → Option α} (hf : ∀ b p n, f (.table b p n) = none)
      (b : Bool) : (tables b).filterMap f = [] := by
    refine List.filterMap_eq_nil_iff.2 fun d hd => ?_
    obtain ⟨n, rfl⟩ := ht b d hd
    exact hf b path n
  have htable {b t : Bool} {p : List String} {n : String}
      (hm : Declaration.table t p n ∈ tables b ++ [Declaration.defines b e]) : t = b := by
    obtain ⟨m, hm⟩ := ht b _ ((List.mem_append.1 hm).resolve_right (by simp))
    exact (Declaration.table.inj hm).1
  have hdeclared (b : Bool) : (tables b ++ [defines b e]).filterMap declared? = [] := by
    rw [List.filterMap_append, hnone fun _ _ _ => rfl]
    rfl
  have hdefined (b : Bool) : (tables b ++ [defines b e]).filterMap defined? = [(b, e)] := by
    rw [List.filterMap_append, hnone fun _ _ _ => rfl]
    rfl
  have henums (b : Bool) : (tables b ++ [defines b e]).filterMap enumeration? = [] := by
    rw [List.filterMap_append, hnone fun _ _ _ => rfl]
    rfl
  cases h with
  | true =>
    exact ⟨fun _ => rfl, _, [], hdef true, .nil, hdeclared true, hdefined true, rfl, rfl,
      fun b p n hm => htable (by simpa using hm), henums true, rfl⟩
  | false =>
    exact ⟨nofun, _, _, hdecl, hdef false, rfl, rfl, hdefined false, hdeclared false,
      fun b p n hm => htable (by simpa using hm), rfl, henums false⟩

theorem readsSides_header {ls : List Directive} {enums : List (List String × String × List String)}
    (hr : Reads path (lexes ls) ds) (hd : ds.filterMap declared? = [])
    (hf : ds.filterMap defined? = []) (ht : ∀ b p n, Declaration.table b p n ∉ ds)
    (he : ds.filterMap enumeration? = enums) : ReadsSides h path ⟨ls, []⟩ enums [] := by
  have htable : ∀ b p n, Declaration.table b p n ∈ ds ++ [] → b = h := fun b p n hm =>
    absurd (by simpa using hm) (ht b p n)
  refine ⟨fun _ => rfl, ds, [], hr, .nil, ?_, ?_, ?_, rfl, htable, he, rfl⟩
  · rw [hd]
    cases h <;> rfl
  · rw [hf]
    cases h <;> rfl
  · cases h <;> rfl

theorem readsSides_inNamespace {u : Sides} {n : String}
    {enums : List (List String × String × List String)} {es : List Entity} (hn : IsWord n)
    (hu : ReadsSides h (path ++ [n]) u enums es) :
    ReadsSides h path (u.inNamespace h n) enums es := by
  have hwrap {ls : List Directive} {ds : List Declaration} (hr : Reads (path ++ [n]) (lexes ls) ds) :
      Reads path (lexes (.line ("namespace " ++ n) :: block ls ("\x7d // namespace " ++ n))) ds := by
    rw [lexes_cons, lexes_block, Directive.text, lexLine_namespace hn, lexLine_namespaceEnd hn]
    exact .namespace hr
  obtain ⟨hsource, ds, es, hd, he, hagree⟩ := hu
  cases h with
  | false => exact ⟨nofun, ds, es, hwrap hd, hwrap he, hagree⟩
  | true =>
    have hempty : u.source = [] := hsource rfl
    rw [hempty] at he
    obtain rfl := he.eq_nil
    exact ⟨hsource, ds, [], hwrap hd, by rw [Sides.inNamespace, hempty]; exact .nil, hagree⟩

theorem ReadsSides.append {u v : Sides} {ns ms : List (List String × String × List String)}
    {es fs : List Entity} (hu : ReadsSides h path u ns es) (hv : ReadsSides h path v ms fs) :
    ReadsSides h path (u.append v) (ns ++ ms) (es ++ fs) := by
  obtain ⟨hu, hs, ss, hhs, hss, hagree⟩ := hu
  obtain ⟨hv, ht, st, hht, hst, hagree'⟩ := hv
  refine ⟨fun hh => ?_, hs ++ ht, ss ++ st, ?_, ?_, hagree.append hagree'⟩
  · rw [Sides.append, hu hh, hv hh]
    rfl
  · rw [Sides.append, lexes_append]
    exact hhs.append hht
  · rw [Sides.append, lexes_append]
    exact hss.append hst

end Agree

variable [Standard]

mutual
theorem reads_item (h : Bool) (path : List String) : ∀ i : Item, (∀ n ∈ i.names, IsWord n) →
    (∀ c ∈ i.comments, OneLine c) →
    ReadsSides h path (itemSides h i) (i.enumerations path) (i.entities path)
  | .comment t, _, hc => by
    have ht : OneLine t := hc t (by simp [Item.comments])
    have hlex : lexes [.line ("// " ++ t)] = [] := by
      rw [lexes_cons, lexes_nil, Directive.text, lexLine_comment ht, List.append_nil]
    exact readsSides_header (hlex ▸ Reads.nil) rfl rfl (by simp) rfl
  | .enum d, hn, _ => by
    obtain ⟨hname, hvariants⟩ := List.forall_mem_cons.1 hn
    exact readsSides_header (reads_enum hvariants hname) rfl rfl (by simp) rfl
  | .struct d, hn, hc => by
    simp only [Item.names, List.forall_mem_cons, List.forall_mem_flatMap] at hn
    obtain ⟨hname, hfields⟩ := hn
    have hcomments : ∀ f ∈ d.fields, ∀ t ∈ f.sourceType, OneLine t := fun f hf t ht =>
      hc t (List.mem_filterMap.2 ⟨f, hf, ht⟩)
    exact readsSides_header (reads_struct hname hfields hcomments) rfl rfl (by simp) rfl
  | .wrapper d, hn, _ => by
    simp only [Item.names, List.forall_mem_cons, List.forall_mem_append] at hn
    obtain ⟨hname, hbase, ⟨hindex, hsize⟩, hstride⟩ := hn
    have hvalues : ∀ v ∈ [d.index, d.size, d.stride], ∀ n ∈ v.names, IsWord n :=
      List.forall_mem_cons.2
        ⟨hindex, List.forall_mem_cons.2 ⟨hsize, List.forall_mem_singleton.2 hstride⟩⟩
    exact readsSides_header (reads_wrapper hname hbase hvalues) rfl rfl (by simp) rfl
  | .instance_ d, hn, _ => by
    simp only [Item.names, List.forall_mem_cons, List.forall_mem_flatMap] at hn
    obtain ⟨hname, htype, hvalues⟩ := hn
    have hhead : IsHead (d.entity path).head := by
      simp [IsHead, InstanceDecl.entity, Entity.head, Token.IsQuiet]
    exact readsSides_define (fun _ => []) (by simp)
      (reads_declaration (lexLine_instance path hname htype true).1 (isHead_declares hhead)
        (declaration?_declares (d.entity path))) (reads_instance hname htype hvalues)
  | .table d, hn, _ => by
    simp only [Item.names, List.forall_mem_cons, List.forall_mem_append, List.forall_mem_map] at hn
    obtain ⟨hname, htype, hlookup, hfallback, hkind, hentries⟩ := hn
    exact readsSides_define (fun b => [.table b path d.name]) (by simp)
      (reads_declaration (lexLine_lookup path hlookup htype hkind true).1 isHead_lookup
        (declaration?_prototype ..)) (reads_table hname htype hlookup hfallback hkind hentries)
  | .blob d, hn, _ => by
    have hname : IsWord d.name := hn _ List.mem_cons_self
    have hhead : IsHead (d.entity path).head := by
      simp [IsHead, BlobDecl.entity, Entity.head, Token.IsQuiet]
    exact readsSides_define (fun _ => []) (by simp)
      (reads_declaration (lexLine_blob path hname true).1 (isHead_declares hhead)
        (declaration?_declares (d.entity path))) (reads_blob hname)
  | .dispatcher d, hn, _ => by
    simp only [Item.names, List.forall_mem_cons, List.forall_mem_flatMap] at hn
    obtain ⟨hname, htype, hkey, hselector, hfallback, hroutes⟩ := hn
    have hpairs : ∀ r ∈ d.routes, IsWord r.1 ∧ IsWord r.2 := fun r hr =>
      ⟨(hroutes r hr).1, (hroutes r hr).2.1⟩
    exact readsSides_define (fun _ => []) (by simp)
      (reads_declaration (lexLine_dispatcher path hname htype hkey hselector true).1
        isHead_dispatcher (declaration?_prototype ..))
      (reads_dispatcher hname hselector hfallback hpairs htype hkey)
  | .module n is, hn, hc => by
    obtain ⟨hname, hnames⟩ := List.forall_mem_cons.1 hn
    exact readsSides_inNamespace hname (reads_items h (path ++ [n]) is hnames hc)
theorem reads_items (h : Bool) (path : List String) : ∀ is : List Item,
    (∀ n ∈ itemsNames is, IsWord n) → (∀ c ∈ itemsComments is, OneLine c) →
    ReadsSides h path (itemsSides h is) (itemsEnumerations path is) (itemsEntities path is)
  | [], _, _ => ⟨fun _ => rfl, [], [], .nil, .nil, .nil⟩
  | i :: r, hn, hc => by
    obtain ⟨hi, hr⟩ := List.forall_mem_append.1 hn
    obtain ⟨hci, hcr⟩ := List.forall_mem_append.1 hc
    exact (reads_item h path i hi hci).append (reads_items h path r hr hcr)
end

end ShaderBuild.Code.Cpp
