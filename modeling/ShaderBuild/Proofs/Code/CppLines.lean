import ShaderBuild.Proofs.Code.CppDeclarations

namespace ShaderBuild.Code

section Names

def FieldType.names : FieldType → List String
  | .enum n | .named n => [n]
  | _ => []

def Value.names : Value → List String
  | .enumVariant e v | .enumIndex e v => [e, v]
  | .sizeOf t => [t]
  | .blob n | .blobLength n _ => [n]
  | _ => []

def TableKind.names : TableKind → List String
  | .byEnum key => [key]
  | _ => []

mutual
def Item.names : Item → List String
  | .comment _ => []
  | .enum d => d.name :: d.variants
  | .struct d => d.name :: d.fields.flatMap fun f => f.name :: f.type.names
  | .wrapper d => d.name :: d.base :: (d.index.names ++ d.size.names ++ d.stride.names)
  | .instance_ d => d.name :: d.type :: d.values.flatMap fun (field, v) => field :: v.names
  | .table d =>
    d.name :: d.elementType :: d.lookup :: d.fallback :: (d.kind.names ++ d.entries.map (·.2))
  | .blob d => [d.name]
  | .module n is => n :: itemsNames is
  | .dispatcher d =>
    d.name :: d.returnType :: d.keyEnum :: d.selectorEnum :: d.fallback ::
      d.routes.flatMap fun (variant, module) => [variant, module]
def itemsNames : List Item → List String
  | [] => []
  | i :: r => i.names ++ itemsNames r
end

mutual
def Item.comments : Item → List String
  | .comment t => [t]
  | .struct d => d.fields.filterMap (·.sourceType)
  | .module _ is => itemsComments is
  | _ => []
def itemsComments : List Item → List String
  | [] => []
  | i :: r => i.comments ++ itemsComments r
end

end Names

namespace Cpp

open Text (Directive)

section Plain

variable {v : Value} {f : Field}

/-- An expression other than a text is words and marks. -/
theorem plain_value (hv : ∀ n ∈ v.names, IsWord n) (h : ∀ t, v ≠ .str t) : Plain (value v) := by
  have hname {n : String} (hn : n ∈ v.names) : Plain n := (hv n hn).plain
  cases v with
  | str t => exact absurd rfl (h t)
  | uint k =>
    show Plain (toString k ++ "u")
    exact (plain_append ..).2 ⟨(isWord_toString_uint32 k).plain, by decide⟩
  | maxUInt32 | noBlob => decide
  | enumVariant e w =>
    have he : Plain e := hname (by simp [Value.names])
    have hw : Plain w := hname (by simp [Value.names])
    show Plain (e ++ "::" ++ w)
    simp +decide only [plain_append, he, hw]
  | enumIndex e w =>
    have he : Plain e := hname (by simp [Value.names])
    have hw : Plain w := hname (by simp [Value.names])
    show Plain ("static_cast<uint32_t>(" ++ e ++ "::" ++ w ++ ")")
    simp +decide only [plain_append, he, hw]
  | sizeOf t =>
    have ht : Plain t := hname (by simp [Value.names])
    show Plain ("static_cast<uint32_t>(sizeof(" ++ t ++ "))")
    simp +decide only [plain_append, ht]
  | blob b =>
    show Plain b
    exact hname (by simp [Value.names])
  | blobLength b k =>
    have hb : Plain b := hname (by simp [Value.names])
    show Plain ("static_cast<uint32_t>(sizeof(" ++ b ++ "))")
    simp +decide only [plain_append, hb]

theorem plain_baseType {t : FieldType} (h : ∀ n ∈ t.names, IsWord n) : Plain (baseType t).1 := by
  have hscalar (k : ScalarKind) : Plain (scalarType k) := by cases k <;> decide
  cases t with
  | scalar k | vector k n | matrix k n m => exact hscalar k
  | uint32 | str | bytes => decide
  | enum n =>
    have hn : Plain n := (h n (by simp [FieldType.names])).plain
    show Plain (n ++ "::Type")
    simp +decide only [plain_append, hn]
  | named n => exact (h n (by simp [FieldType.names])).plain

theorem plain_declarator (hn : IsWord f.name) (ht : ∀ n ∈ f.type.names, IsWord n) :
    Plain (declarator f) := by
  have hbase := plain_baseType ht
  have hname := hn.plain
  have hdims : Plain (String.join ((dimensions f).map fun d => s!"[{d}]")) := by
    intro c hc
    rw [String.toList_join] at hc
    obtain ⟨cs, hcs, hc⟩ := List.mem_flatMap.1 hc
    obtain ⟨k, -, rfl⟩ := List.mem_map.1 hcs
    have hk := (isWord_toString_uint32 k).plain
    have hdim : Plain ("[" ++ toString k ++ "]") := by
      simp +decide only [plain_append, hk]
    exact hdim c hc
  show Plain ((baseType f.type).1 ++ " " ++ f.name ++ _)
  simp +decide only [plain_append, hbase, hname, hdims]

theorem isPlain_hexLiteral (b : UInt8) : ∀ c ∈ hexLiteral b, isPlain c := by
  obtain ⟨x, y, hb, hx, hy⟩ := hexByte_spec b
  have hplain {c : Char} (hc : Text.isWord c) : isPlain c := by simp [isPlain, hc]
  rw [hexLiteral, hb]
  simp only [List.cons_append, List.nil_append, List.forall_mem_cons]
  exact ⟨by decide, by decide, hplain hx, hplain hy, by decide, List.forall_mem_nil _⟩

theorem isPlain_hexLiterals (bs : List UInt8) :
    ∀ c ∈ [' '].intercalate (bs.map hexLiteral), isPlain c := by
  induction bs with
  | nil => simp
  | cons b bs ih =>
    cases bs with
    | nil => simpa using isPlain_hexLiteral b
    | cons b' bs =>
      rw [List.map_cons, List.map_cons, List.intercalate_cons_cons]
      simp only [List.forall_mem_append, List.forall_mem_singleton]
      exact ⟨⟨isPlain_hexLiteral b, by decide⟩, ih⟩

theorem plain_hexRow {row : String} {bytes : List UInt8} {n : Nat} (h : row ∈ hexRows bytes n) :
    Plain row := by
  obtain ⟨bs, -, rfl⟩ := List.mem_map.1 h
  intro c hc
  rw [String.toList_ofList] at hc
  exact isPlain_hexLiterals bs c hc

end Plain

section Words

variable [Standard] {n : String} {v : Value}

theorem IsWord.oneLine (h : IsWord n) : OneLine n where
  unbroken := h.wordy.plain (by decide)
  closed := by
    rw [stem_of_wordy h.wordy]
    exact fun hl => h.wordy.plain (by decide) (List.mem_of_getLast? hl)

theorem lexLine_brace : lexLine "\x7b".toList = [Token.mark '{'] := rfl

theorem lexes_block (body : List Directive) (close : String) :
    lexes (block body close) = Token.mark '{' :: (lexes body ++ lexLine close.toList) := by
  rw [block, lexes_append, lexes_cons]
  simp only [lexes_cons, lexes_nil, List.append_nil]
  show lexLine "\x7b".toList ++ lexes body ++ (lexLine close.toList ++ lexLine []) = _
  rw [lexLine_brace]
  show _ ++ (_ ++ []) = _
  rw [List.append_nil, List.singleton_append, List.cons_append]

theorem Scan.Quiet.run_text {s : Scan} (hs : s.Quiet) {t : String} (ht : Plain t) :
    (s.run t.toList).Quiet :=
  hs.run ht

theorem inside_plain {t : String} (h : Plain t) : Inside (lexLine t.toList) :=
  .of_quiet (Scan.quiet_begin.run_text h).finish

theorem run_value {s : Scan} (hs : s.Quiet) (hm : s.mode = .start ∨ s.mode = .gap)
    (hv : ∀ n ∈ v.names, IsWord n) : (s.run (value v).toList).Quiet := by
  by_cases h : ∃ t, v = .str t
  · obtain ⟨t, rfl⟩ := h
    obtain ⟨k, hk⟩ := Scan.run_stringLiteral s hm t
    show (s.run (stringLiteral t).toList).Quiet
    rw [hk]
    refine ⟨.inr (.inl rfl), fun u hu => ?_⟩
    rcases List.mem_append.1 hu with hu | hu
    · rw [List.eq_of_mem_replicate hu]
      exact isQuiet_literal
    · exact hs.tokens u hu
  · exact hs.run_text (plain_value hv fun t ht => h ⟨t, ht⟩)

end Words

section Bodies

variable [Standard]

theorem inside_comment {t c : String} (ht : Plain t) (hc : OneLine c) :
    Inside (lexLine (t ++ ("// " ++ c)).toList) := by
  rw [lexLine, String.toList_append, Scan.run_append]
  exact .of_quiet ((Scan.quiet_begin.run_text ht).finish_comment hc)

theorem inside_lines {α : Type} {xs : List α} {line : α → Directive}
    (h : ∀ x ∈ xs, Inside (lexLine (line x).text.toList)) : Inside (lexes (xs.map line)) := by
  rw [lexes, List.flatMap_map]
  exact .flatMap h

section Fields

variable {f : Field} {d : StructDecl}

theorem inside_fieldLine (hn : IsWord f.name) (ht : ∀ n ∈ f.type.names, IsWord n)
    (hc : ∀ t ∈ f.sourceType, OneLine t) : Inside (lexLine (fieldLine f).text.toList) := by
  have hdecl := plain_declarator hn ht
  have hline : Plain (declarator f ++ "; ") := by simp +decide only [plain_append, hdecl]
  unfold fieldLine
  cases hs : f.sourceType with
  | none =>
    have hend : Plain (declarator f ++ ";") := by simp +decide only [plain_append, hdecl]
    exact inside_plain hend
  | some t =>
    have htext : declarator f ++ "; // " ++ t = declarator f ++ "; " ++ ("// " ++ t) :=
      String.toList_inj.1 (by simp)
    show Inside (lexLine (declarator f ++ "; // " ++ t).toList)
    rw [htext]
    exact inside_comment hline (hc t hs)

end Fields

theorem inside_valueLine {v : Value} {field : String} (hv : ∀ n ∈ v.names, IsWord n)
    (hf : IsWord field) : Inside (lexLine (value v ++ ", // " ++ field).toList) := by
  have htext : value v ++ ", // " ++ field = value v ++ ", " ++ ("// " ++ field) :=
    String.toList_inj.1 (by simp)
  have hvalue := run_value Scan.quiet_begin (.inl rfl) hv
  have hcomma : Plain ", " := by decide
  rw [htext, lexLine, String.toList_append, String.toList_append, Scan.run_append, Scan.run_append]
  exact .of_quiet ((hvalue.run_text hcomma).finish_comment hf.oneLine)

theorem inside_constant {v : Value} (hv : ∀ n ∈ v.names, IsWord n) {before : String}
    (hp : Plain before) (hm : (Scan.begin.run before.toList).mode = .gap) :
    Inside (lexLine (before ++ value v ++ ";").toList) := by
  have hvalue := run_value (Scan.quiet_begin.run_text hp) (.inr hm) hv
  have hend : Plain ";" := by decide
  rw [lexLine, String.toList_append, String.toList_append, Scan.run_append, Scan.run_append]
  exact .of_quiet (hvalue.run_text hend).finish

end Bodies

def enumTypeTokens (n : String) : List Token := [.of n, .mark ':', .mark ':', .of "Type"]

def lookupTokens : TableKind → List Token
  | .byId => [.of "uint32_t", .of "id"]
  | .byEnum key => enumTypeTokens key ++ [Token.of "key"]
  | .byName => [.of "std", .mark ':', .mark ':', .of "string_view", .of "name"]

end Cpp

open Cpp

def InstanceDecl.entity (path : List String) (d : InstanceDecl) : Entity :=
  ⟨path, d.name, .constant d.type⟩

def BlobDecl.entity (path : List String) (d : BlobDecl) : Entity :=
  ⟨path, d.name, .array (toString d.bytes.length)⟩

def TableDecl.entity (path : List String) (d : TableDecl) : Entity :=
  ⟨path, d.lookup, .function d.elementType (lookupTokens d.kind)⟩

def DispatcherDecl.entity (path : List String) (d : DispatcherDecl) : Entity :=
  ⟨path, d.name, .function d.returnType (enumTypeTokens d.keyEnum ++ [Token.of "key", .mark ','] ++
    enumTypeTokens d.selectorEnum ++ [Token.of "selector"])⟩

mutual
/-- The entities of an item: its constants, blobs, lookup functions and dispatchers. -/
def Item.entities (path : List String) : Item → List Entity
  | .instance_ d => [d.entity path]
  | .table d => [d.entity path]
  | .blob d => [d.entity path]
  | .dispatcher d => [d.entity path]
  | .module n is => itemsEntities (path ++ [n]) is
  | .comment _ | .enum _ | .struct _ | .wrapper _ => []
def itemsEntities (path : List String) : List Item → List Entity
  | [] => []
  | i :: r => i.entities path ++ itemsEntities path r
end

mutual
/-- The enums of an item, each with its namespaces, the name of its type and its enumerators. -/
def Item.enumerations (path : List String) : Item → List (List String × String × List String)
  | .enum d => [(path ++ [d.name], "Type", d.variants ++ [countVariant])]
  | .module n is => itemsEnumerations (path ++ [n]) is
  | _ => []
def itemsEnumerations (path : List String) : List Item → List (List String × String × List String)
  | [] => []
  | i :: r => i.enumerations path ++ itemsEnumerations path r
end

namespace Cpp

open Text (Directive)

section Heads

def storageToken (isInline : Bool) : Token := if isInline then .of "inline" else .of "static"

def arrayHead (d : TableDecl) : List Token :=
  [Token.of "const", .of "std", .mark ':', .mark ':', .of "array", .mark '<', .of "const",
    .of d.elementType, .mark '*', .mark ',', .of (toString d.entries.length), .mark '>', .of d.name]

def mapHead (d : TableDecl) : List Token :=
  [Token.of "const", .of "std", .mark ':', .mark ':', .of "unordered_map", .mark '<', .of "std",
    .mark ':', .mark ':', .of "string_view", .mark ',', .of "const", .of d.elementType, .mark '*',
    .mark '>', .of d.name]

theorem declaration?_table (path : List String) (b : Bool) {ts : List Token} {n : String}
    (hshape : shape? ts = none) (hname : variableName? ts = some n) (body : List Token) :
    declaration? path (storageToken b :: (ts ++ [Token.mark '='])) (some body) =
      some (.table b path n) := by
  cases b with
  | true =>
    show definition? path true (ts ++ [Token.mark '=']) = _
    simp [definition?, withoutEquals_append, entity?, hshape, hname]
  | false =>
    show (variableName? (withoutEquals (ts ++ [Token.mark '=']))).map _ = _
    simp [withoutEquals_append, hname]

variable [Standard]

theorem lexLine_namespace {n : String} (h : IsWord n) :
    lexLine ("namespace " ++ n).toList = [Token.of "namespace", .of n] := by
  simp only [lexLine, String.toList_append, Scan.run_append, Scan.run_word _ h]
  rfl

theorem lexLine_namespaceEnd {n : String} (h : IsWord n) :
    lexLine ("\x7d // namespace " ++ n).toList = [Token.mark '}'] := by
  simp only [lexLine, String.toList_append, Scan.run_append, Scan.run_word _ h]
  rfl

theorem lexLine_variant {v k : String} (hv : IsWord v) (hk : IsWord k) :
    lexLine (v ++ " = " ++ k ++ ",").toList = [Token.of v, .mark '=', .of k, .mark ','] ∧
      lexLine (v ++ " = " ++ k).toList = [Token.of v, .mark '=', .of k] := by
  simp only [lexLine, String.toList_append, Scan.run_append, Scan.run_word _ hv, Scan.run_word _ hk]
  exact ⟨rfl, rfl⟩

theorem lexLine_struct {n b : String} (hn : IsWord n) (hb : IsWord b) :
    lexLine ("struct " ++ n).toList = [Token.of "struct", .of n] ∧
      lexLine ("struct " ++ n ++ " : public " ++ b).toList =
        [Token.of "struct", .of n, .mark ':', .of "public", .of b] := by
  simp only [lexLine, String.toList_append, Scan.run_append, Scan.run_word _ hn, Scan.run_word _ hb]
  exact ⟨rfl, rfl⟩

theorem lexLine_instance {d : InstanceDecl} (path : List String) (hn : IsWord d.name)
    (ht : IsWord d.type) (b : Bool) :
    lexLine ("extern " ++ instanceHead d ++ ";").toList =
        Token.of "extern" :: (d.entity path).head ++ [Token.mark ';'] ∧
      lexLine (linkage b ++ instanceHead d ++ " =").toList =
        linkageTokens b ++ ((d.entity path).head ++ [Token.mark '=']) := by
  have hhead : instanceHead d = "const " ++ d.type ++ " " ++ d.name := rfl
  simp only [hhead, lexLine, String.toList_append, Scan.run_append, Scan.run_word _ hn,
    Scan.run_word _ ht]
  cases b <;> exact ⟨rfl, rfl⟩

theorem lexLine_blob {d : BlobDecl} (path : List String) (hn : IsWord d.name) (b : Bool) :
    lexLine ("extern " ++ blobHead d ++ ";").toList =
        Token.of "extern" :: (d.entity path).head ++ [Token.mark ';'] ∧
      lexLine (linkage b ++ blobHead d ++ " =").toList =
        linkageTokens b ++ ((d.entity path).head ++ [Token.mark '=']) := by
  have hk := isWord_toString d.bytes.length
  have hhead : blobHead d =
    "const uint8_t " ++ d.name ++ "[" ++ toString d.bytes.length ++ "]" := rfl
  simp only [hhead, lexLine, String.toList_append, Scan.run_append, Scan.run_word _ hn,
    Scan.run_word _ hk]
  cases b <;> exact ⟨rfl, rfl⟩

theorem lexLine_lookup {d : TableDecl} (path : List String) (hn : IsWord d.lookup)
    (ht : IsWord d.elementType) (hk : ∀ n ∈ d.kind.names, IsWord n) (b : Bool) :
    lexLine (tableSignature d ++ ";").toList = (d.entity path).head ++ [Token.mark ';'] ∧
      lexLine (linkage b ++ tableSignature d).toList = linkageTokens b ++ (d.entity path).head := by
  have hhead : tableSignature d =
    "const " ++ d.elementType ++ "& " ++ d.lookup ++ "(" ++ lookupParameter d.kind ++ ")" := rfl
  obtain ⟨name, type, kind, entries, lookup, fallback⟩ := d
  simp only [hhead, lexLine, String.toList_append, Scan.run_append, Scan.run_word _ hn,
    Scan.run_word _ ht]
  cases kind with
  | byId | byName => cases b <;> exact ⟨rfl, rfl⟩
  | byEnum key =>
    have hkey : IsWord key := hk key (by simp [TableKind.names])
    have hparameter : lookupParameter (.byEnum key) = key ++ "::Type" ++ " key" := rfl
    simp only [hparameter, String.toList_append, Scan.run_append, Scan.run_word _ hkey]
    cases b <;> exact ⟨rfl, rfl⟩

theorem lexLine_dispatcher {d : DispatcherDecl} (path : List String) (hn : IsWord d.name)
    (ht : IsWord d.returnType) (hk : IsWord d.keyEnum) (hs : IsWord d.selectorEnum) (b : Bool) :
    lexLine (dispatcherSignature d ++ ";").toList = (d.entity path).head ++ [Token.mark ';'] ∧
      lexLine (linkage b ++ dispatcherSignature d).toList =
        linkageTokens b ++ (d.entity path).head := by
  have hhead : dispatcherSignature d = "const " ++ d.returnType ++ "& " ++ d.name ++ "(" ++
    (d.keyEnum ++ "::Type") ++ " key, " ++ (d.selectorEnum ++ "::Type") ++ " selector)" := rfl
  simp only [hhead, lexLine, String.toList_append, Scan.run_append, Scan.run_word _ hn,
    Scan.run_word _ ht, Scan.run_word _ hk, Scan.run_word _ hs]
  cases b <;> exact ⟨rfl, rfl⟩

theorem lexLine_tableVariable {d : TableDecl} (hn : IsWord d.name) (ht : IsWord d.elementType)
    (b : Bool) :
    lexLine (storage b ++ " const std::array<const " ++ d.elementType ++ "*, " ++
        toString d.entries.length ++ "> " ++ (d.name ++ " =")).toList =
      storageToken b :: (arrayHead d ++ [Token.mark '=']) ∧
    lexLine (storage b ++ " const std::unordered_map<std::string_view, const " ++ d.elementType ++
        "*> " ++ (d.name ++ " =")).toList = storageToken b :: (mapHead d ++ [Token.mark '=']) := by
  have hk := isWord_toString d.entries.length
  simp only [lexLine, String.toList_append, Scan.run_append, Scan.run_word _ hn, Scan.run_word _ ht,
    Scan.run_word _ hk]
  cases b <;> exact ⟨rfl, rfl⟩

end Heads

end Cpp

end ShaderBuild.Code
