import Mathlib.Data.List.Nodup
import ShaderBuild.Code.Rust
import ShaderBuild.Proofs.Text.Identifiers
import ShaderBuild.Proofs.Text.Lines

namespace ShaderBuild.Code.Rust

open Text (Directive takeWhile_before)

/-- The keywords of the language, in use or kept for later, and the lone underscore, which is no name
either. -/
def keywords : List String :=
  ["as", "break", "const", "continue", "crate", "else", "enum", "extern", "false", "fn", "for",
    "if", "impl", "in", "let", "loop", "match", "mod", "move", "mut", "pub", "ref", "return",
    "self", "Self", "static", "struct", "super", "trait", "true", "type", "unsafe", "use", "where",
    "while", "async", "await", "dyn", "abstract", "become", "box", "do", "final", "macro",
    "override", "priv", "typeof", "unsized", "virtual", "yield", "try", "gen", "_"]

/-- One of the names is a keyword that cannot be written raw, another that keyword with an
underscore. -/
def Clash (names : List String) : Prop := ∃ w ∈ rustPathWords, w ∈ names ∧ w ++ "_" ∈ names

section Ident

variable {n m : String}

theorem ident_cases (n : String) : n ∈ rustPathWords ∧ ident n = n ++ "_" ∨
    n ∈ rustKeywords ∧ ident n = "r#" ++ n ∨
      n ∉ rustPathWords ∧ n ∉ rustKeywords ∧ ident n = n := by
  unfold ident
  simp only [List.contains_eq_mem, decide_eq_true_eq]
  split
  · next h => exact .inl ⟨h, rfl⟩
  · next hp =>
    split
    · next h => exact .inr (.inl ⟨h, rfl⟩)
    · next hk => exact .inr (.inr ⟨hp, hk, rfl⟩)

theorem keywords_escaped : ∀ w ∈ keywords, w ∈ rustPathWords ∨ w ∈ rustKeywords := by decide

theorem ident_not_keyword (n : String) : ident n ∉ keywords := by
  rcases ident_cases n with ⟨hn, he⟩ | ⟨-, he⟩ | ⟨hp, hk, he⟩
  · have hfree : ∀ w ∈ rustPathWords, w ++ "_" ∉ keywords := by decide
    exact he ▸ hfree n hn
  · have hplain : ∀ w ∈ keywords, '#' ∉ w.toList := by decide
    rw [he]
    exact fun hw => hplain _ hw (by simp)
  · rw [he]
    exact fun hw => (keywords_escaped n hw).elim hp hk

theorem mem_ident {c : Char} (h : c ∈ (ident n).toList) : c ∈ n.toList ∨ c ∈ ['_', 'r', '#'] := by
  rcases ident_cases n with ⟨-, he⟩ | ⟨-, he⟩ | ⟨-, -, he⟩
  · rw [he, String.toList_append, List.mem_append] at h
    exact h.imp_right fun h => by simp_all
  · rw [he, String.toList_append, List.mem_append] at h
    exact h.symm.imp_right fun h => by simp_all
  · exact .inl (he ▸ h)

theorem ident_pathWord (h : n ∈ rustPathWords) :
    ident n = n ++ "_" ∧ ident (n ++ "_") = n ++ "_" := by
  have hall : ∀ w ∈ rustPathWords, ident w = w ++ "_" ∧ ident (w ++ "_") = w ++ "_" := by decide
  exact hall n h

/-- Names without a hash are written alike only where the underscore of a keyword meets one that a
name has itself. -/
theorem ident_eq_iff (hn : '#' ∉ n.toList) (hm : '#' ∉ m.toList) : ident n = ident m ↔
    n = m ∨ (n ∈ rustPathWords ∧ m = n ++ "_") ∨ (m ∈ rustPathWords ∧ n = m ++ "_") := by
  have hraw (w : String) : '#' ∈ ("r#" ++ w).toList := by simp
  have hbar {w : String} (hw : '#' ∉ w.toList) : '#' ∉ (w ++ "_").toList := by simpa using hw
  constructor
  · intro h
    rcases ident_cases n with ⟨hpn, hen⟩ | ⟨-, hen⟩ | ⟨-, -, hen⟩ <;>
    rcases ident_cases m with ⟨hpm, hem⟩ | ⟨-, hem⟩ | ⟨-, -, hem⟩ <;>
    rw [hen, hem] at h
    · exact .inl (String.append_left_inj _ |>.1 h)
    · exact absurd (h ▸ hraw m) (hbar hn)
    · exact .inr (.inl ⟨hpn, h.symm⟩)
    · exact absurd (h ▸ hraw n) (hbar hm)
    · exact .inl (String.append_right_inj _ |>.1 h)
    · exact absurd (h ▸ hraw n) hm
    · exact .inr (.inr ⟨hpm, h⟩)
    · exact absurd (h ▸ hraw m) hn
    · exact .inl h
  · rintro (rfl | ⟨hp, rfl⟩ | ⟨hp, rfl⟩)
    · rfl
    · rw [(ident_pathWord hp).1, (ident_pathWord hp).2]
    · rw [(ident_pathWord hp).1, (ident_pathWord hp).2]

theorem ident_eq_count (hn : '#' ∉ n.toList) (h : ident n = countVariant) : n = countVariant := by
  have hcount : ident countVariant = countVariant := by decide
  rw [← hcount, ident_eq_iff hn (by decide)] at h
  rcases h with h | ⟨hp, h⟩ | ⟨hp, -⟩
  · exact h
  · have hend := congrArg (·.toList.getLast?) h
    simp [countVariant] at hend
  · exact absurd hp (by decide)

theorem map_ident_nodup_iff {names : List String} (hd : names.Nodup)
    (hh : ∀ n ∈ names, '#' ∉ n.toList) : (names.map ident).Nodup ↔ ¬Clash names := by
  rw [List.nodup_map_iff_inj_on hd]
  constructor
  · rintro h ⟨w, hp, hw, hbar⟩
    have he := h w hw _ hbar (by rw [(ident_pathWord hp).1, (ident_pathWord hp).2])
    simpa using congrArg (·.toList.length) he
  · intro h n hn m hm he
    rcases (ident_eq_iff (hh n hn) (hh m hm)).1 he with he | ⟨hp, rfl⟩ | ⟨hp, rfl⟩
    · exact he
    · exact absurd ⟨n, hp, hn, hm⟩ h
    · exact absurd ⟨m, hp, hm, hn⟩ h

end Ident

section Written

def blockBody (ds : List Directive) : List Directive :=
  (ds.dropWhile fun d => !d matches .opening _).tail.takeWhile fun d => !d matches .closing _

/-- The names of the variants that the lines of an enum declare. -/
def writtenVariants (ds : List Directive) : List String :=
  (blockBody ds).map fun d => .ofList (d.text.toList.takeWhile (· != ' '))

def writtenFields (ds : List Directive) : List String :=
  (blockBody ds).map fun d => .ofList ((d.text.toList.drop 4).takeWhile (· != ':'))

theorem blockBody_block {before body : List Directive} (hb : ∀ d ∈ before, ∃ t, d = .line t)
    (hl : ∀ d ∈ body, ∃ t, d = .line t) (head close : String) (after : List Directive) :
    blockBody (before ++ (block head body close ++ after)) = body := by
  have hskip : (before ++ (block head body close ++ after)).dropWhile
      (fun d => !d matches .opening _) = .opening head :: (body ++ .closing close :: after) := by
    rw [List.dropWhile_append_of_pos]
    · simp [block]
    · intro d hd
      obtain ⟨t, rfl⟩ := hb d hd
      rfl
  rw [blockBody, hskip, List.tail_cons, List.takeWhile_append_of_pos,
    List.takeWhile_cons_of_neg (by simp), List.append_nil]
  intro d hd
  obtain ⟨t, rfl⟩ := hl d hd
  rfl

theorem plain_ident {n : String} {c : Char} (h : c ∉ n.toList) (hc : c ∉ ['_', 'r', '#']) :
    c ∉ (ident n).toList := fun hm => (mem_ident hm).elim h hc

theorem map_mapIdx {α β γ : Type} {f : Nat → α → β} {g : β → γ} {k : α → γ} {xs : List α}
    (h : ∀ x ∈ xs, ∀ i, g (f i x) = k x) : (xs.mapIdx f).map g = xs.map k := by
  refine List.ext_getElem (by simp) fun i hi _ => ?_
  have hx : i < xs.length := by simpa using hi
  simp [h _ (List.getElem_mem hx)]

theorem writtenVariants_enumDecl {d : EnumDecl} (h : ∀ v ∈ d.variants, ' ' ∉ v.toList) :
    writtenVariants (enumDecl d) = d.variants.map ident ++ [countVariant] := by
  have hname {n : String} (hn : ' ' ∉ n.toList) (i : Nat) :
      String.ofList ((s!"{n} = {i},").toList.takeWhile (· != ' ')) = n := by
    have hl : (s!"{n} = {i},").toList = n.toList ++ ' ' :: ("= ".toList ++ (toString i).toList ++
        ",".toList) := by simp
    rw [hl, takeWhile_before hn, String.ofList_toList]
  have hvariants : (d.variants.mapIdx fun i v => Directive.line s!"{ident v} = {i},").map
      (fun d => String.ofList (d.text.toList.takeWhile (· != ' '))) =
      d.variants.map ident :=
    map_mapIdx fun v hv i => hname (plain_ident (h v hv) (by decide)) i
  have hcount : ' ' ∉ countVariant.toList := by decide
  rw [writtenVariants, enumDecl, List.append_assoc, blockBody_block (by simp), List.map_append,
    List.map_singleton, Directive.text, hname hcount, hvariants]
  simp only [List.mem_append, List.mem_mapIdx, List.mem_singleton]
  rintro _ (⟨_, _, rfl⟩ | rfl) <;> exact ⟨_, rfl⟩

theorem writtenFields_structDecl {d : StructDecl} (h : ∀ f ∈ d.fields, ':' ∉ f.name.toList) :
    writtenFields (structDecl d) = d.fields.map fun f => ident f.name := by
  rw [writtenFields, structDecl, List.append_assoc, blockBody_block (by simp [dataAttributes]),
    List.map_map]
  · refine List.map_congr_left fun f hf => ?_
    have htext : ∃ rest, (fieldLine f).text.toList.drop 4 =
        (ident f.name).toList ++ ':' :: rest := by
      unfold fieldLine
      split
      · exact ⟨_, by simp [Directive.text]; rfl⟩
      · exact ⟨_, by simp [Directive.text]; rfl⟩
    obtain ⟨rest, hrest⟩ := htext
    rw [Function.comp_apply, hrest, takeWhile_before (plain_ident (h f hf) (by decide)),
      String.ofList_toList]
  · simp only [List.mem_map]
    rintro _ ⟨f, -, rfl⟩
    unfold fieldLine
    split <;> exact ⟨_, rfl⟩

theorem writtenFields_wrapperDecl (d : WrapperDecl) : writtenFields (wrapperDecl d) = ["data"] := by
  have htext : (s!"pub data: {ident d.base},").toList.drop 4 =
      "data".toList ++ ':' :: (" ".toList ++ (ident d.base).toList ++ ",".toList) := by simp
  have hname : ':' ∉ "data".toList := by decide
  simp only [writtenFields, wrapperDecl, List.append_assoc]
  rw [blockBody_block (by simp [dataAttributes]) (by simp), List.map_singleton, Directive.text, htext,
    takeWhile_before hname, String.ofList_toList]

end Written

end ShaderBuild.Code.Rust
