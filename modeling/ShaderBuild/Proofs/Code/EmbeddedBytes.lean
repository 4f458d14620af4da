import ShaderBuild.Proofs.Code.FieldText
import ShaderBuild.Proofs.Code.HeaderSource
import ShaderBuild.Proofs.Code.ItemLines
import ShaderBuild.Proofs.Text.Growth

namespace ShaderBuild.Code

open Text (Directive)
open Text.Page (indentation)

section Reader

def isGap (c : Char) : Bool := c == ' ' || c == '\n'

/-- Reads hexadecimal literals of two digits, each with a comma behind it. -/
def literals? : List Char → Option (List UInt8)
  | [] => some []
  | '0' :: 'x' :: x :: y :: ',' :: r => do
    let hi ← Text.hexValue? x
    let lo ← Text.hexValue? y
    return .ofNat (16 * hi + lo) :: (← literals? r)
  | c :: r => if isGap c then literals? r else none

def behind? (c : Char) (cs : List Char) : Option (List Char) :=
  match cs.dropWhile isGap with
  | [] => none
  | d :: r => if d = c then some r else none

/-- Reads the definition of an array from its length on: the length, and the bytes between the
brackets. -/
def array? (opening closing : Char) (cs : List Char) : Option (Nat × List UInt8) := do
  let length ← number? (cs.takeWhile (· != ']'))
  let r ← behind? ']' (cs.dropWhile (· != ']'))
  let r ← behind? '=' r
  let r ← behind? opening r
  let bytes ← literals? (r.takeWhile (· != closing))
  let r ← behind? closing (r.dropWhile (· != closing))
  let _ ← behind? ';' r
  return (length, bytes)

end Reader

section Literals

theorem literals?_gap {c : Char} (h : isGap c) (r : List Char) : literals? (c :: r) = literals? r := by
  have hzero : c ≠ '0' := by rintro rfl; exact absurd h (by decide)
  rw [literals?, if_pos h]
  intro x y r' hc
  exact absurd hc hzero

theorem literals?_gaps {g : List Char} (h : ∀ c ∈ g, isGap c) (r : List Char) :
    literals? (g ++ r) = literals? r := by
  induction g with
  | nil => rfl
  | cons c g ih =>
    obtain ⟨hc, hg⟩ := List.forall_mem_cons.1 h
    rw [List.cons_append, literals?_gap hc, ih hg]

theorem literals?_hexLiteral (b : UInt8) (r : List Char) :
    literals? (hexLiteral b ++ r) = (literals? r).map (b :: ·) := by
  obtain ⟨x, y, hi, lo, hb, hx, hy, hval⟩ := Text.hexByte_digits b
  rw [hexLiteral, hb]
  show literals? ('0' :: 'x' :: x :: y :: ',' :: r) = _
  rw [literals?, hx, hy]
  simp only [Option.bind_eq_bind, Option.bind_some, hval, UInt8.ofNat_toNat]
  cases literals? r <;> rfl

theorem literals?_row (bs : List UInt8) (r : List Char) :
    literals? ([' '].intercalate (bs.map hexLiteral) ++ r) = (literals? r).map (bs ++ ·) := by
  induction bs with
  | nil => simp
  | cons b bs ih =>
    cases bs with
    | nil => simpa using literals?_hexLiteral b r
    | cons b' bs =>
      rw [List.map_cons, List.map_cons, List.intercalate_cons_cons, ← List.map_cons,
        List.append_assoc, List.append_assoc, literals?_hexLiteral, List.singleton_append,
        literals?_gap (by decide), ih, Option.map_map]
      rfl

def isLiteralChar (c : Char) : Bool :=
  isGap c || c == '0' || c == 'x' || c == ',' || (Text.hexValue? c).isSome

theorem isLiteralChar_of_mem {cs : List Char} {bs : List UInt8} (h : literals? cs = some bs)
    {c : Char} (hc : c ∈ cs) : isLiteralChar c := by
  fun_induction literals? cs generalizing bs with
  | case1 => exact absurd hc List.not_mem_nil
  | case2 x y r ih =>
    simp only [Option.bind_eq_bind, Option.bind_eq_some_iff] at h
    obtain ⟨hi, hx, lo, hy, bs', hr, -⟩ := h
    simp only [List.mem_cons] at hc
    rcases hc with rfl | rfl | rfl | rfl | rfl | hc
    · rfl
    · rfl
    · simp [isLiteralChar, hx]
    · simp [isLiteralChar, hy]
    · rfl
    · exact ih hr hc
  | case3 d r _ hd ih =>
    rcases List.mem_cons.1 hc with rfl | hc
    · simp [isLiteralChar, hd]
    · exact ih h hc
  | case4 => exact absurd h nofun

end Literals

section Rows

variable {α : Type}

theorem flatten_chunks (n : Nat) (xs : List α) : (chunks n xs).flatten = xs := by
  fun_induction chunks n xs with
  | case1 => rfl
  | case2 x r ih => rw [List.flatten_cons, ih, List.cons_append, List.take_append_drop]

theorem hexRows_ne_nil {bytes : List UInt8} (h : bytes ≠ []) (n : Nat) : hexRows bytes n ≠ [] := by
  cases bytes with
  | nil => exact absurd rfl h
  | cons b r => rw [hexRows, chunks]; exact List.cons_ne_nil _ _

theorem ne_nil_of_mem_chunks {n : Nat} {xs row : List α} (h : row ∈ chunks n xs) : row ≠ [] := by
  fun_induction chunks n xs with
  | case1 => exact absurd h List.not_mem_nil
  | case2 x r ih =>
    rcases List.mem_cons.1 h with rfl | h
    · exact List.cons_ne_nil _ _
    · exact ih h

/-- Rows read as their bytes, whatever blanks stand before and behind each of them. -/
theorem literals?_hexRows {front back : List Char} (hf : ∀ c ∈ front, isGap c)
    (hb : ∀ c ∈ back, isGap c) (bytes : List UInt8) (n : Nat) (r : List Char) :
    literals? ((hexRows bytes n).flatMap (fun t => front ++ t.toList ++ back) ++ r) =
      (literals? r).map (bytes ++ ·) := by
  have hrows (rows : List (List UInt8)) : literals?
      ((rows.map fun row => String.ofList ([' '].intercalate (row.map hexLiteral))).flatMap
        (fun t => front ++ t.toList ++ back) ++ r) = (literals? r).map (rows.flatten ++ ·) := by
    induction rows with
    | nil => simp
    | cons row rows ih =>
      rw [List.map_cons, List.flatMap_cons, String.toList_ofList]
      simp only [List.append_assoc] at ih ⊢
      rw [literals?_gaps hf, literals?_row, literals?_gaps hb, ih, Option.map_map]
      simp [Function.comp_def]
  rw [hexRows, hrows, flatten_chunks]

theorem zero_mem_hexRow {row : String} {bytes : List UInt8} {n : Nat} (h : row ∈ hexRows bytes n) :
    '0' ∈ row.toList := by
  obtain ⟨bs, hbs, rfl⟩ := List.mem_map.1 h
  obtain ⟨b, r, rfl⟩ := List.exists_cons_of_ne_nil (ne_nil_of_mem_chunks hbs)
  cases r with
  | nil => simp [hexLiteral]
  | cons b' r => simp [hexLiteral, List.intercalate_cons_cons]

theorem isRow_hexRow {row : String} {bytes : List UInt8} {n : Nat} (h : row ∈ hexRows bytes n) :
    Text.Page.IsRow row := by
  constructor
  · rintro rfl
    simpa using zero_mem_hexRow h
  · exact fun hm => absurd (Cpp.plain_hexRow h _ hm) (by decide)

end Rows

section Array

theorem isGap_indentation {k : Nat} {c : Char} (h : c ∈ indentation k) : isGap c := by
  rw [List.eq_of_mem_replicate h]
  rfl

theorem behind?_gaps {g : List Char} (hg : ∀ c ∈ g, isGap c) {c : Char} (hc : isGap c = false)
    (r : List Char) : behind? c (g ++ c :: r) = some r := by
  rw [behind?, List.dropWhile_append_of_pos hg, List.dropWhile_cons_of_neg (by simp [hc])]
  exact if_pos rfl

theorem behind?_cons {c : Char} (hc : isGap c = false) (r : List Char) :
    behind? c (c :: r) = some r := behind?_gaps (List.forall_mem_nil _) hc r

theorem array?_written {opening closing : Char} (ho : isGap opening = false)
    (hc : isLiteralChar closing = false) {g body : List Char} {bytes : List UInt8}
    (hg : ∀ c ∈ g, isGap c) (hbody : literals? body = some bytes) (n : Nat) (rest : List Char) :
    array? opening closing (Nat.toDigits 10 n ++ ']' :: ' ' :: '=' ::
      (g ++ opening :: (body ++ closing :: ';' :: rest))) = some (n, bytes) := by
  have hbracket : ']' ∉ Nat.toDigits 10 n := fun hm =>
    absurd (Nat.isDigit_of_mem_toDigits (by decide) (by decide) hm) (by decide)
  have hclosing : closing ∉ body := fun hm => by simp [isLiteralChar_of_mem hbody hm] at hc
  have hgap : isGap closing = false := by
    simp only [isLiteralChar, Bool.or_eq_false_iff] at hc
    exact hc.1.1.1.1
  have hequals : behind? '=' (' ' :: '=' :: (g ++ opening :: (body ++ closing :: ';' :: rest))) =
      some (g ++ opening :: (body ++ closing :: ';' :: rest)) := rfl
  simp only [array?, Option.bind_eq_bind, Text.takeWhile_before hbracket,
    Text.dropWhile_before hbracket, number?_toDigits, Option.bind_some,
    behind?_cons (c := ']') rfl, hequals, behind?_gaps hg ho, Text.takeWhile_before hclosing,
    Text.dropWhile_before hclosing, hbody, behind?_cons hgap, behind?_cons (c := ';') rfl]
  rfl

end Array

/-- On a line of its own behind `front`, a text defines an array of these bytes. -/
def Defines (text front : String) (opening closing : Char) (bytes : List UInt8) : Prop :=
  ∃ above depth behind, text.toList = above ++ indentation depth ++ front.toList ++ behind ∧
    (above = [] ∨ above.getLast? = some '\n') ∧
    array? opening closing behind = some (bytes.length, bytes)

theorem literals?_body (k : Nat) (bytes : List UInt8) :
    literals? ('\n' :: ((hexRows bytes 16).flatMap (fun t => indentation (k + 1) ++ t.toList ++ ['\n'])
      ++ indentation k)) = some bytes := by
  have hbreak : ∀ c ∈ ['\n'], isGap c := List.forall_mem_singleton.2 rfl
  have hend : literals? (indentation k) = some [] := by
    rw [← List.append_nil (indentation k), literals?_gaps fun c => isGap_indentation]
    rfl
  rw [literals?_gap rfl, literals?_hexRows (fun c => isGap_indentation) hbreak, hend]
  simp

section Definitions

variable (before after : List Directive) {d : BlobDecl}

namespace Cpp

def blobFront (inHeader : Bool) (d : BlobDecl) : String :=
  linkage inHeader ++ "const uint8_t " ++ d.name ++ "["

theorem defines_blobDefinition (inHeader : Bool) (h : d.bytes ≠ []) :
    Defines (Text.render (before ++ blobDefinition inHeader d ++ after)) (blobFront inHeader d)
      '\x7b' '\x7d' d.bytes := by
  let p := Text.Page.empty.run before
  let line := s!"{linkage inHeader}{blobHead d} ="
  have hline : line.toList = (blobFront inHeader d).toList ++
      (Nat.toDigits 10 d.bytes.length ++ [']', ' ', '=']) := by
    have htext : line = linkage inHeader ++
        ("const uint8_t " ++ d.name ++ "[" ++ toString d.bytes.length ++ "]") ++ " =" := rfl
    rw [htext, blobFront]
    simp
  have hne : line ≠ "" := by
    rw [ne_eq, ← String.toList_eq_nil_iff, hline]
    simp
  have hdirectives : before ++ blobDefinition inHeader d ++ after =
      (before ++ [.line line]) ++ (.opening "\x7b" :: (hexRows d.bytes 16).map .line ++
        [.closing "\x7d;"]) ++ .blank :: after := by
    simp [blobDefinition, block, line]
  have hpage : Text.Page.empty.run (before ++ [.line line]) = p.write line :=
    Text.Page.run_append ..
  obtain ⟨rest, hrest⟩ := Text.Page.render_block (before ++ [.line line]) "\x7b" "\x7d;"
    (.blank :: after) (by decide) (hexRows_ne_nil h 16) (fun t => isRow_hexRow)
    ⟨by decide, by decide⟩
  rw [hpage, Text.Page.chars_write p hne, Text.Page.depth_write] at hrest
  refine ⟨p.chars, p.depth, _, ?_, p.chars_ends, array?_written (g := '\n' :: indentation p.depth)
    rfl (by decide) ?_ (literals?_body p.depth d.bytes) d.bytes.length ('\n' :: rest)⟩
  · have hbraces : "\x7b".toList = ['\x7b'] ∧ "\x7d;".toList = ['\x7d', ';'] := ⟨rfl, rfl⟩
    rw [hdirectives, hrest, hline, hbraces.1, hbraces.2]
    simp only [List.append_assoc, List.cons_append, List.nil_append]
  · exact List.forall_mem_cons.2 ⟨rfl, fun c => isGap_indentation⟩

theorem emit_last {f : File} (h : ∀ d, Item.blob d ∈ flattenItems f.items → d.bytes ≠ []) :
    ∃ out e, emit f = .ok out ∧ out.getLast? = some e ∧ e.contents =
      Text.render (if f.headerOnly then (fileSides f).header else (fileSides f).source) := by
  have hnone : emptyBlobs? f.items = none := by
    rw [← Option.not_isSome_iff_eq_none, emptyBlobs?_isSome]
    rintro ⟨d, hd, hempty⟩
    exact h d hd hempty
  rw [emit, hnone]
  cases f.headerOnly with
  | true => exact ⟨_, _, rfl, rfl, rfl⟩
  | false => exact ⟨_, _, rfl, rfl, rfl⟩

theorem blobDefinition_in_file {f : File} (h : Item.blob d ∈ flattenItems f.items) :
    blobDefinition f.headerOnly d <:+:
      if f.headerOnly then (fileSides f).header else (fileSides f).source := by
  have hwithin := itemSides_in_file h
  cases hf : f.headerOnly with
  | true => simpa [hf, itemSides, Sides.define] using hwithin.header
  | false => simpa [hf, itemSides, Sides.define] using hwithin.source

end Cpp

namespace Rust

def blobFront (d : BlobDecl) : String := "pub static " ++ ident d.name ++ ": [u8; "

theorem defines_blobDecl (h : d.bytes ≠ []) :
    Defines (Text.render (before ++ blobDecl d ++ after)) (blobFront d) '[' ']' d.bytes := by
  let p := Text.Page.empty.run (before ++ [.line allowance])
  let head := s!"pub static {ident d.name}: [u8; {d.bytes.length}] = ["
  have hhead : head.toList = (blobFront d).toList ++
      (Nat.toDigits 10 d.bytes.length ++ [']', ' ', '=', ' ', '[']) := by
    simp [head, blobFront]
  have hne : head ≠ "" := by
    rw [ne_eq, ← String.toList_eq_nil_iff, hhead]
    simp
  have hdirectives : before ++ blobDecl d ++ after =
      (before ++ [.line allowance]) ++ (.opening head :: (hexRows d.bytes 16).map .line ++
        [.closing "];"]) ++ .blank :: after := by
    simp [blobDecl, block, head]
  obtain ⟨rest, hrest⟩ := Text.Page.render_block (before ++ [.line allowance]) head "];"
    (.blank :: after) hne (hexRows_ne_nil h 16) (fun t => isRow_hexRow) ⟨by decide, by decide⟩
  refine ⟨p.chars, p.depth, _, ?_, p.chars_ends, array?_written (g := [' ']) rfl (by decide)
    (List.forall_mem_singleton.2 rfl) (literals?_body p.depth d.bytes) d.bytes.length
    ('\n' :: rest)⟩
  rw [hdirectives, hrest, hhead]
  simp [p]

end Rust

end Definitions

/-- Bytes pass into generated source unchanged. In the text of either language each blob, in however
many modules it stands, is the definition of an array of its length that reads as its bytes, and rows
of any width read as the bytes that they were made of. -/
theorem embedded_bytes_exact (f : File) :
    (∀ d, Item.blob d ∈ flattenItems f.items → d.bytes ≠ [] →
      Defines (Rust.emit f).contents (Rust.blobFront d) '[' ']' d.bytes) ∧
    ((∀ d, Item.blob d ∈ flattenItems f.items → d.bytes ≠ []) →
      ∃ out e, Cpp.emit f = .ok out ∧ out.getLast? = some e ∧
        ∀ d, Item.blob d ∈ flattenItems f.items →
          Defines e.contents (Cpp.blobFront f.headerOnly d) '\x7b' '\x7d' d.bytes) ∧
    ∀ bytes n, 0 < n → literals? ((hexRows bytes n).flatMap String.toList) = some bytes := by
  refine ⟨fun d hd hne => ?_, fun hne => ?_, fun bytes n _ => ?_⟩
  · obtain ⟨before, after, hlines⟩ := itemLines_in_file hd
    rw [Rust.emit, ← hlines]
    exact Rust.defines_blobDecl before after hne
  · obtain ⟨out, e, hout, hlast, hcontents⟩ := Cpp.emit_last hne
    refine ⟨out, e, hout, hlast, fun d hd => ?_⟩
    obtain ⟨before, after, hlines⟩ := Cpp.blobDefinition_in_file hd
    rw [hcontents, ← hlines]
    exact Cpp.defines_blobDefinition before after f.headerOnly (hne d hd)
  · have hrows := literals?_hexRows (List.forall_mem_nil _) (List.forall_mem_nil _) bytes n []
    simpa [literals?] using hrows

def key : BlobDecl := ⟨"type", (List.range 18).map UInt8.ofNat ++ [255]⟩

def vault (headerOnly : Bool) : File :=
  ⟨"Vault", headerOnly, [], [.module "Outer" [.comment "keys", .module "Inner" [.blob key]]]⟩

theorem vault_bytes_exact :
    (∀ b, Item.blob key ∈ flattenItems (vault b).items) ∧ key.bytes.length = 19 ∧
    Defines (Rust.emit (vault false)).contents "pub static r#type: [u8; " '[' ']' key.bytes ∧
    (∃ out e, Cpp.emit (vault true) = .ok out ∧ out.getLast? = some e ∧
      Defines e.contents "inline const uint8_t type[" '\x7b' '\x7d' key.bytes) ∧
    (∃ out e, Cpp.emit (vault false) = .ok out ∧ out.getLast? = some e ∧
      Defines e.contents "const uint8_t type[" '\x7b' '\x7d' key.bytes) ∧
    literals? ((hexRows key.bytes 16).flatMap String.toList) = some key.bytes := by
  have hmem : ∀ b, Item.blob key ∈ flattenItems (vault b).items := by
    simp [vault, flattenItems, Item.flatten]
  have hne : ∀ b d, Item.blob d ∈ flattenItems (vault b).items → d.bytes ≠ [] := by
    intro b d hd
    obtain rfl : d = key := by simpa [vault, flattenItems, Item.flatten] using hd
    decide
  obtain ⟨out, e, hout, hlast, hdefines⟩ := (embedded_bytes_exact (vault true)).2.1 (hne true)
  obtain ⟨out', e', hout', hlast', hdefines'⟩ :=
    (embedded_bytes_exact (vault false)).2.1 (hne false)
  exact ⟨hmem, rfl, (embedded_bytes_exact (vault false)).1 key (hmem false) (by decide),
    ⟨out, e, hout, hlast, hdefines key (hmem true)⟩,
    ⟨out', e', hout', hlast', hdefines' key (hmem false)⟩,
    (embedded_bytes_exact (vault false)).2.2 key.bytes 16 (by decide)⟩

end ShaderBuild.Code
