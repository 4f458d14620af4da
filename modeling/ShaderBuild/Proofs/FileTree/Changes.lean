import Mathlib.Logic.Basic
import ShaderBuild.FileTree.Basic
import ShaderBuild.Proofs.FileTree.Parts
import ShaderBuild.Proofs.Outcome

namespace ShaderBuild.FileTree

section Places

def hop (l : Location) (part : List Char) : Location :=
  if part = ['.'] then l else if part = ['.', '.'] then l.dropLast else l ++ [String.ofList part]

def origin (home : Location) (path : String) : Location :=
  if Path.isAbsolute path then [] else home

/-- Where a path leads, if all of it is there. -/
def place (home : Location) (path : String) : Location :=
  (Path.names path.toList).foldl hop (origin home path)

def endsAsDirectory (path : String) : Bool :=
  [[], ['.'], ['.', '.']].contains (Path.lastPart path.toList)

structure Valid (path : String) : Prop where
  nonempty : path.toList ≠ []
  nonzero : '\x00' ∉ path.toList
  short : path.utf8ByteSize ≤ longestPath

variable {t u : FileTree} {l m : Location} {path : String}

theorem step_ok_iff {part : List Char} : t.step l part = .ok m ↔ t.get? l = some .directory ∧
    (part = ['.'] ∨ part = ['.', '.'] ∨ (String.ofList part).utf8ByteSize ≤ longestName) ∧
    m = hop l part := by
  unfold step hop
  split
  next h => simp [h]
  next h => simp [h]
  next h =>
    by_cases hd : part = ['.']
    · simp [hd, h, eq_comm]
    · by_cases ha : part = ['.', '.']
      · simp [ha, h, eq_comm]
      · by_cases hs : longestName < (String.ofList part).utf8ByteSize
        · simp [hd, ha, hs, h, Nat.not_le.2 hs]
        · simp [hd, ha, hs, h, Nat.not_lt.1 hs, eq_comm]

theorem steps_eq {ps : List (List Char)} (h : ps.foldlM t.step l = .ok m) : m = ps.foldl hop l := by
  induction ps generalizing l with
  | nil =>
    cases h
    rfl
  | cons p r ih =>
    obtain ⟨k, hk, hr⟩ := (bind_ok_iff ..).1 h
    rw [ih hr, (step_ok_iff.1 hk).2.2, List.foldl_cons]

theorem steps_mono {ps : List (List Char)}
    (hd : ∀ l, t.get? l = some .directory → u.get? l = some .directory)
    (h : ps.foldlM t.step l = .ok m) : ps.foldlM u.step l = .ok m := by
  induction ps generalizing l with
  | nil => exact h
  | cons p r ih =>
    obtain ⟨k, hk, hr⟩ := (bind_ok_iff ..).1 h
    obtain ⟨hl, hrest⟩ := step_ok_iff.1 hk
    exact (bind_ok_iff ..).2 ⟨k, step_ok_iff.2 ⟨hd l hl, hrest⟩, ih hr⟩

theorem locate_ok_iff {g : Target} : t.locate path = .ok g ↔ Valid path ∧
    (Path.names path.toList).foldlM t.step (origin t.home path) = .ok g.location ∧
    g.asDirectory = endsAsDirectory path := by
  unfold locate
  simp only [unless_ok_iff, bind_ok_iff, pure_ok_iff]
  constructor
  · rintro ⟨hne, hzero, hlen, l, hl, rfl⟩
    exact ⟨⟨by simpa using hne, by simpa using hzero, Nat.not_lt.1 hlen⟩, hl, rfl⟩
  · obtain ⟨l, d⟩ := g
    rintro ⟨⟨hne, hzero, hlen⟩, hl, rfl⟩
    exact ⟨by simpa using hne, by simpa using hzero, Nat.not_lt.2 hlen, _, hl, rfl⟩

theorem locate_place {g : Target} (h : t.locate path = .ok g) : g.location = place t.home path :=
  steps_eq (locate_ok_iff.1 h).2.1

theorem lookup_ok_iff {e : FileEntry} : t.lookup path = .ok e ↔ ∃ g, t.locate path = .ok g ∧
    t.get? g.location = some e ∧ (e ≠ .directory → g.asDirectory = false) := by
  rw [lookup, bind_ok_iff]
  refine exists_congr fun g => and_congr_right fun _ => ?_
  cases hg : t.get? g.location with
  | none => simp
  | some f =>
    cases f with
    | directory =>
      simp only [pure_ok_iff, Option.some.injEq]
      exact ⟨fun h => ⟨h, fun hne => absurd h.symm hne⟩, fun h => h.1⟩
    | file bytes x =>
      cases hd : g.asDirectory with
      | true =>
        simp only [if_true, Option.some.injEq, Bool.true_eq_false, imp_false, not_not]
        constructor
        · intro h
          cases h
        · rintro ⟨rfl, h⟩
          cases h
      | false => simp

theorem read_ok_iff {bytes : List UInt8} : t.read path = .ok bytes ↔
    ∃ x, t.lookup path = .ok (.file bytes x) := by
  rw [read, bind_ok_iff]
  constructor
  · rintro ⟨e, he, h⟩
    cases e with
    | directory => cases h
    | file b x =>
      obtain rfl := (pure_ok_iff ..).1 h
      exact ⟨x, he⟩
  · rintro ⟨x, h⟩
    exact ⟨_, h, rfl⟩

theorem isDirectory_iff : t.isDirectory path ↔ t.lookup path = .ok .directory := by
  rw [isDirectory]
  split
  next h => simp [h]
  next h => simpa using h

theorem isFile_iff : t.isFile path ↔ ∃ bytes x, t.lookup path = .ok (.file bytes x) := by
  rw [isFile]
  split
  next h => simp [h]
  next h => simpa using h

end Places

section Touches

/-- Another tree that differs in files in some places, and in directories where nothing was. -/
structure Touches (p : Location → Prop) (t u : FileTree) : Prop where
  home : u.home = t.home
  entry : ∀ l, u.get? l = t.get? l ∨ (t.get? l = none ∧ u.get? l = some .directory) ∨
    (p l ∧ t.get? l ≠ some .directory)

variable {p q : Location → Prop} {t u v : FileTree} {l : Location} {path : String}

theorem Touches.refl (t : FileTree) : Touches p t t := ⟨rfl, fun _ => .inl rfl⟩

theorem Touches.mono (h : Touches p t u) (hpq : ∀ l, p l → q l) : Touches q t u :=
  ⟨h.home, fun l => (h.entry l).imp_right fun h => h.imp_right fun ⟨hl, hd⟩ => ⟨hpq l hl, hd⟩⟩

theorem Touches.not_directory (h : Touches p t u) :
    Touches (fun l => p l ∧ t.get? l ≠ some .directory) t u :=
  ⟨h.home, fun l => (h.entry l).imp_right fun h => h.imp_right fun h => ⟨h, h.2⟩⟩

theorem Touches.directory (h : Touches p t u) (hl : t.get? l = some .directory) :
    u.get? l = some .directory := by
  rcases h.entry l with he | ⟨-, he⟩ | ⟨-, hne⟩
  · exact he.trans hl
  · exact he
  · exact absurd hl hne

theorem Touches.trans (h : Touches p t u) (h' : Touches p u v) : Touches p t v := by
  refine ⟨h'.home.trans h.home, fun l => ?_⟩
  rcases h.entry l with he | ⟨hn, hd⟩ | hl
  · rcases h'.entry l with he' | ⟨hn', hd'⟩ | ⟨hp, hne⟩
    · exact .inl (he'.trans he)
    · exact .inr (.inl ⟨he ▸ hn', hd'⟩)
    · exact .inr (.inr ⟨hp, he ▸ hne⟩)
  · exact .inr (.inl ⟨hn, h'.directory hd⟩)
  · exact .inr (.inr hl)

/-- In other places the same files are there. -/
theorem Touches.file_iff (h : Touches p t u) (hl : ¬p l) {bytes : List UInt8} {x : Bool} :
    u.get? l = some (.file bytes x) ↔ t.get? l = some (.file bytes x) := by
  rcases h.entry l with he | ⟨hn, hd⟩ | ⟨hp, -⟩
  · rw [he]
  · simp [hn, hd]
  · exact absurd hp hl

theorem Touches.locate (h : Touches p t u) {g : Target} (hg : t.locate path = .ok g) :
    u.locate path = .ok g := by
  obtain ⟨hv, hsteps, hd⟩ := locate_ok_iff.1 hg
  have horigin : origin u.home path = origin t.home path := by rw [h.home]
  exact locate_ok_iff.2 ⟨hv, horigin ▸ steps_mono (fun _ => h.directory) hsteps, hd⟩

theorem Touches.lookup_directory (h : Touches p t u) (hd : t.lookup path = .ok .directory) :
    u.lookup path = .ok .directory := by
  obtain ⟨g, hg, hget, -⟩ := lookup_ok_iff.1 hd
  exact lookup_ok_iff.2 ⟨g, h.locate hg, h.directory hget, fun hne => absurd rfl hne⟩

theorem Touches.lookup_file (h : Touches p t u) (hp : ¬p (place t.home path)) {bytes : List UInt8}
    {x : Bool} (hf : t.lookup path = .ok (.file bytes x)) :
    u.lookup path = .ok (.file bytes x) := by
  obtain ⟨g, hg, hget, hd⟩ := lookup_ok_iff.1 hf
  refine lookup_ok_iff.2 ⟨g, h.locate hg, (h.file_iff ?_).2 hget, hd⟩
  rwa [locate_place hg]

theorem Touches.set {e : FileEntry} (hl : l ≠ []) (hp : p l) (hd : t.get? l ≠ some .directory) :
    Touches p t (t.set l e) := by
  refine ⟨rfl, fun m => ?_⟩
  by_cases hm : m = l
  · exact .inr (.inr ⟨hm ▸ hp, hm ▸ hd⟩)
  · exact .inl (by rw [get?_set _ _ _ _ hl, if_neg hm])

end Touches

section Operations

variable {t u : FileTree} {path : String}

theorem ne_root {l : Location} (h : t.get? l ≠ some .directory) : l ≠ [] := by
  rintro rfl
  exact h (by simp [get?])

theorem createDirectory_ok (h : t.createDirectory path = .ok u) : ∃ g, t.locate path = .ok g ∧
    t.get? g.location = none ∧ u = t.set g.location .directory := by
  obtain ⟨g, hg, h⟩ := (bind_ok_iff ..).1 h
  split at h
  · cases h
  next hn => exact ⟨g, hg, hn, ((pure_ok_iff ..).1 h).symm⟩

theorem createDirectory_touches (h : t.createDirectory path = .ok u) :
    Touches (fun _ => False) t u ∧ u.isDirectory path := by
  obtain ⟨g, hg, hn, rfl⟩ := createDirectory_ok h
  have hroot : g.location ≠ [] := ne_root (t := t) (by simp [hn])
  have htouch : Touches (fun _ => False) t (t.set g.location .directory) := by
    refine ⟨rfl, fun m => ?_⟩
    by_cases hm : m = g.location
    · exact .inr (.inl ⟨hm ▸ hn, by rw [get?_set _ _ _ _ hroot, if_pos hm]⟩)
    · exact .inl (by rw [get?_set _ _ _ _ hroot, if_neg hm])
  refine ⟨htouch, isDirectory_iff.2 (lookup_ok_iff.2 ⟨g, htouch.locate hg, ?_, by simp⟩)⟩
  rw [get?_set _ _ _ _ hroot, if_pos rfl]

theorem createChain_touches (t : FileTree) (ps : List String) :
    Touches (fun _ => False) t (t.createChain ps).1 ∧
      ((t.createChain ps).2 = none → ∀ path ∈ ps.head?, path ≠ "" →
        (t.createChain ps).1.isDirectory path) := by
  induction ps generalizing t with
  | nil => exact ⟨.refl t, by simp⟩
  | cons path parents ih =>
    rw [createChain]
    split
    next he => exact ⟨.refl t, by simp [he]⟩
    next hne =>
      split
      next u hu =>
        obtain ⟨hu', hd⟩ := createDirectory_touches hu
        exact ⟨hu', by simpa using fun _ => hd⟩
      next hu =>
        -- something is missing above, so that is created before this directory is tried again
        obtain ⟨htouch, -⟩ := ih t
        split
        next u f hc =>
          rw [hc] at htouch
          exact ⟨htouch, by simp⟩
        next u hc =>
          rw [hc] at htouch
          split
          next v hv =>
            obtain ⟨hv', hd⟩ := createDirectory_touches hv
            exact ⟨htouch.trans hv', by simpa using fun _ => hd⟩
          next f hv => exact ⟨htouch, by simp +contextual⟩
      next f _ hu => exact ⟨.refl t, by simp +contextual⟩

theorem createDirectories_touches (t : FileTree) (path : String) :
    Touches (fun _ => False) t (t.createDirectories path).1 ∧
      ((t.createDirectories path).2 = none → path ≠ "" →
        (t.createDirectories path).1.isDirectory path) := by
  have hhead : path ∈ (ancestors path.length path).head? := by
    cases path.length <;> rfl
  obtain ⟨htouch, hd⟩ := createChain_touches t (ancestors path.length path)
  exact ⟨htouch, fun hn hne => hd hn path hhead hne⟩

theorem createDirectories_of_isDirectory (h : t.isDirectory path) :
    t.createDirectories path = (t, none) := by
  obtain ⟨g, hg, hget, -⟩ := lookup_ok_iff.1 (isDirectory_iff.1 h)
  have hcreate : t.createDirectory path = .error .alreadyExists := by
    simp [createDirectory, hg, hget, bind, Except.bind]
  have hchain : ∃ parents, ancestors path.length path = path :: parents := by
    cases path.length <;> exact ⟨_, rfl⟩
  obtain ⟨parents, hp⟩ := hchain
  rw [createDirectories, hp, createChain, hcreate]
  simp [h]

theorem write_ok {bytes : List UInt8} (h : t.write path bytes = .ok u) : ∃ g x,
    t.locate path = .ok g ∧ g.asDirectory = false ∧ t.get? g.location ≠ some .directory ∧
      u = t.set g.location (.file bytes x) := by
  simp only [write, bind_ok_iff, unless_ok_iff] at h
  obtain ⟨g, hg, hd, h⟩ := h
  split at h
  · cases h
  next b x hf => exact ⟨g, x, hg, by simpa using hd, by simp [hf], ((pure_ok_iff ..).1 h).symm⟩
  next hn => exact ⟨g, false, hg, by simpa using hd, by simp [hn], ((pure_ok_iff ..).1 h).symm⟩

/-- What was written can be read, and nothing else has changed. -/
theorem write_touches {bytes : List UInt8} (h : t.write path bytes = .ok u) :
    Touches (· = place t.home path) t u ∧ u.read path = .ok bytes := by
  obtain ⟨g, x, hg, hd, hne, rfl⟩ := write_ok h
  have hroot := ne_root hne
  have htouch : Touches (· = place t.home path) t (t.set g.location (.file bytes x)) :=
    .set hroot (locate_place hg) hne
  refine ⟨htouch, read_ok_iff.2 ⟨x, lookup_ok_iff.2 ⟨g, htouch.locate hg, ?_, fun _ => hd⟩⟩⟩
  rw [get?_set _ _ _ _ hroot, if_pos rfl]

theorem write_of_read (bytes : List UInt8) {old : List UInt8} (h : t.read path = .ok old) :
    ∃ u, t.write path bytes = .ok u := by
  obtain ⟨x, hf⟩ := read_ok_iff.1 h
  obtain ⟨g, hg, hget, hd⟩ := lookup_ok_iff.1 hf
  have hd := hd (by simp)
  exact ⟨_, by simp [write, hg, hget, hd, bind, Except.bind]; rfl⟩

end Operations

end ShaderBuild.FileTree
