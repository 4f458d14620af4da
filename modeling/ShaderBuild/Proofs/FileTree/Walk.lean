import Mathlib.Data.List.Nodup
import ShaderBuild.Proofs.FileTree.Changes

namespace ShaderBuild.FileTree

structure EntryName (n : String) : Prop where
  nonempty : n.toList ≠ []
  plain : Path.separator ∉ n.toList
  nonzero : '\x00' ∉ n.toList
  here : n.toList ≠ ['.']
  above : n.toList ≠ ['.', '.']
  short : n.utf8ByteSize ≤ longestName

instance (n : String) : Decidable (EntryName n) :=
  decidable_of_iff (n.toList ≠ [] ∧ Path.separator ∉ n.toList ∧ '\x00' ∉ n.toList ∧
      n.toList ≠ ['.'] ∧ n.toList ≠ ['.', '.'] ∧ n.utf8ByteSize ≤ longestName)
    ⟨fun ⟨h, h', h'', h₃, h₄, h₅⟩ => ⟨h, h', h'', h₃, h₄, h₅⟩,
      fun h => ⟨h.nonempty, h.plain, h.nonzero, h.here, h.above, h.short⟩⟩

/-- One entry at each location, in a directory, under a name. -/
structure WellFormed (t : FileTree) : Prop where
  distinct : (t.entries.map (·.1)).Nodup
  parent : ∀ l n, t.get? (l ++ [n]) ≠ none → t.get? l = some .directory
  name : ∀ l n, t.get? (l ++ [n]) ≠ none → EntryName n

section WellFormed

variable {t u : FileTree} {l m : Location} {path : String}

theorem entryName_ofList {part : List Char} (hn : part ≠ []) (hp : Path.separator ∉ part)
    (hz : '\x00' ∉ part) (hd : part ≠ ['.']) (ha : part ≠ ['.', '.'])
    (hs : (String.ofList part).utf8ByteSize ≤ longestName) : EntryName (String.ofList part) where
  nonempty := by simpa using hn
  plain := by simpa using hp
  nonzero := by simpa using hz
  here := by simpa using hd
  above := by simpa using ha
  short := hs

/-- What a path leads to is a directory, or it has a name and would be in one. -/
theorem WellFormed.arrives (h : WellFormed t) {g : Target} (hg : t.locate path = .ok g) :
    t.get? g.location = some .directory ∨
      ∃ k n, g.location = k ++ [n] ∧ t.get? k = some .directory ∧ EntryName n := by
  obtain ⟨hv, hsteps, -⟩ := locate_ok_iff.1 hg
  rcases List.eq_nil_or_concat (Path.names path.toList) with hnil | ⟨ps, part, hsnoc⟩
  · have habs : Path.isAbsolute path := Path.isAbsoluteChars_of_names hnil hv.nonempty
    rw [hnil, origin, if_pos habs] at hsteps
    have hroot : [] = g.location := (pure_ok_iff ..).1 hsteps
    exact .inl (by simp [← hroot, get?])
  · have hmem : part ∈ Path.names path.toList := by simp [hsnoc]
    rw [hsnoc, List.concat_eq_append, List.foldlM_append, bind_ok_iff] at hsteps
    obtain ⟨k, -, hlast⟩ := hsteps
    simp only [List.foldlM_cons, List.foldlM_nil, bind_pure] at hlast
    obtain ⟨hk, hshort, hloc⟩ := step_ok_iff.1 hlast
    rw [hloc, hop]
    by_cases hd : part = ['.']
    · exact .inl (by rw [if_pos hd]; exact hk)
    · by_cases ha : part = ['.', '.']
      · left
        rw [if_neg hd, if_pos ha]
        rcases List.eq_nil_or_concat k with rfl | ⟨k', n, rfl⟩
        · exact hk
        · rw [List.concat_eq_append] at hk ⊢
          rw [List.dropLast_concat]
          exact h.parent k' n (by simp [hk])
      · obtain ⟨hparts, hne⟩ := List.mem_filter.1 hmem
        obtain ⟨hplain, hsub⟩ := Path.plain_of_mem_parts hparts
        have hshort := (hshort.resolve_left hd).resolve_left ha
        refine .inr ⟨k, _, by rw [if_neg hd, if_neg ha], hk, entryName_ofList (by simpa using hne)
          hplain (fun hz => hv.nonzero (hsub hz)) hd ha hshort⟩

theorem setIn_keys (l : Location) (e : FileEntry) (es : List (Location × FileEntry)) :
    (setIn l e es).map (·.1) = es.map (·.1) ∨
      l ∉ es.map (·.1) ∧ (setIn l e es).map (·.1) = es.map (·.1) ++ [l] := by
  induction es with
  | nil => exact .inr ⟨by simp, rfl⟩
  | cons x r ih =>
    obtain ⟨m, f⟩ := x
    by_cases hm : l = m
    · simp [setIn, hm]
    · rw [setIn, if_neg hm]
      simpa [hm] using ih

/-- Where something other than a directory is or could be, anything can be put. -/
theorem WellFormed.set (h : WellFormed t) {g : Target} (hg : t.locate path = .ok g)
    (hd : t.get? g.location ≠ some .directory) (e : FileEntry) :
    WellFormed (t.set g.location e) := by
  have hroot := ne_root hd
  obtain ⟨k, n, hloc, hk, hn⟩ := (h.arrives hg).resolve_left hd
  have hkeep {m : Location} (hm : t.get? m = some .directory) :
      (t.set g.location e).get? m = some .directory := by
    rw [get?_set _ _ _ _ hroot, if_neg fun he : m = g.location => hd (he ▸ hm), hm]
  have hentry {m : Location} {b : String} (hne : (t.set g.location e).get? (m ++ [b]) ≠ none) :
      m = k ∧ b = n ∨ t.get? (m ++ [b]) ≠ none := by
    rw [get?_set _ _ _ _ hroot] at hne
    by_cases hm : m ++ [b] = g.location
    · exact .inl (List.append_singleton_inj.1 (hm.trans hloc))
    · exact .inr (by rwa [if_neg hm] at hne)
  refine ⟨?_, fun m b hne => ?_, fun m b hne => ?_⟩
  · rcases setIn_keys g.location e t.entries with hkeys | ⟨hnew, hkeys⟩
    · exact hkeys ▸ h.distinct
    · show ((setIn g.location e t.entries).map (·.1)).Nodup
      rw [hkeys, ← List.concat_eq_append]
      exact h.distinct.concat hnew
  · rcases hentry hne with ⟨rfl, -⟩ | hold
    · exact hkeep hk
    · exact hkeep (h.parent m b hold)
  · rcases hentry hne with ⟨-, rfl⟩ | hold
    · exact hn
    · exact h.name m b hold

theorem WellFormed.createDirectory (h : WellFormed t) (hc : t.createDirectory path = .ok u) :
    WellFormed u := by
  obtain ⟨g, hg, hn, rfl⟩ := createDirectory_ok hc
  exact h.set hg (by simp [hn]) _

theorem WellFormed.createChain (h : WellFormed t) (ps : List String) :
    WellFormed (t.createChain ps).1 := by
  induction ps generalizing t with
  | nil => exact h
  | cons path parents ih =>
    rw [FileTree.createChain]
    split
    · exact h
    · split
      next u hu => exact h.createDirectory hu
      next hu =>
        have hparents := ih h
        split
        next u f hc => rwa [hc] at hparents
        next u hc =>
          rw [hc] at hparents
          split
          next v hv => exact hparents.createDirectory hv
          next f hv => exact hparents
      next f _ hu => exact h

theorem WellFormed.write (h : WellFormed t) {bytes : List UInt8}
    (hw : t.write path bytes = .ok u) : WellFormed u := by
  obtain ⟨g, x, hg, -, hd, rfl⟩ := write_ok hw
  exact h.set hg hd _

end WellFormed

section Join

variable {t : FileTree} {home l : Location} {path n : String}

theorem names_join (hn : EntryName n) :
    Path.names (Path.join path n).toList = Path.names path.toList ++ [n.toList] := by
  rw [Path.join, String.toList_ofList]
  exact (Path.joinChars_parts hn.nonempty hn.plain).1

theorem lastPart_join (hn : EntryName n) : Path.lastPart (Path.join path n).toList = n.toList := by
  rw [Path.join, String.toList_ofList]
  exact (Path.joinChars_parts hn.nonempty hn.plain).2.1

theorem origin_join (hn : EntryName n) : origin home (Path.join path n) = origin home path := by
  rw [origin, origin, Path.isAbsolute, Path.isAbsolute, Path.join, String.toList_ofList,
    (Path.joinChars_parts hn.nonempty hn.plain).2.2]

theorem hop_name (hn : EntryName n) : hop l n.toList = l ++ [n] := by
  rw [hop, if_neg hn.here, if_neg hn.above, String.ofList_toList]

theorem step_name (hn : EntryName n) (hd : t.get? l = some .directory) :
    t.step l n.toList = .ok (l ++ [n]) :=
  step_ok_iff.2 ⟨hd, .inr (.inr (by simpa using hn.short)), (hop_name hn).symm⟩

end Join

section Children

variable {t : FileTree} {l : Location} {n : String}

theorem get?_ne_none_iff : t.get? (l ++ [n]) ≠ none ↔ l ++ [n] ∈ t.entries.map (·.1) := by
  simp only [get?, List.append_ne_nil_of_right_ne_nil l (List.cons_ne_nil n []), if_false, ne_eq,
    List.lookup_eq_none_iff, List.mem_map]
  simp

theorem wellFormed_iff : WellFormed t ↔ (t.entries.map (·.1)).Nodup ∧
    ∀ m ∈ t.entries.map (·.1), ∀ n ∈ m.getLast?,
      t.get? m.dropLast = some .directory ∧ EntryName n := by
  constructor
  · intro h
    refine ⟨h.distinct, fun m hm n hn => ?_⟩
    obtain ⟨l, rfl⟩ := List.getLast?_eq_some_iff.1 hn
    rw [List.dropLast_concat]
    exact ⟨h.parent l n (get?_ne_none_iff.2 hm), h.name l n (get?_ne_none_iff.2 hm)⟩
  · rintro ⟨hdistinct, hall⟩
    have hentry (l : Location) (n : String) (hne : t.get? (l ++ [n]) ≠ none) :
        t.get? l = some .directory ∧ EntryName n := by
      simpa using hall _ (get?_ne_none_iff.1 hne) n (List.getLast?_concat ..)
    exact ⟨hdistinct, fun l n hne => (hentry l n hne).1, fun l n hne => (hentry l n hne).2⟩

instance (t : FileTree) : Decidable (WellFormed t) := decidable_of_iff _ wellFormed_iff.symm

def childName (l m : Location) : Option String := if m.dropLast = l then m.getLast? else none

theorem childName_eq_some {m : Location} : childName l m = some n ↔ m = l ++ [n] := by
  unfold childName
  constructor
  · intro h
    by_cases hl : m.dropLast = l
    · rw [if_pos hl] at h
      rw [← hl, List.dropLast_append_getLast? n h]
    · rw [if_neg hl] at h
      cases h
  · rintro rfl
    simp

theorem children_eq (t : FileTree) (l : Location) : t.children l =
    ((t.entries.map (·.1)).filterMap (childName l)).mergeSort fun a b => !decide (b < a) := by
  rw [List.filterMap_map]
  rfl

theorem mem_children : n ∈ t.children l ↔ t.get? (l ++ [n]) ≠ none := by
  rw [get?_ne_none_iff, children_eq, List.mem_mergeSort, List.mem_filterMap]
  simp [childName_eq_some]

theorem children_sorted (t : FileTree) (l : Location) : (t.children l).Pairwise (· ≤ ·) := by
  have hle (a b : String) : (!decide (b < a)) = true ↔ a ≤ b := by
    rw [Bool.not_eq_true', decide_eq_false_iff_not, String.not_lt]
  have hsorted : (t.children l).Pairwise fun a b => !decide (b < a) := by
    refine List.pairwise_mergeSort (fun a b c hab hbc => ?_) (fun a b => ?_) _
    · rw [hle] at hab hbc ⊢
      exact String.le_trans hab hbc
    · rw [Bool.or_eq_true, hle, hle]
      exact String.le_total a b
  exact hsorted.imp fun h => (hle _ _).1 h

theorem children_nodup (h : (t.entries.map (·.1)).Nodup) : (t.children l).Nodup := by
  rw [children_eq, (List.mergeSort_perm _ _).nodup_iff]
  refine h.filterMap fun m m' n hm hm' => ?_
  rw [childName_eq_some.1 hm, childName_eq_some.1 hm']

end Children

section Sorted

variable {α : Type} {f g : String → List α} {xs ys : List String}

theorem flatMap_filter_of_nil {p : String → Bool} (h : ∀ n ∈ xs, p n = false → f n = []) :
    (xs.filter p).flatMap f = xs.flatMap f := by
  induction xs with
  | nil => rfl
  | cons n r ih =>
    obtain ⟨hn, hr⟩ := List.forall_mem_cons.1 h
    cases hp : p n with
    | true => simp [hp, ih hr]
    | false => simp [hp, ih hr, hn hp]

theorem flatMap_eq_of_sorted (hx : xs.Pairwise (· ≤ ·)) (hy : ys.Pairwise (· ≤ ·)) (hxn : xs.Nodup)
    (hyn : ys.Nodup) (hboth : ∀ n ∈ xs, n ∈ ys → f n = g n) (hf : ∀ n ∈ xs, n ∉ ys → f n = [])
    (hg : ∀ n ∈ ys, n ∉ xs → g n = []) : xs.flatMap f = ys.flatMap g := by
  have hcommon : xs.filter (· ∈ ys) = ys.filter (· ∈ xs) := by
    refine List.Perm.eq_of_pairwise (fun a b _ _ => String.le_antisymm) (hx.filter _) (hy.filter _)
      ((List.perm_ext_iff_of_nodup (hxn.filter _) (hyn.filter _)).2 fun n => ?_)
    simp [and_comm]
  calc xs.flatMap f = (xs.filter (· ∈ ys)).flatMap f :=
        (flatMap_filter_of_nil (by simpa using hf)).symm
    _ = (xs.filter (· ∈ ys)).flatMap g := by
        refine List.flatMap_congr fun n hn => ?_
        obtain ⟨hmem, hn⟩ := List.mem_filter.1 hn
        exact hboth n hmem (by simpa using hn)
    _ = (ys.filter (· ∈ xs)).flatMap g := by rw [hcommon]
    _ = ys.flatMap g := flatMap_filter_of_nil (by simpa using hg)

end Sorted

section Walk

variable {p : Location → Prop} {t u : FileTree} {l : Location} {path : String}

def below (t : FileTree) (l : Location) : Nat :=
  ((t.entries.map (·.1)).filter fun m => l <+: m ∧ l ≠ m).length

theorem below_le (t : FileTree) (l : Location) : t.below l ≤ t.entries.length := by
  simpa [below] using List.length_filter_le (fun m => l <+: m ∧ l ≠ m) (t.entries.map (·.1))

theorem below_child {n : String} (h : t.get? (l ++ [n]) ≠ none) :
    t.below (l ++ [n]) < t.below l := by
  have hsub : (t.entries.map (·.1)).filter (fun m => l ++ [n] <+: m ∧ l ++ [n] ≠ m) =
      ((t.entries.map (·.1)).filter fun m => l <+: m ∧ l ≠ m).filter
        fun m => l ++ [n] <+: m ∧ l ++ [n] ≠ m := by
    rw [List.filter_filter]
    refine List.filter_congr fun m _ => ?_
    have himp : l ++ [n] <+: m → l <+: m ∧ l ≠ m := by
      rintro ⟨k, rfl⟩
      exact ⟨⟨n :: k, by simp⟩, by simp⟩
    simp only [← Bool.decide_and]
    exact decide_eq_decide.2 ⟨fun hm => ⟨hm, himp hm.1⟩, fun hm => hm.1⟩
  rw [below, below, hsub, List.length_filter_lt_length_iff_exists]
  refine ⟨l ++ [n], List.mem_filter.2 ⟨get?_ne_none_iff.1 h, ?_⟩, by simp⟩
  simp

def isKept (keep : String → Bool) : String × FileEntry → Bool
  | (path, .file ..) => keep path
  | (_, .directory) => false

variable {keep : String → Bool}

variable (ht : WellFormed t) (hu : WellFormed u) (h : Touches p t u)
  (hkeep : ∀ path l n, EntryName n → p (l ++ [n]) → keep (Path.join path n) = false)

include ht hu h hkeep

theorem walkFrom_new (k : Nat) (hd : t.get? l ≠ some .directory)
    (hl : keep path = false ∨ t.get? l = none ∧ ¬p l) :
    (u.walkFrom k path l).filter (isKept keep) = [] := by
  induction k generalizing path l with
  | zero => rfl
  | succ k ih =>
    rw [walkFrom]
    cases he : u.get? l with
    | none => rfl
    | some e =>
      cases e with
      | file bytes x =>
        rcases hl with hl | ⟨hn, hp⟩
        · simp [isKept, hl]
        · rw [h.file_iff hp, hn] at he
          cases he
      | directory =>
        rw [List.filter_cons_of_neg (by simp [isKept]), List.filter_flatMap,
          List.flatMap_eq_nil_iff]
        intro n hmem
        have hnone : t.get? (l ++ [n]) = none := by
          by_contra hne
          exact hd (ht.parent l n hne)
        refine ih (by simp [hnone]) ?_
        by_cases hp : p (l ++ [n])
        · exact .inl (hkeep path l n (hu.name l n (mem_children.1 hmem)) hp)
        · exact .inr ⟨hnone, hp⟩

theorem walkFrom_absent (k : Nat) (hn : t.get? l = none) (hl : p l → keep path = false) :
    (u.walkFrom k path l).filter (isKept keep) = [] := by
  refine walkFrom_new ht hu h hkeep k (by simp [hn]) ?_
  by_cases hp : p l
  · exact .inl (hl hp)
  · exact .inr ⟨hn, hp⟩

omit hu in
theorem walkFrom_gone (k : Nat) (hn : t.get? l ≠ none) (hgone : u.get? l = none)
    (hl : p l → keep path = false) : (t.walkFrom k path l).filter (isKept keep) = [] := by
  obtain ⟨hp, hd⟩ : p l ∧ t.get? l ≠ some .directory := by
    rcases h.entry l with he | ⟨-, he⟩ | he
    · exact absurd (he.symm.trans hgone) hn
    · exact absurd (he.symm.trans hgone) (by simp)
    · exact he
  exact walkFrom_new ht ht (.refl t) hkeep k hd (.inl (hl hp))

theorem walkFrom_kept_leaf (j k : Nat) (hd : t.get? l ≠ some .directory)
    (hl : p l → keep path = false) :
    (t.walkFrom (j + 1) path l).filter (isKept keep) =
      (u.walkFrom (k + 1) path l).filter (isKept keep) := by
  rcases h.entry l with he | ⟨hn, -⟩ | ⟨hp, -⟩
  · cases ht' : t.get? l with
    | none => simp [walkFrom, he, ht']
    | some e =>
      cases e with
      | file => simp [walkFrom, he, ht']
      | directory => exact absurd ht' hd
  · have hnone : t.walkFrom (j + 1) path l = [] := by simp [walkFrom, hn]
    rw [hnone, walkFrom_absent ht hu h hkeep (k + 1) hn hl]
    rfl
  · rw [walkFrom_new ht ht (.refl t) hkeep (j + 1) hd (.inl (hl hp)),
      walkFrom_new ht hu h hkeep (k + 1) hd (.inl (hl hp))]

theorem walkFrom_kept (j k : Nat) (hj : t.below l < j) (hk : u.below l < k)
    (hl : p l → keep path = false) :
    (t.walkFrom j path l).filter (isKept keep) = (u.walkFrom k path l).filter (isKept keep) := by
  induction j generalizing k path l with
  | zero => exact absurd hj (Nat.not_lt_zero _)
  | succ j ih =>
    obtain ⟨k, rfl⟩ : ∃ i, k = i + 1 := ⟨k - 1, by omega⟩
    by_cases hd : t.get? l = some .directory
    · have hne : ¬isKept keep (path, .directory) := by simp [isKept]
      rw [walkFrom, walkFrom, hd, h.directory hd]
      simp only [List.filter_cons_of_neg hne, List.filter_flatMap]
      -- both walks take the names in one order; one that a single tree has leads to nothing kept
      refine flatMap_eq_of_sorted (children_sorted t l) (children_sorted u l)
        (children_nodup ht.distinct) (children_nodup hu.distinct) (fun n hn hn' => ?_)
        (fun n hn hn' => ?_) fun n hn hn' => ?_
      · have hn := mem_children.1 hn
        have hn' := mem_children.1 hn'
        exact ih k (Nat.lt_of_lt_of_le (below_child hn) (Nat.le_of_lt_succ hj))
          (Nat.lt_of_lt_of_le (below_child hn') (Nat.le_of_lt_succ hk))
          (hkeep path l n (ht.name l n hn))
      · have hn := mem_children.1 hn
        exact walkFrom_gone ht h hkeep j hn (by simpa [mem_children] using hn')
          (hkeep path l n (ht.name l n hn))
      · exact walkFrom_absent ht hu h hkeep k (by simpa [mem_children] using hn')
          (hkeep path l n (hu.name l n (mem_children.1 hn)))
    · exact walkFrom_kept_leaf ht hu h hkeep j k hd hl

end Walk

section Reach

variable {t : FileTree} {l : Location} {path : String}

/-- A path that leads to a location, however long it is. -/
structure Leads (t : FileTree) (path : String) (l : Location) : Prop where
  nonempty : path.toList ≠ []
  nonzero : '\x00' ∉ path.toList
  steps : (Path.names path.toList).foldlM t.step (origin t.home path) = .ok l

theorem leads_of_locate {g : Target} (h : t.locate path = .ok g) : Leads t path g.location := by
  obtain ⟨hv, hsteps, -⟩ := locate_ok_iff.1 h
  exact ⟨hv.nonempty, hv.nonzero, hsteps⟩

theorem Leads.location (h : Leads t path l) {g : Target} (hg : t.locate path = .ok g) :
    g.location = l :=
  Except.ok.inj ((locate_ok_iff.1 hg).2.1.symm.trans h.steps)

theorem Leads.join (h : Leads t path l) (hd : t.get? l = some .directory) {n : String}
    (hn : EntryName n) : Leads t (Path.join path n) (l ++ [n]) := by
  obtain ⟨x, hx⟩ := Path.exists_join path n
  refine ⟨by simp [hx, hn.nonempty], fun hz => ?_, ?_⟩
  · rw [Path.join, String.toList_ofList] at hz
    rcases Path.mem_joinChars hz with hz | hz | hz
    · exact h.nonzero hz
    · revert hz
      decide
    · exact hn.nonzero hz
  · rw [names_join hn, origin_join hn, List.foldlM_append, bind_ok_iff]
    refine ⟨l, h.steps, ?_⟩
    simpa only [List.foldlM_cons, List.foldlM_nil, bind_pure] using step_name hn hd

theorem Leads.lookup (h : Leads t path l) (hs : path.utf8ByteSize ≤ longestPath)
    (hd : t.get? l = some .directory) : t.lookup path = .ok .directory :=
  lookup_ok_iff.2 ⟨⟨l, endsAsDirectory path⟩,
    locate_ok_iff.2 ⟨⟨h.nonempty, h.nonzero, hs⟩, h.steps, rfl⟩, hd, fun hne => absurd rfl hne⟩

theorem Leads.lookup_long (h : Leads t path l) (hs : longestPath < path.utf8ByteSize) :
    t.lookup path = .error .nameTooLong := by
  have hne : path.toList.isEmpty = false := by simpa using h.nonempty
  have hlocate : t.locate path = .error .nameTooLong := by
    simp [locate, hne, h.nonzero, hs, bind, Except.bind]
  simp [FileTree.lookup, hlocate, bind, Except.bind]

theorem mem_walkFrom_child {n : String} (hl : t.get? l = some .directory)
    (hn : t.get? (l ++ [n]) = some .directory) :
    (Path.join path n, .directory) ∈ t.walkFrom (t.entries.length + 1) path l := by
  have hmem : l ++ [n] ∈ t.entries.map (·.1) := get?_ne_none_iff.1 (by simp [hn])
  obtain ⟨k, hk⟩ := Nat.exists_eq_add_one.2 (List.length_pos_of_mem hmem)
  rw [List.length_map] at hk
  rw [walkFrom, hl]
  refine List.mem_cons_of_mem _ (List.mem_flatMap.2 ⟨n, mem_children.2 (by simp [hn]), ?_⟩)
  simp [walkFrom, hn, hk]

/-- What a walk meets is where its path leads. -/
theorem WellFormed.mem_walkFrom (ht : WellFormed t) {k : Nat} (h : Leads t path l)
    {x : String × FileEntry} (hx : x ∈ t.walkFrom k path l) :
    ∃ m, Leads t x.1 m ∧ t.get? m = some x.2 := by
  induction k generalizing path l with
  | zero => cases hx
  | succ k ih =>
    rw [walkFrom] at hx
    cases he : t.get? l with
    | none =>
      rw [he] at hx
      cases hx
    | some e =>
      cases e with
      | file bytes b =>
        rw [he] at hx
        obtain rfl := List.mem_singleton.1 hx
        exact ⟨l, h, he⟩
      | directory =>
        rw [he] at hx
        rcases List.mem_cons.1 hx with rfl | hx
        · exact ⟨l, h, he⟩
        · obtain ⟨n, hn, hx⟩ := List.mem_flatMap.1 hx
          exact ih (h.join he (ht.name l n (mem_children.1 hn))) hx

end Reach

end ShaderBuild.FileTree
