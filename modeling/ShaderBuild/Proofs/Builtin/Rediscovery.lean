import ShaderBuild.Proofs.Builtin.Preparing

namespace ShaderBuild.Builtin

open FileTree

def inputExtensions : List (Option (List Char)) :=
  [none, some "shaders".toList, some "hlsl".toList]

/-- Another tree where no input files are different. -/
structure KeepsInput (p : Location → Prop) (t u : FileTree) : Prop where
  touches : Touches p t u
  apart : ∀ l, p l → extensionAt l ∉ inputExtensions

section Manifests

variable {p : Location → Prop} {t u : FileTree} {path : String} {m : Manifest}

theorem isManifestPath_iff :
    isManifestPath path ↔ Path.extensionChars? path.toList = some "shaders".toList := by
  rw [isManifestPath, beq_iff_eq, Path.extension?, Option.map_eq_some_iff]
  constructor
  · rintro ⟨ext, h, he⟩
    rw [h, ← he, String.toList_ofList]
  · intro h
    exact ⟨_, h, by simp⟩

theorem parse_source {text : String} (h : Manifest.parse path text = .ok m) :
    m.source = sourcePath path := by
  simp only [Manifest.parse, bind_ok_iff] at h
  obtain ⟨doc, -, h⟩ := h
  split at h <;>
  · simp only [bind_ok_iff, pure_ok_iff] at h
    obtain ⟨_, -, _, -, rfl⟩ := h
    rfl

theorem loadManifest_gives_iff : Gives (OnFiles t) (loadManifest path) (.ok m) ↔
    ∃ text, t.readText path = .ok text ∧ Manifest.parse path text = .ok m := by
  have hparse (text : String) : Gives (OnFiles t) (Build.ofLogged (parseLogged path text)) (.ok m) ↔
      Manifest.parse path text = .ok m := by
    rw [parseLogged, gives_attempt_iff, mapError_ok_iff]
  refine (gives_bind_iff ⟨_, .consult _ _⟩ (fun _ => (Steady.attempt _).lift)
    (exists_onFiles t)).trans (exists_congr fun text => ?_)
  exact and_congr gives_consult_iff (hparse text)

/-- A manifest is read from its text and has a source. -/
theorem loadPaired_gives_iff : Gives (OnFiles t) (loadPaired path) (.ok m) ↔
    (∃ text, t.readText path = .ok text ∧ Manifest.parse path text = .ok m) ∧
      t.isFile m.source := by
  have hcheck (n : Manifest) : Gives (OnFiles t) (checkSource path n) (.ok m) ↔
      t.isFile n.source ∧ n = m := by
    rw [(checkSource_gives path n).gives_iff (exists_onFiles t)]
    split <;> simp_all
  have hbind : Gives (OnFiles t) (loadPaired path) (.ok m) ↔
      ∃ n, Gives (OnFiles t) (loadManifest path) (.ok n) ∧
        Gives (OnFiles t) (checkSource path n) (.ok m) :=
    gives_bind_iff (loadManifest_steady path) (fun n => ⟨_, checkSource_gives path n⟩)
      (exists_onFiles t)
  rw [hbind, ← loadManifest_gives_iff]
  constructor
  · rintro ⟨n, hn, h⟩
    obtain ⟨hs, rfl⟩ := (hcheck n).1 h
    exact ⟨hn, hs⟩
  · rintro ⟨hm, hs⟩
    exact ⟨m, hm, (hcheck m).2 ⟨hs, rfl⟩⟩

theorem KeepsInput.lookup_file (h : KeepsInput p t u) {bytes : List UInt8} {x : Bool}
    (hext : Path.extensionChars? path.toList ∈ inputExtensions)
    (hf : t.lookup path = .ok (.file bytes x)) : u.lookup path = .ok (.file bytes x) := by
  refine h.touches.lookup_file (fun hp => h.apart _ hp ?_) hf
  obtain ⟨g, hg, -, hd⟩ := lookup_ok_iff.1 hf
  have hfile : endsAsDirectory path = false := by
    rw [← (locate_ok_iff.1 hg).2.2, hd (by simp)]
  rwa [extensionAt_place _ hfile]

theorem KeepsInput.loads (h : KeepsInput p t u) (hp : isManifestPath path)
    (hl : Gives (OnFiles t) (loadPaired path) (.ok m)) :
    Gives (OnFiles u) (loadPaired path) (.ok m) := by
  obtain ⟨⟨text, htext, hm⟩, hsource⟩ := loadPaired_gives_iff.1 hl
  refine loadPaired_gives_iff.2 ⟨⟨text, ?_, hm⟩, ?_⟩
  · have hread : ∀ bytes, t.read path = .ok bytes → u.read path = .ok bytes := by
      intro bytes hr
      obtain ⟨x, hf⟩ := read_ok_iff.1 hr
      refine read_ok_iff.2 ⟨x, h.lookup_file ?_ hf⟩
      simp [isManifestPath_iff.1 hp, inputExtensions]
    obtain ⟨bytes, hbytes, htext⟩ := (bind_ok_iff ..).1 htext
    exact (bind_ok_iff ..).2 ⟨bytes, hread bytes hbytes, htext⟩
  · obtain ⟨bytes, x, hf⟩ := isFile_iff.1 hsource
    refine isFile_iff.2 ⟨bytes, x, h.lookup_file ?_ hf⟩
    rw [parse_source hm]
    have hext : Path.extensionChars? (Path.withExtension path "hlsl").toList ∈
        [none, some "hlsl".toList] :=
      extensionChars?_withExtension (by decide) (by decide) (by decide)
    have hsub : [none, some "hlsl".toList] ⊆ inputExtensions := by simp [inputExtensions]
    exact hsub hext

end Manifests

section Visits

variable {p : Location → Prop} {t u : FileTree} {root : String} {ms : List Manifest}
  {x : String × FileEntry}

/-- A manifest that was met before is read as it was. -/
theorem KeepsInput.visits (h : KeepsInput p t u) (hx : isKept isManifestPath x)
    {o : Option Manifest} (hv : Gives (OnFiles t) (visit root x.1 x.2) (.ok o)) :
    Gives (OnFiles u) (visit root x.1 x.2) (.ok o) := by
  obtain ⟨path, e⟩ := x
  cases e with
  | directory => cases hx
  | file bytes b =>
    have hpath : isManifestPath path = true := hx
    have hvisit : visit root path (.file bytes b) = some <$> loadPaired path := if_pos hpath
    dsimp only at hv ⊢
    rw [hvisit, map_eq_pure_bind] at hv ⊢
    obtain ⟨m, hm, hv⟩ := hv.of_bind (loadPaired_steady path) (fun _ => .pure _) (exists_onFiles t)
    obtain rfl := (gives_pure_iff (exists_onFiles t)).1 hv
    exact (h.loads hpath hm).bind (.pure _)

/-- Nothing else that is met is a manifest, but a directory must be within reach. -/
theorem visit_other (root : String) {l : Location} (hx : isKept isManifestPath x = false)
    (hl : Leads t x.1 l) (he : t.get? l = some x.2) :
    Gives (OnFiles t) (visit root x.1 x.2) (.ok none) ∨
      ∃ e, (x.2 = .directory ∧ longestPath < x.1.utf8ByteSize ∧
          e = .error (DiscoveryError.unscannable root x.1 .nameTooLong)) ∧
        Gives (OnFiles t) (visit root x.1 x.2) (.error e) := by
  obtain ⟨path, e⟩ := x
  cases e with
  | file bytes b =>
    have hpath : isManifestPath path = false := hx
    have hvisit : visit root path (.file bytes b) = pure none := if_neg (by simp [hpath])
    exact .inl (by rw [hvisit]; exact .pure none)
  | directory =>
    have hlook := Gives.consult (t := t) (·.lookup path)
      fun f => DiscoveryError.toError (.unscannable root path f)
    by_cases hs : longestPath < path.utf8ByteSize
    · rw [hl.lookup_long hs] at hlook
      exact .inr ⟨_, ⟨rfl, hs, rfl⟩, hlook.bind_error⟩
    · rw [hl.lookup (Nat.not_lt.1 hs) he] at hlook
      exact .inl (hlook.bind (.pure none))

def manifestsOf (root : String) (xs : List (String × FileEntry)) : Build (List Manifest) :=
  xs.filterMapM fun x => visit root x.1 x.2

def checkNames (ms : List Manifest) : Build (List Manifest) := do
  Logged.attempt ((checkUniqueNames ms).mapError ManifestFault.toError)
  return ms

theorem checkNames_gives_iff {ns : List Manifest} :
    Gives (OnFiles t) (checkNames ns) (.ok ms) ↔ checkUniqueNames ns = .ok () ∧ ns = ms := by
  refine (gives_bind_iff (Steady.attempt _).lift (fun _ => .pure ns) (exists_onFiles t)).trans ?_
  simp only [gives_attempt_iff, gives_pure_iff (exists_onFiles t), mapError_ok_iff]
  exact ⟨fun ⟨_, h⟩ => h, fun h => ⟨(), h⟩⟩

theorem discover_eq (root : String) : discover root =
    Build.consult (·.walk root) (fun f => DiscoveryError.toError (.unscannable root root f)) >>=
      fun xs => manifestsOf root xs >>= checkNames := rfl

theorem manifestsOf_steady (xs : List (String × FileEntry)) :
    Steady (OnFiles t) (manifestsOf root xs) :=
  .filterMapM (fun _ => visit_steady ..) xs

theorem checkNames_steady (ms : List Manifest) : Steady (OnFiles t) (checkNames ms) :=
  (Steady.attempt _).lift.bind fun _ => .pure ms

theorem discover_walks (hd : Gives (OnFiles t) (discover root) (.ok ms)) : ∃ xs,
    t.walk root = .ok xs ∧ Gives (OnFiles t) (manifestsOf root xs) (.ok ms) ∧
      checkUniqueNames ms = .ok () := by
  rw [discover_eq] at hd
  obtain ⟨xs, hwalk, hd⟩ := hd.of_bind ⟨_, .consult _ _⟩
    (fun _ => (manifestsOf_steady _).bind checkNames_steady) (exists_onFiles t)
  obtain ⟨ms', hms, hcheck⟩ := hd.of_bind (manifestsOf_steady _) checkNames_steady
    (exists_onFiles t)
  obtain ⟨hunique, rfl⟩ := checkNames_gives_iff.1 hcheck
  exact ⟨xs, gives_consult_iff.1 hwalk, hms, hunique⟩

theorem lookup_of_discover (hd : Gives (OnFiles t) (discover root) (.ok ms))
    {xs : List (String × FileEntry)} (hw : t.walk root = .ok xs) {path : String}
    (hx : (path, .directory) ∈ xs) : ∃ e, t.lookup path = .ok e := by
  obtain ⟨ys, hys, hms, -⟩ := discover_walks hd
  obtain rfl := Except.ok.inj (hw.symm.trans hys)
  obtain ⟨v, hv, -⟩ := hms.of_filterMapM (fun _ => visit_steady ..) (exists_onFiles t)
  obtain ⟨e, he, -⟩ := (hv _ hx).of_bind ⟨_, .consult _ _⟩ (fun _ => .pure none) (exists_onFiles t)
  exact ⟨e, gives_consult_iff.1 he⟩

theorem walk_ok_iff {xs : List (String × FileEntry)} : t.walk root = .ok xs ↔ ∃ g e,
    t.locate root = .ok g ∧ t.lookup root = .ok e ∧
      xs = t.walkFrom (t.entries.length + 1) root g.location := by
  simp only [FileTree.walk, bind_ok_iff, pure_ok_iff]
  constructor
  · rintro ⟨g, hg, e, he, rfl⟩
    exact ⟨g, e, hg, he, rfl⟩
  · rintro ⟨g, e, hg, he, rfl⟩
    exact ⟨g, hg, e, he, rfl⟩

/-- Walks through both trees meet the same manifests. -/
theorem KeepsInput.walks (h : KeepsInput p t u) (ht : WellFormed t) (hu : WellFormed u)
    (hroot : ∃ e, u.lookup root = .ok e) {xs : List (String × FileEntry)}
    (hw : t.walk root = .ok xs) : ∃ ys, u.walk root = .ok ys ∧
      xs.filter (isKept isManifestPath) = ys.filter (isKept isManifestPath) := by
  obtain ⟨g, e, hg, he, rfl⟩ := walk_ok_iff.1 hw
  obtain ⟨e', he'⟩ := hroot
  refine ⟨_, walk_ok_iff.2 ⟨g, e', h.touches.locate hg, he', rfl⟩, ?_⟩
  refine walkFrom_kept ht hu h.touches.not_directory (fun path l n hn ⟨hp, _⟩ => ?_) _ _
    (Nat.lt_succ_of_le (below_le ..)) (Nat.lt_succ_of_le (below_le ..)) fun ⟨hp, hd⟩ => ?_
  · rw [← Bool.not_eq_true, isManifestPath_iff, extensionChars?_join hn]
    intro hext
    refine h.apart _ hp ?_
    rw [extensionAt, List.getLast?_concat, Option.bind_some, hext]
    simp [inputExtensions]
  · rw [← Bool.not_eq_true, isManifestPath_iff]
    intro hext
    obtain ⟨g', hg', hget, hfile⟩ := lookup_ok_iff.1 he
    obtain rfl := Except.ok.inj (hg.symm.trans hg')
    have hends : endsAsDirectory root = false := by
      rw [← (locate_ok_iff.1 hg).2.2]
      exact hfile fun hdir => hd (by rw [hget, hdir])
    refine h.apart _ hp ?_
    rw [locate_place hg, extensionAt_place _ hends, hext]
    simp [inputExtensions]

theorem leads_of_walk (ht : WellFormed t) {xs : List (String × FileEntry)}
    (hw : t.walk root = .ok xs) (hx : x ∈ xs) : ∃ l, Leads t x.1 l ∧ t.get? l = some x.2 := by
  obtain ⟨g, _, hg, -, rfl⟩ := walk_ok_iff.1 hw
  exact ht.mem_walkFrom (leads_of_locate hg) hx

theorem filterMap_visits (ht : WellFormed t) {xs : List (String × FileEntry)}
    (hw : t.walk root = .ok xs) {v : String × FileEntry → Option Manifest}
    (hv : ∀ x ∈ xs, Gives (OnFiles t) (visit root x.1 x.2) (.ok (v x))) :
    xs.filterMap v = (xs.filter (isKept isManifestPath)).filterMap v := by
  obtain ⟨w, hw'⟩ := exists_onFiles t
  rw [List.filterMap_filter]
  refine List.filterMap_congr fun x hx => ?_
  by_cases hk : isKept isManifestPath x
  · exact (if_pos hk).symm
  · rw [if_neg hk]
    obtain ⟨l, hl, he⟩ := leads_of_walk ht hw hx
    rcases visit_other root (Bool.eq_false_iff.2 hk) hl he with hnone | ⟨e, -, herror⟩
    · exact Except.ok.inj ((hv x hx).unique hnone hw')
    · cases herror.unique (hv x hx) hw'

/-- A visit gives the manifest that it gave before, unless a directory's path is too long. -/
theorem KeepsInput.visits_walk (h : KeepsInput p t u) (hu : WellFormed u)
    {ys : List (String × FileEntry)} (hw : u.walk root = .ok ys)
    {v : String × FileEntry → Option Manifest}
    (hv : ∀ x ∈ ys, isKept isManifestPath x → Gives (OnFiles t) (visit root x.1 x.2) (.ok (v x))) :
    ∀ x ∈ ys, Gives (OnFiles u) (visit root x.1 x.2)
        (.ok (if isKept isManifestPath x then v x else none)) ∨
      ∃ e, (x.2 = .directory ∧ longestPath < x.1.utf8ByteSize ∧
        e = .error (DiscoveryError.unscannable root x.1 .nameTooLong)) ∧
        Gives (OnFiles u) (visit root x.1 x.2) (.error e) := by
  intro x hx
  by_cases hk : isKept isManifestPath x
  · rw [if_pos hk]
    exact .inl (h.visits hk (hv x hx hk))
  · obtain ⟨l, hl, he⟩ := leads_of_walk hu hw hx
    rw [if_neg hk]
    exact visit_other root (Bool.eq_false_iff.2 hk) hl he

/-- Discovery in other files that hold the same input. -/
theorem KeepsInput.discovers (h : KeepsInput p t u) (ht : WellFormed t) (hu : WellFormed u)
    (hroot : ∃ e, u.lookup root = .ok e) (hd : Gives (OnFiles t) (discover root) (.ok ms)) :
    Gives (OnFiles u) (discover root) (.ok ms) ∨ ∃ xs path, u.walk root = .ok xs ∧
      (path, .directory) ∈ xs ∧ longestPath < path.utf8ByteSize ∧
      Gives (OnFiles u) (discover root)
        (.error (.error (DiscoveryError.unscannable root path .nameTooLong))) := by
  obtain ⟨xs, hxs, hms, hunique⟩ := discover_walks hd
  obtain ⟨v, hv, rfl⟩ := hms.of_filterMapM (fun _ => visit_steady ..) (exists_onFiles t)
  obtain ⟨ys, hys, hkept⟩ := h.walks ht hu hroot hxs
  have hfound : Gives (OnFiles u) (Build.consult (·.walk root)
      fun f => DiscoveryError.toError (.unscannable root root f)) (.ok ys) :=
    gives_consult_iff.2 hys
  have hvisit := h.visits_walk hu hys fun x hx hk => by
    have hmem := List.mem_filter.2 ⟨hx, hk⟩
    rw [← hkept] at hmem
    exact hv x (List.mem_filter.1 hmem).1
  have hsame : xs.filterMap v =
      ys.filterMap fun x => if isKept isManifestPath x then v x else none := by
    rw [filterMap_visits ht hxs hv, hkept, List.filterMap_filter]
  rw [discover_eq]
  rcases Gives.filterMapM_or hvisit with hfiles | ⟨x, hx, e, ⟨hdir, hlong, rfl⟩, herror⟩
  · left
    rw [← hsame] at hfiles
    refine hfound.bind (Gives.bind hfiles ?_)
    exact checkNames_gives_iff.2 ⟨hunique, rfl⟩
  · obtain ⟨path, e⟩ := x
    obtain rfl : e = .directory := hdir
    refine .inr ⟨ys, path, hys, hx, hlong, hfound.bind ?_⟩
    exact Gives.bind_error (x := manifestsOf root ys) herror

theorem discover_file {bytes : List UInt8} {b : Bool} (hl : t.lookup root = .ok (.file bytes b))
    (hroot : isManifestPath root = false) (hd : Gives (OnFiles t) (discover root) (.ok ms)) :
    ms = [] := by
  obtain ⟨w, hw⟩ := exists_onFiles t
  obtain ⟨xs, hwalk, hms, -⟩ := discover_walks hd
  obtain ⟨g, _, hg, -, rfl⟩ := walk_ok_iff.1 hwalk
  obtain ⟨g', hg', hget, -⟩ := lookup_ok_iff.1 hl
  obtain rfl := Except.ok.inj (hg.symm.trans hg')
  have hnone : Gives (OnFiles t) (visit root root (.file bytes b)) (.ok none) := by
    have hvisit : visit root root (.file bytes b) = pure none := if_neg (by simp [hroot])
    rw [hvisit]
    exact .pure none
  rw [walkFrom, hget] at hms
  have hempty : Gives (OnFiles t) (manifestsOf root [(root, .file bytes b)]) (.ok []) :=
    Gives.filterMapM (v := fun _ => none) (by simpa using hnone)
  exact Except.ok.inj (hms.unique hempty hw)

end Visits

end ShaderBuild.Builtin
