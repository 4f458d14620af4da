import ShaderBuild.Output
import ShaderBuild.Proofs.FileTree.Extensions
import ShaderBuild.Proofs.Steady

namespace ShaderBuild

open FileTree

section Confined

variable {ε α β : Type} {q r : String → Prop} {t u v : FileTree}

def FileTree.PlaceOf (q : String → Prop) (home : Location) (l : Location) : Prop :=
  ∃ path, q path ∧ l = place home path

/-- Another tree with other files in the places of some paths. -/
structure FileTree.Alters (q : String → Prop) (t u : FileTree) : Prop where
  touches : Touches (PlaceOf q t.home) t u
  wellFormed : WellFormed t → WellFormed u

theorem FileTree.Alters.refl (t : FileTree) : Alters q t t := ⟨.refl t, id⟩

theorem FileTree.Alters.mono (h : Alters q t u) (hqr : ∀ path, q path → r path) : Alters r t u :=
  ⟨h.touches.mono fun _ ⟨path, hq, hl⟩ => ⟨path, hqr path hq, hl⟩, h.wellFormed⟩

theorem FileTree.Alters.trans (h : Alters q t u) (h' : Alters q u v) : Alters q t v := by
  have hrest := h'.touches
  rw [h.touches.home] at hrest
  exact ⟨h.touches.trans hrest, fun ht => h'.wellFormed (h.wellFormed ht)⟩

/-- A step that changes files only where some paths lead, from any workspace. -/
def Confined (q : String → Prop) (x : ExceptT ε (StateM Workspace) α) : Prop :=
  ∀ w, Alters q w.files (x.run.run w).2.files

theorem Confined.mono {x : ExceptT ε (StateM Workspace) α} (h : Confined q x)
    (hqr : ∀ path, q path → r path) : Confined r x :=
  fun w => (h w).mono hqr

theorem Confined.pure (a : α) :
    Confined q (Pure.pure a : ExceptT ε (StateM Workspace) α) :=
  fun w => .refl w.files

theorem Confined.bind_of {x : ExceptT ε (StateM Workspace) α}
    {f : α → ExceptT ε (StateM Workspace) β} (hx : Confined q x)
    (hf : ∀ w a, (x.run.run w).1 = .ok a → Confined q (f a)) : Confined q (x >>= f) := by
  intro w
  have halters := hx w
  have hrest := hf w
  rw [run_bind]
  revert halters hrest
  rcases x.run.run w with ⟨_ | a, w'⟩
  · exact fun halters _ => halters
  · exact fun halters hrest => halters.trans (hrest a rfl w')

theorem Confined.bind {x : ExceptT ε (StateM Workspace) α}
    {f : α → ExceptT ε (StateM Workspace) β} (hx : Confined q x) (hf : ∀ a, Confined q (f a)) :
    Confined q (x >>= f) :=
  hx.bind_of fun _ a _ => hf a

theorem Confined.mapM {f : α → ExceptT ε (StateM Workspace) β} {xs : List α}
    (hf : ∀ a ∈ xs, Confined q (f a)) : Confined q (xs.mapM f) := by
  induction xs with
  | nil => exact .pure []
  | cons x r ih =>
    obtain ⟨hx, hr⟩ := List.forall_mem_cons.1 hf
    rw [List.mapM_cons]
    exact hx.bind fun _ => (ih hr).bind fun _ => .pure _

theorem Confined.logged (x : Logged α) : Confined q (Build.ofLogged x) := fun w => .refl w.files

theorem Confined.of_steady {x : ExceptT ε (StateM Workspace) α} (h : ∀ t, Steady (OnFiles t) x) :
    Confined q x := by
  intro w
  obtain ⟨_, hr⟩ := h w.files
  have hfiles : (x.run.run w).2.files = w.files := (hr w rfl).2
  rw [hfiles]
  exact .refl w.files

end Confined

section Put

variable {path : String} {bytes : List UInt8} {w w' : Workspace}
  {error : String → FileFault → Error} {fileError : FileFault → Error}

def parentOf (path : String) : Option String := (Path.parent? path).filter (· != "")

theorem createParent_none (h : parentOf path = none) : createParent path error = pure () := by
  rw [createParent, show (Path.parent? path).filter (· != "") = none from h]

theorem createParent_run {parent : String} (h : parentOf path = some parent) :
    (createParent path error).run.run w = match w.files.createDirectories parent with
      | (files, none) => (.ok (), { w with files })
      | (files, some f) => (.error (.error (error parent f)),
          { w with files, journal := w.journal.record (error parent f).entry }) := by
  have hfiles : Build.files.run.run w = (.ok w.files, w) := rfl
  simp only [createParent, show (Path.parent? path).filter (· != "") = some parent from h,
    run_bind, hfiles]
  rcases w.files.createDirectories parent with ⟨files, _ | f⟩ <;> rfl

theorem createParent_confined (path : String) (error : String → FileFault → Error) :
    Confined (fun _ => False) (createParent path error) := by
  intro w
  cases h : parentOf path with
  | none =>
    rw [createParent_none h]
    exact .refl w.files
  | some parent =>
    have halters : Alters (fun _ => False) w.files (w.files.createDirectories parent).1 :=
      ⟨(createDirectories_touches w.files parent).1.mono fun _ => False.elim,
        fun ht => ht.createChain _⟩
    rw [createParent_run h]
    revert halters
    rcases w.files.createDirectories parent with ⟨files, _ | f⟩ <;> exact id

theorem createParent_ok (h : (createParent path error).run.run w = (.ok (), w')) :
    ∀ parent ∈ parentOf path, w'.files.isDirectory parent := by
  intro parent hp
  have hne : parent ≠ "" := by
    simpa using (Option.filter_eq_some_iff.1 hp).2
  have hd := (createDirectories_touches w.files parent).2
  rw [createParent_run hp] at h
  revert h hd
  rcases w.files.createDirectories parent with ⟨files, _ | f⟩
  · rintro ⟨⟩ hd
    exact hd rfl hne
  · rintro ⟨⟩

/-- A directory that is there is not created again. -/
theorem createParent_again (h : ∀ parent ∈ parentOf path, w.files.isDirectory parent) :
    (createParent path error).run.run w = (.ok (), w) := by
  cases hp : parentOf path with
  | none =>
    rw [createParent_none hp]
    rfl
  | some parent => rw [createParent_run hp, createDirectories_of_isDirectory (h parent hp)]

theorem change_run (action : FileTree → Except FileFault FileTree) :
    (Build.change action fileError).run.run w = match action w.files with
      | .ok files => (.ok (), { w with files })
      | .error f => (.error (.error (fileError f)),
          { w with journal := w.journal.record (fileError f).entry }) := by
  have hfiles : Build.files.run.run w = (.ok w.files, w) := rfl
  simp only [Build.change, run_bind, hfiles]
  cases action w.files <;> rfl

def putFile (path : String) (bytes : List UInt8) (error : String → FileFault → Error)
    (fileError : FileFault → Error) : Build Unit := do
  createParent path error
  Build.change (·.write path bytes) fileError

theorem putFile_ok (h : (putFile path bytes error fileError).run.run w = (.ok (), w')) :
    Alters (· = path) w.files w'.files ∧ w'.files.read path = .ok bytes ∧
      ∀ parent ∈ parentOf path, w'.files.isDirectory parent := by
  obtain ⟨_, v, hparent, hwrite⟩ := run_bind_ok h
  have halters := createParent_confined path error w
  rw [hparent] at halters
  rw [change_run] at hwrite
  cases hw : v.files.write path bytes with
  | error f =>
    rw [hw] at hwrite
    cases hwrite
  | ok u =>
    rw [hw] at hwrite
    obtain rfl : _ = w' := congrArg Prod.snd hwrite
    obtain ⟨htouch, hread⟩ := write_touches hw
    have hput : Alters (· = path) v.files u :=
      ⟨htouch.mono fun l hl => ⟨path, rfl, hl⟩, fun hv => hv.write hw⟩
    refine ⟨(halters.mono fun _ => False.elim).trans hput, hread, fun parent hp => ?_⟩
    exact isDirectory_iff.2
      (htouch.lookup_directory (isDirectory_iff.1 (createParent_ok hparent parent hp)))

theorem putFile_error {e : Failure}
    (h : (putFile path bytes error fileError).run.run w = (.error e, w')) :
    Alters (fun _ => False) w.files w'.files := by
  have halters := createParent_confined path error w
  rw [putFile, run_bind] at h
  revert h halters
  rcases (createParent path error).run.run w with ⟨_ | _, v⟩
  · rintro ⟨⟩ halters
    exact halters
  · intro h halters
    change (Build.change _ fileError).run.run v = _ at h
    rw [change_run] at h
    cases hw : v.files.write path bytes with
    | error f =>
      rw [hw] at h
      obtain rfl : _ = w' := congrArg Prod.snd h
      exact halters
    | ok u =>
      rw [hw] at h
      cases h

theorem putFile_confined : Confined (· = path) (putFile path bytes error fileError) := by
  intro w
  cases h : (putFile path bytes error fileError).run.run w with
  | mk result w' =>
    cases result with
    | error e => exact (putFile_error h).mono fun _ => False.elim
    | ok _ => exact (putFile_ok h).1

/-- A file that is there can be put there again. -/
theorem putFile_again {old : List UInt8} (hr : w.files.read path = .ok old)
    (hd : ∀ parent ∈ parentOf path, w.files.isDirectory parent) :
    ∃ w', (putFile path bytes error fileError).run.run w = (.ok (), w') := by
  obtain ⟨u, hu⟩ := write_of_read bytes hr
  refine ⟨{ w with files := u }, ?_⟩
  rw [putFile, run_bind, createParent_again hd]
  show (Build.change _ fileError).run.run w = _
  rw [change_run, hu]

end Put

section Writes

variable {path text : String} {w w' : Workspace}

theorem writeIfChanged_same {t : FileTree} (h : t.read path = .ok (Text.Utf8.encode text)) :
    Gives (OnFiles t) (writeIfChanged path text) (.ok .unchanged) := by
  refine Gives.bind .files ?_
  rw [h]
  dsimp only
  rw [if_pos rfl]
  exact (Gives.note _ _ _).lift.bind (.pure _)

def writeText (path text : String) : Build WriteOutcome := do
  putFile path (Text.Utf8.encode text) (fun parent f => (WriteError.directory parent f).toError)
    fun f => (WriteError.file path f).toError
  Logged.note .debug .writer s!"Wrote {path}"
  return .written

theorem writeIfChanged_other (h : w.files.read path ≠ .ok (Text.Utf8.encode text)) :
    (writeIfChanged path text).run.run w = (writeText path text).run.run w := by
  have hfiles : Build.files.run.run w = (.ok w.files, w) := rfl
  rw [writeIfChanged, run_bind, hfiles, writeText, putFile, bind_assoc]
  dsimp only
  cases hr : w.files.read path with
  | error f => rfl
  | ok old =>
    dsimp only
    rw [if_neg fun he => h (by rw [hr, he])]

theorem writeText_ok {o : WriteOutcome} (h : (writeText path text).run.run w = (.ok o, w')) :
    o = .written ∧ w'.files.read path = .ok (Text.Utf8.encode text) := by
  obtain ⟨_, v, hput, h⟩ := run_bind_ok h
  obtain ⟨_, v', hnote, h⟩ := run_bind_ok h
  obtain ⟨rfl, rfl⟩ := run_pure_ok_iff.1 h
  obtain rfl : _ = v' := congrArg Prod.snd hnote
  exact ⟨rfl, (putFile_ok hput).2.1⟩

theorem writeIfChanged_ok {o : WriteOutcome}
    (h : (writeIfChanged path text).run.run w = (.ok o, w')) :
    w'.files.read path = .ok (Text.Utf8.encode text) ∧
      (o = .unchanged ↔ w.files.read path = .ok (Text.Utf8.encode text)) := by
  by_cases hsame : w.files.read path = .ok (Text.Utf8.encode text)
  · obtain ⟨ho, hw⟩ := writeIfChanged_same hsame w rfl
    rw [h] at ho hw
    obtain rfl := Except.ok.inj ho
    rw [show w'.files = w.files from hw]
    exact ⟨hsame, by simp [hsame]⟩
  · rw [writeIfChanged_other hsame] at h
    obtain ⟨rfl, hread⟩ := writeText_ok h
    exact ⟨hread, by simp [hsame]⟩

theorem writeIfChanged_confined (path text : String) :
    Confined (· = path) (writeIfChanged path text) := by
  intro w
  by_cases hsame : w.files.read path = .ok (Text.Utf8.encode text)
  · have hw := (writeIfChanged_same hsame w rfl).2
    rw [show ((writeIfChanged path text).run.run w).2.files = w.files from hw]
    exact .refl w.files
  · rw [writeIfChanged_other hsame]
    exact (putFile_confined.bind fun _ => (Confined.logged _).bind fun _ => .pure _) w

end Writes

section Emitted

variable {directory : String} {t u v : FileTree} {f : Code.EmittedFile}
  {x : String × WriteOutcome}

/-- What became of a rendered file: it holds its text, which is unchanged if it could be read before
and only if it was in its place before. -/
structure Emission (directory : String) (t u : FileTree) (f : Code.EmittedFile)
    (x : String × WriteOutcome) : Prop where
  path : x.1 = Path.join directory f.name
  contents : u.read x.1 = .ok (Text.Utf8.encode f.contents)
  unchanged : t.read x.1 = .ok (Text.Utf8.encode f.contents) → x.2 = .unchanged
  held : x.2 = .unchanged →
    ∃ b, t.get? (place t.home x.1) = some (.file (Text.Utf8.encode f.contents) b)

theorem held_of_read {path : String} {bytes : List UInt8} (h : t.read path = .ok bytes) :
    ∃ b, t.get? (place t.home path) = some (.file bytes b) := by
  obtain ⟨b, hf⟩ := read_ok_iff.1 h
  obtain ⟨g, hg, hget, -⟩ := lookup_ok_iff.1 hf
  exact ⟨b, by rw [← locate_place hg, hget]⟩

theorem FileTree.Touches.read {p : Location → Prop} {path : String} {bytes : List UInt8}
    (h : Touches p t u) (hp : ¬p (place t.home path)) (hr : t.read path = .ok bytes) :
    u.read path = .ok bytes := by
  obtain ⟨b, hf⟩ := read_ok_iff.1 hr
  exact read_ok_iff.2 ⟨b, h.lookup_file hp hf⟩

/-- What changes elsewhere before a file is written does not matter for it. -/
theorem Emission.before {p : Location → Prop} (h : Touches p t v) (hp : ¬p (place t.home x.1))
    (he : Emission directory v u f x) : Emission directory t u f x where
  path := he.path
  contents := he.contents
  unchanged hr := he.unchanged (h.read hp hr)
  held ho := by
    obtain ⟨b, hb⟩ := he.held ho
    rw [h.home] at hb
    exact ⟨b, (h.file_iff hp).1 hb⟩

theorem Emission.after {p : Location → Prop} (h : Touches p u v) (hp : ¬p (place u.home x.1))
    (he : Emission directory t u f x) : Emission directory t v f x where
  path := he.path
  contents := h.read hp he.contents
  unchanged := he.unchanged
  held := he.held

/-- In a directory whose path does not go back, a file is unchanged exactly if it held its text. -/
theorem Emission.unchanged_iff (ht : WellFormed t) (hn : EntryName f.name)
    (hup : ['.', '.'] ∉ Path.names directory.toList) (he : Emission directory t u f x) :
    x.2 = .unchanged ↔ t.read x.1 = .ok (Text.Utf8.encode f.contents) := by
  refine ⟨fun ho => ?_, he.unchanged⟩
  obtain ⟨_, hlookup⟩ := read_ok_iff.1 he.contents
  obtain ⟨_, hlocate, -⟩ := lookup_ok_iff.1 hlookup
  have hv := (locate_ok_iff.1 hlocate).1
  obtain ⟨b, hb⟩ := he.held ho
  rw [he.path] at hv hb ⊢
  exact ht.read_join hn hv hup hb

theorem forall₂_imp_of_mem {α β : Type} {R S : α → β → Prop} {xs : List α} {ys : List β}
    (h : List.Forall₂ R xs ys) (himp : ∀ x ∈ xs, ∀ y, R x y → S x y) : List.Forall₂ S xs ys :=
  ((List.forall₂_and_left (p := (· ∈ xs)) xs ys).2 ⟨fun _ => id, h⟩).imp
    fun x y ⟨hx, hy⟩ => himp x hx y hy

def IsEmitted (directory : String) (fs : List Code.EmittedFile) (path : String) : Prop :=
  ∃ f ∈ fs, path = Path.join directory f.name

theorem writeEmitted_confined (directory : String) (fs : List Code.EmittedFile) :
    Confined (IsEmitted directory fs) (writeEmitted directory fs) :=
  .mapM fun f hf =>
    ((writeIfChanged_confined _ _).mono fun _ hp => ⟨f, hf, hp⟩).bind fun _ => .pure _

/-- Every file of a list is written, and none is in the way of another. -/
theorem writeEmitted_ok {fs : List Code.EmittedFile} {xs : List (String × WriteOutcome)}
    {w w' : Workspace} (hname : ∀ f ∈ fs, EntryName f.name) (hn : (fs.map (·.name)).Nodup)
    (h : (writeEmitted directory fs).run.run w = (.ok xs, w')) :
    List.Forall₂ (Emission directory w.files w'.files) fs xs := by
  induction fs generalizing w xs with
  | nil =>
    obtain ⟨rfl, -⟩ := run_pure_ok_iff.1 h
    exact .nil
  | cons f r ih =>
    obtain ⟨hf, hr⟩ := List.forall_mem_cons.1 hname
    obtain ⟨hnew, hrest⟩ := List.nodup_cons.1 hn
    have hapart (home : Location) (g : Code.EmittedFile) (hg : g ∈ r) :
        place home (Path.join directory f.name) ≠ place home (Path.join directory g.name) := by
      rw [Ne, place_join_inj hf (hr g hg)]
      exact fun he => hnew (List.mem_map.2 ⟨g, hg, he.symm⟩)
    rw [writeEmitted, List.mapM_cons] at h
    obtain ⟨x, _, hx, h⟩ := run_bind_ok h
    obtain ⟨ys, _, hys, h⟩ := run_bind_ok h
    obtain ⟨rfl, rfl⟩ := run_pure_ok_iff.1 h
    obtain ⟨o, m, ho, hx⟩ := run_bind_ok hx
    obtain ⟨rfl, rfl⟩ := run_pure_ok_iff.1 hx
    -- the names differ: what is written first stays, and the rest is written as from the start
    have hfirst := (writeIfChanged_confined (Path.join directory f.name) f.contents w).touches
    have hothers := (writeEmitted_confined directory r m).touches
    rw [ho] at hfirst
    rw [writeEmitted, hys] at hothers
    obtain ⟨hread, hsame⟩ := writeIfChanged_ok ho
    have hwritten : Emission directory w.files m.files f (Path.join directory f.name, o) :=
      ⟨rfl, hread, hsame.2, fun h => held_of_read (hsame.1 h)⟩
    refine .cons (hwritten.after hothers ?_) ?_
    · rintro ⟨_, ⟨g, hg, rfl⟩, he⟩
      exact hapart _ g hg he
    · refine forall₂_imp_of_mem (ih hr hrest hys) fun g hg y hy => hy.before hfirst ?_
      rintro ⟨_, rfl, he⟩
      rw [hy.path] at he
      exact hapart _ g hg he.symm

theorem writeEmitted_again {fs : List Code.EmittedFile}
    (h : ∀ f ∈ fs, t.read (Path.join directory f.name) = .ok (Text.Utf8.encode f.contents)) :
    Gives (OnFiles t) (writeEmitted directory fs)
      (.ok (fs.map fun f => (Path.join directory f.name, .unchanged))) := by
  induction fs with
  | nil => exact .pure []
  | cons f r ih =>
    obtain ⟨hf, hr⟩ := List.forall_mem_cons.1 h
    rw [writeEmitted, List.mapM_cons]
    exact Gives.bind ((writeIfChanged_same hf).bind (.pure _)) ((ih hr).bind (.pure _))

end Emitted

end ShaderBuild
