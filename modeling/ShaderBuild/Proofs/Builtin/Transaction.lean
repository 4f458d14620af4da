import ShaderBuild.Proofs.Builtin.Publishing

namespace ShaderBuild.Builtin

open FileTree

/-- The place of a path holds the same file in both trees, or no file in either. -/
def SameFile (t u : FileTree) (path : String) : Prop :=
  ∀ bytes x, u.get? (place t.home path) = some (.file bytes x) ↔
    t.get? (place t.home path) = some (.file bytes x)

/-- A batch that is run after another, with the report of that, leaves its code alone. The only
thing in its way is a directory whose path has become longer than the system takes. -/
def LeavesAlone (compiler : Compiler) (o : Options) (r : Report) (w : Workspace) : Prop :=
  (∃ r', (run compiler o w).1 = (.done, .ok r') ∧
    r'.files = r.files.map (fun x => (x.1, .unchanged)) ∧
    ∀ path, IsGenerated o path → SameFile w.files (run compiler o w).2.files path) ∨
  ∃ xs path, w.files.walk o.input = .ok xs ∧ (path, .directory) ∈ xs ∧
    longestPath < path.utf8ByteSize ∧
    (run compiler o w).1 = (.failed, .error (.error
      (DiscoveryError.unscannable o.input path .nameTooLong))) ∧
    (run compiler o w).2.files = w.files

/-- What a run of a batch does to files. -/
structure Transactional (compiler : Compiler) (o : Options) (w : Workspace) : Prop where
  done : (run compiler o w).1.1 = .done ↔ ∃ r, (run compiler o w).1.2 = .ok r
  failed : (run compiler o w).1.1 = .failed ↔ ∃ e, (run compiler o w).1.2 = .error (.error e)
  /-- All of the code has been rendered and written. -/
  published : ∀ r, (run compiler o w).1.2 = .ok r → o.metadata → ∃ vs emitted,
    ((prepare compiler o).run.run w).1 = .ok (vs, emitted) ∧
    Published o emitted w.files (run compiler o w).2.files r.files ∧
    r.marker = some (markerPath o.output)
  /-- Where the output path does not go back, what is unchanged is what was there. -/
  exact : ∀ r, (run compiler o w).1.2 = .ok r → o.metadata →
    ['.', '.'] ∉ Path.names o.output.toList → ∀ vs emitted,
      ((prepare compiler o).run.run w).1 = .ok (vs, emitted) → List.Forall₂ (fun f x =>
        x.2 = .unchanged ↔ w.files.read x.1 = .ok (Text.Utf8.encode f.contents)) emitted r.files
  again : ∀ r, (run compiler o w).1.2 = .ok r → o.metadata → ∀ w',
    w'.files = (run compiler o w).2.files → LeavesAlone compiler o r w'
  unmarked : ∀ f, (run compiler o w).1.2 = .error f →
    SameFile w.files (run compiler o w).2.files (markerPath o.output)
  /-- What fails before code is written leaves all code as it was. -/
  unpublished : ∀ s f, ((prepare compiler o).run.run w).1 = .error (s, f) →
    (run compiler o w).1.2 = .error f ∧
      ∀ path, IsGenerated o path → SameFile w.files (run compiler o w).2.files path

section Places

variable {p : Location → Prop} {q : String → Prop} {t u : FileTree} {path : String} {o : Options}
  {jobs : List Job}

theorem SameFile.of_touches (h : Touches p t u) (hp : ¬p (place t.home path)) :
    SameFile t u path := fun _ _ => h.file_iff hp

/-- The extensions of what a batch writes. -/
theorem extension_written {home l : Location} (ha : o.apis.Nodup)
    (hj : ∀ j ∈ jobs, j.PlannedIn (bytecodeDirectory o.output))
    (h : PlaceOf (fun path => IsOutput jobs path ∨ IsGenerated o path ∨ path = markerPath o.output)
      home l) :
    extensionAt l ∈ binaryExtensions ∨ extensionAt l ∈ codeExtensions ∨
      extensionAt l = some ['u', 'p', 't', 'o', 'd', 'a', 't', 'e'] := by
  obtain ⟨path, ho | hg | rfl, rfl⟩ := h
  · exact .inl (ho.extension home hj)
  · exact .inr (.inl (hg.extension home ha))
  · exact .inr (.inr marker_extension)

theorem keepsInput (ha : o.apis.Nodup)
    (hj : ∀ j ∈ jobs, j.PlannedIn (bytecodeDirectory o.output))
    (h : Alters (fun path => IsOutput jobs path ∨ IsGenerated o path ∨ path = markerPath o.output)
      t u) : ∃ p, KeepsInput p t u := by
  refine ⟨_, h.touches, fun l hl hin => ?_⟩
  have hall : ∀ ext ∈ inputExtensions, ext ∉ binaryExtensions ∧ ext ∉ codeExtensions ∧
      ext ≠ some ['u', 'p', 't', 'o', 'd', 'a', 't', 'e'] := by decide
  obtain ⟨hbinary, hcode, hmarker⟩ := hall _ hin
  rcases extension_written ha hj hl with h | h | h
  · exact hbinary h
  · exact hcode h
  · exact hmarker h

theorem generated_apart {home : Location} (ha : o.apis.Nodup)
    (hj : ∀ j ∈ jobs, j.PlannedIn (bytecodeDirectory o.output)) (h : IsGenerated o path) :
    ¬PlaceOf (fun p => IsOutput jobs p ∨ p = markerPath o.output) home (place home path) := by
  have hall : ∀ ext ∈ codeExtensions, ext ∉ binaryExtensions := by decide
  rintro ⟨_, hout | rfl, he⟩
  · have hext := hout.extension home hj
    rw [← he] at hext
    exact hall _ (h.extension _ ha) hext
  · exact place_marker_ne ha h he

theorem marker_apart {home : Location} (ha : o.apis.Nodup)
    (hj : ∀ j ∈ jobs, j.PlannedIn (bytecodeDirectory o.output)) :
    ¬PlaceOf (fun p => IsOutput jobs p ∨ IsGenerated o p) home
      (place home (markerPath o.output)) := by
  rintro ⟨_, hout | hgen, he⟩
  · have hext := hout.extension home hj
    rw [← he, marker_extension] at hext
    revert hext
    decide
  · exact place_marker_ne ha hgen he.symm

end Places

section Runs

variable {compiler : Compiler} {o : Options} {w : Workspace} {r : Report}

/-- How a batch that generates code has come to its report. -/
structure Ran (compiler : Compiler) (o : Options) (w : Workspace) (r : Report) (jobs : List Job)
    (vs : List Variant) (emitted : List Code.EmittedFile) (w₁ w₂ : Workspace) : Prop where
  prepared : (prepare compiler o).run.run w = (.ok (vs, emitted), w₁)
  plan : Gives (OnFiles w.files) (plan o) (.ok jobs)
  planned : ∀ j ∈ jobs, j.PlannedIn (bytecodeDirectory o.output)
  compiled : Alters (IsOutput jobs) w.files w₁.files
  names : emitted.map (·.name) = generatedNames o.language o.apis
  publishes : (publish o vs emitted).run.run w₁ = (.ok r, w₂)
  files : (run compiler o w).2.files = w₂.files

theorem ran_of_ok (hc : compiler.Faithful) (hm : o.metadata)
    (h : (run compiler o w).1.2 = .ok r) :
    ∃ jobs vs emitted w₁ w₂, Ran compiler o w r jobs vs emitted w₁ w₂ := by
  cases hp : (prepare compiler o).run.run w with
  | mk result w₁ =>
    rcases result with ⟨s, f⟩ | ⟨vs, emitted⟩
    · rw [(run_of_unprepared hp).1] at h
      cases h
    · obtain ⟨jobs, hplan, halters, hnames⟩ := prepare_ok hc hp
      obtain ⟨hresult, hfiles⟩ := run_of_prepared hp
      rw [if_pos hm] at hresult hfiles
      obtain ⟨_, -, hjobs⟩ := plan_ok_iff.1 hplan
      exact ⟨jobs, vs, emitted, w₁, _, hp, hplan, (planJobs_ok hjobs).2, halters, hnames hm,
        Prod.ext (hresult.symm.trans h) rfl, hfiles⟩

variable {jobs : List Job} {vs : List Variant} {emitted : List Code.EmittedFile}
  {w₁ w₂ : Workspace} (h : Ran compiler o w r jobs vs emitted w₁ w₂)

include h

theorem Ran.generated {f : Code.EmittedFile} (hf : f ∈ emitted) :
    IsGenerated o (Path.join o.output f.name) :=
  ⟨f.name, h.names ▸ List.mem_map_of_mem hf, rfl⟩

theorem Ran.published (ha : o.apis.Nodup) : Published o emitted w.files w₂.files r.files ∧
    r.marker = some (markerPath o.output) ∧
    ∀ parent ∈ parentOf (markerPath o.output), w₂.files.isDirectory parent := by
  obtain ⟨hp, hmarker, hd⟩ := publish_ok ha h.names h.publishes
  refine ⟨⟨hp.names, ?_, hp.marker⟩, hmarker, hd⟩
  refine forall₂_imp_of_mem hp.files fun f hf x hx => hx.before h.compiled.touches ?_
  rintro ⟨path, hout, he⟩
  rw [hx.path] at he
  exact generated_apart ha h.planned (h.generated hf) ⟨path, .inl hout, he⟩

theorem Ran.writes : Alters (fun path => IsGenerated o path ∨ path = markerPath o.output)
    w₁.files w₂.files := by
  have halters := publish_confined o vs emitted w₁
  rw [h.publishes] at halters
  refine halters.mono fun path hp => hp.imp_left ?_
  rintro ⟨f, hf, rfl⟩
  exact h.generated hf

theorem Ran.alters : Alters (fun path => IsOutput jobs path ∨ IsGenerated o path ∨
    path = markerPath o.output) w.files w₂.files :=
  (h.compiled.mono fun _ => .inl).trans (h.writes.mono fun _ => .inr)

theorem Ran.readable (ha : o.apis.Nodup) {path : String}
    (hp : IsGenerated o path ∨ path = markerPath o.output) :
    ∃ bytes, w₂.files.read path = .ok bytes := by
  obtain ⟨hpub, -, -⟩ := h.published ha
  rcases hp with ⟨n, hn, rfl⟩ | rfl
  · rw [← h.names] at hn
    obtain ⟨f, hf, rfl⟩ := List.mem_map.1 hn
    obtain ⟨x, -, hx⟩ := exists_of_forall₂ hpub.files hf
    exact ⟨_, hx.path ▸ hx.contents⟩
  · exact ⟨_, hpub.marker⟩

theorem Ran.root (ha : o.apis.Nodup) : ∃ e, w₂.files.lookup o.input = .ok e := by
  obtain ⟨ms, hms, hjobs⟩ := plan_ok_iff.1 h.plan
  obtain ⟨_, hwalk, -, -⟩ := discover_walks hms
  obtain ⟨g, e, hg, he, -⟩ := walk_ok_iff.1 hwalk
  cases e with
  | directory => exact ⟨_, h.alters.touches.lookup_directory he⟩
  | file bytes b =>
    cases hroot : isManifestPath o.input with
    | true =>
      obtain ⟨p, hkeeps⟩ := keepsInput ha h.planned h.alters
      refine ⟨_, hkeeps.lookup_file ?_ he⟩
      simp [isManifestPath_iff.1 hroot, inputExtensions]
    | false =>
      obtain rfl := discover_file he hroot hms
      obtain rfl : jobs = [] := (Except.ok.inj hjobs).symm
      have hnone : ∀ path, ¬IsOutput [] path := by
        rintro path ⟨j, hj, -⟩
        cases hj
      have hwrites := ((h.compiled.mono fun _ ho => absurd ho (hnone _)).trans h.writes).touches
      by_cases hp : PlaceOf (fun path => IsGenerated o path ∨ path = markerPath o.output)
          w.files.home (place w.files.home o.input)
      · obtain ⟨path, hp, heq⟩ := hp
        obtain ⟨bytes', hread⟩ := h.readable ha hp
        obtain ⟨b', hb'⟩ := held_of_read hread
        rw [hwrites.home, ← heq, ← locate_place hg] at hb'
        obtain ⟨g', hg', hget, hd⟩ := lookup_ok_iff.1 he
        obtain rfl := Except.ok.inj (hg.symm.trans hg')
        exact ⟨_, lookup_ok_iff.2 ⟨g, hwrites.locate hg, hb', fun _ => hd (by simp)⟩⟩
      · exact ⟨_, hwrites.lookup_file hp he⟩

/-- Where all that was published is still there, a batch with the same plan leaves it alone. -/
theorem Ran.republishes (hc : compiler.Faithful) (ha : o.apis.Nodup) (hm : o.metadata)
    {w' : Workspace} (hw' : w'.files = w₂.files)
    (hplan : Gives (OnFiles w'.files) (Builtin.plan o) (.ok jobs)) :
    ∃ r', (run compiler o w').1 = (.done, .ok r') ∧
      r'.files = r.files.map (fun x => (x.1, .unchanged)) ∧
      ∀ path, IsGenerated o path → SameFile w'.files (run compiler o w').2.files path := by
  obtain ⟨hpub, -, hparents⟩ := h.published ha
  have hagain := prepare_again hc h.plan hplan
  rw [h.prepared] at hagain
  obtain ⟨v, hv⟩ : ∃ v, (prepare compiler o).run.run w' = (.ok (vs, emitted), v) :=
    ⟨((prepare compiler o).run.run w').2, Prod.ext hagain.symm rfl⟩
  obtain ⟨jobs', hplan', hcompiled, -⟩ := prepare_ok hc hv
  obtain rfl := Except.ok.inj (hplan.unique hplan' (s := w') rfl)
  rw [hw'] at hcompiled
  -- compiling again changes binaries alone, which the published files are not
  have hthere : Published o emitted w.files v.files r.files := by
    refine ⟨hpub.names, ?_, ?_⟩
    · refine forall₂_imp_of_mem hpub.files fun f hf x hx => hx.after hcompiled.touches ?_
      rintro ⟨path, hout, he⟩
      rw [hx.path] at he
      exact generated_apart ha h.planned (h.generated hf) ⟨path, .inl hout, he⟩
    · refine hcompiled.touches.read ?_ hpub.marker
      rintro ⟨path, hout, he⟩
      exact marker_apart ha h.planned ⟨path, .inl hout, he⟩
  obtain ⟨r', w₃, hpublish, hfiles, halters⟩ := publish_again vs hthere fun parent hp =>
    isDirectory_iff.2 (hcompiled.touches.lookup_directory (isDirectory_iff.1 (hparents parent hp)))
  obtain ⟨hresult, hrun⟩ := run_of_prepared hv
  rw [if_pos hm, hpublish] at hresult hrun
  refine ⟨r', Prod.ext ((run_spec compiler o w').2.2.1.2 ⟨r', hresult⟩) hresult, hfiles, ?_⟩
  intro path hp
  rw [hw', hrun]
  have hall : Alters (fun p => IsOutput jobs p ∨ p = markerPath o.output) w₂.files w₃.files :=
    (hcompiled.mono fun _ => .inl).trans (halters.mono fun _ => .inr)
  exact SameFile.of_touches hall.touches (generated_apart ha h.planned hp)

/-- A second run finds what the first has found, or a directory out of reach. -/
theorem Ran.again (hc : compiler.Faithful) (ha : o.apis.Nodup) (hm : o.metadata)
    (hw : WellFormed w.files) {w' : Workspace} (hw' : w'.files = w₂.files) :
    LeavesAlone compiler o r w' := by
  obtain ⟨ms, hms, hjobs⟩ := plan_ok_iff.1 h.plan
  obtain ⟨p, hkeeps⟩ := keepsInput ha h.planned h.alters
  rcases hkeeps.discovers hw (h.alters.wellFormed hw) (h.root ha) hms with
    hsame | ⟨xs, path, hwalk, hmem, hlong, herror⟩
  · rw [← hw'] at hsame
    exact .inl (h.republishes hc ha hm hw' (plan_ok_iff.2 ⟨ms, hsame, hjobs⟩))
  · rw [← hw'] at hwalk herror
    obtain ⟨v, hv, hsame⟩ := prepare_unplanned compiler herror.bind_error
    obtain ⟨hresult, hfiles⟩ := run_of_unprepared hv
    have hfailed := (run_spec compiler o w').2.2.2.2 ⟨_, hresult⟩
    exact .inr ⟨xs, path, hwalk, hmem, hlong, Prod.ext hfailed hresult, hfiles.trans hsame⟩

end Runs

theorem writes_of_failed {compiler : Compiler} (hc : compiler.Faithful) {o : Options}
    {w : Workspace} {f : Failure} (hf : (run compiler o w).1.2 = .error f) :
    ∃ jobs : List Job, (∀ j ∈ jobs, j.PlannedIn (bytecodeDirectory o.output)) ∧
      Alters (fun path => IsOutput jobs path ∨ IsGenerated o path) w.files
        (run compiler o w).2.files := by
  cases hp : (prepare compiler o).run.run w with
  | mk result w₁ =>
    rcases result with ⟨s, e⟩ | ⟨vs, emitted⟩
    · obtain ⟨-, hfiles⟩ := run_of_unprepared hp
      obtain ⟨jobs, hjobs, halters⟩ := prepare_error hc hp
      exact ⟨jobs, hjobs, hfiles ▸ halters.mono fun _ => .inl⟩
    · obtain ⟨hresult, hfiles⟩ := run_of_prepared hp
      obtain ⟨jobs, hplan, hcompiled, hnames⟩ := prepare_ok hc hp
      obtain ⟨_, -, hjobs⟩ := plan_ok_iff.1 hplan
      cases hm : o.metadata with
      | false =>
        rw [hm, hf] at hresult
        cases hresult
      | true =>
        rw [if_pos hm, hf] at hresult
        rw [if_pos hm] at hfiles
        have hwrites := publish_error (Prod.ext hresult.symm rfl)
        refine ⟨jobs, (planJobs_ok hjobs).2, ?_⟩
        rw [hfiles]
        refine (hcompiled.mono fun _ => .inl).trans (hwrites.mono ?_)
        rintro path ⟨g, hg, rfl⟩
        exact .inr ⟨g.name, hnames hm ▸ List.mem_map_of_mem hg, rfl⟩

/-- A batch publishes all of its code or marks nothing. -/
theorem batch_publishes_all_or_marks_nothing {compiler : Compiler} (hc : compiler.Faithful)
    {o : Options} (ha : o.apis.Nodup) {w : Workspace} (hw : WellFormed w.files) :
    Transactional compiler o w where
  done := (run_spec compiler o w).2.2.1
  failed := (run_spec compiler o w).2.2.2
  published r hr hm := by
    obtain ⟨jobs, vs, emitted, w₁, w₂, h⟩ := ran_of_ok hc hm hr
    obtain ⟨hpub, hmarker, -⟩ := h.published ha
    exact ⟨vs, emitted, by rw [h.prepared], h.files ▸ hpub, hmarker⟩
  exact r hr hm hup vs emitted hp := by
    obtain ⟨jobs, vs', emitted', w₁, w₂, h⟩ := ran_of_ok hc hm hr
    rw [h.prepared] at hp
    obtain ⟨rfl, rfl⟩ := Prod.mk.inj (Except.ok.inj hp)
    refine forall₂_imp_of_mem (h.published ha).1.files fun f hf x hx => ?_
    have hname : f.name ∈ generatedNames o.language o.apis := h.names ▸ List.mem_map_of_mem hf
    exact hx.unchanged_iff hw ((generatedNames_proper ha o.language).2 f.name hname).1 hup
  again r hr hm w' hw' := by
    obtain ⟨jobs, vs, emitted, w₁, w₂, h⟩ := ran_of_ok hc hm hr
    exact h.again hc ha hm hw (hw'.trans h.files)
  unmarked f hf := by
    obtain ⟨jobs, hjobs, halters⟩ := writes_of_failed hc hf
    exact .of_touches halters.touches (marker_apart ha hjobs)
  unpublished s f hf := by
    obtain ⟨w₁, hw₁⟩ : ∃ w₁, (prepare compiler o).run.run w = (.error (s, f), w₁) :=
      ⟨((prepare compiler o).run.run w).2, Prod.ext hf rfl⟩
    obtain ⟨hresult, hfiles⟩ := run_of_unprepared hw₁
    obtain ⟨jobs, hjobs, halters⟩ := prepare_error hc hw₁
    refine ⟨hresult, fun path hp => ?_⟩
    rw [hfiles]
    have hall : Alters (fun p => IsOutput jobs p ∨ p = markerPath o.output) w.files w₁.files :=
      halters.mono fun _ => .inl
    exact .of_touches hall.touches (generated_apart ha hjobs hp)

def storingCompiler : Compiler := fun d => ExceptT.mk fun w =>
  (.ok ⟨[7, 9], d.entryPoint, d.stage⟩,
    ((putFile d.output [7, 9] (fun parent f => (WriteError.directory parent f).toError)
      fun f => (WriteError.file d.output f).toError).run.run w).2)

theorem storingCompiler_faithful : storingCompiler.Faithful where
  steady _ := ⟨_, fun _ _ => ⟨rfl, trivial⟩⟩
  confined _ w := putFile_confined w

def quadOptions : Options :=
  { input := "in/quad.shaders", output := "", apis := [.vulkan], platform := .linux }

def quadWorkspace : Workspace where
  files :=
    { home := ["h"]
      entries := [(["h"], .directory), (["h", "in"], .directory),
        (["h", "in", "quad.hlsl"], .file [] false),
        (["h", "in", "quad.shaders"], .file
          (Text.Utf8.encode "Quad:\n  entrypoint: main\n  stage: Pixel\n") false)] }

theorem quad_is_published : storingCompiler.Faithful ∧ quadOptions.apis.Nodup ∧
    WellFormed quadWorkspace.files ∧
    (run storingCompiler quadOptions quadWorkspace).1.1 = .done ∧
    Transactional storingCompiler quadOptions quadWorkspace := by
  have ha : quadOptions.apis.Nodup := by decide
  have hw : WellFormed quadWorkspace.files := by decide +kernel
  exact ⟨storingCompiler_faithful, ha, hw, by decide +kernel,
    batch_publishes_all_or_marks_nothing storingCompiler_faithful ha hw⟩

section Slashed

def slashed : Nat → String
  | 0 => "."
  | n + 1 => (slashed n).push Path.separator

theorem slashed_toList (n : Nat) :
    (slashed n).toList = '.' :: List.replicate n Path.separator := by
  induction n with
  | zero => rfl
  | succ n ih => rw [slashed, String.toList_push, ih, List.replicate_succ', List.cons_append]

theorem slashed_size (n : Nat) : (slashed n).utf8ByteSize = n + 1 := by
  induction n with
  | zero => rfl
  | succ n ih =>
    rw [slashed, String.utf8ByteSize_push, ih]
    rfl

theorem slashed_names (n : Nat) : Path.names (slashed n).toList = [['.']] := by
  induction n with
  | zero => decide
  | succ n ih => rw [slashed, String.toList_push, Path.names_append_sep, ih]

theorem slashed_leads {t : FileTree} (h : t.get? t.home = some .directory) (n : Nat) :
    Leads t (slashed n) t.home := by
  have hrelative : Path.isAbsolute (slashed n) = false := by
    rw [Path.isAbsolute, slashed_toList]
    rfl
  have hstep : t.step t.home ['.'] = .ok t.home := step_ok_iff.2 ⟨h, .inl rfl, rfl⟩
  exact ⟨by simp [slashed_toList], by simp [slashed_toList, Path.separator],
    by simpa [slashed_names, origin, hrelative] using hstep⟩

theorem join_slashed_size (n : Nat) {m : String} (hm : EntryName m) :
    (Path.join (slashed (n + 1)) m).utf8ByteSize = n + 2 + m.utf8ByteSize := by
  have hlast : (slashed (n + 1)).toList.getLast? = some Path.separator := by
    rw [slashed, String.toList_push, List.getLast?_concat]
  have happend : Path.join (slashed (n + 1)) m = slashed (n + 1) ++ m := by
    refine String.toList_inj.1 ?_
    rw [Path.join, String.toList_ofList, Path.joinChars, Path.isAbsoluteChars_plain hm.plain]
    simp [hlast]
  rw [happend, String.utf8ByteSize_append, slashed_size]

end Slashed

section Detour

/-- A batch without shaders whose code goes to its home over a directory that is yet to be made. -/
def detour (n : Nat) : Options :=
  { input := slashed n, output := "x/..", apis := [], platform := .linux }

def bareWorkspace : Workspace where
  files := { home := ["h"], entries := [(["h"], .directory)] }

def detourTypes : String :=
  (((prepare storingCompiler (detour 0)).run.run bareWorkspace).1.toOption.bind
    fun x => x.2.head?).elim "" (·.contents)

def detourWorkspace : Workspace where
  files :=
    { home := ["h"]
      entries := [(["h"], .directory),
        (["h", "BuiltinShaderTypes.h"], .file (Text.Utf8.encode detourTypes) false)] }

theorem detour_walk {n : Nat} (hn : n < longestPath) :
    detourWorkspace.files.lookup (slashed n) = .ok .directory ∧
      detourWorkspace.files.walk (slashed n) = .ok [(slashed n, .directory),
        (Path.join (slashed n) "BuiltinShaderTypes.h",
          .file (Text.Utf8.encode detourTypes) false)] := by
  have hlead := slashed_leads (t := detourWorkspace.files) (by decide) n
  have hlook := hlead.lookup (by rwa [slashed_size]) (by decide)
  obtain ⟨g, hg, -⟩ := lookup_ok_iff.1 hlook
  refine ⟨hlook, walk_ok_iff.2 ⟨g, _, hg, hlook, ?_⟩⟩
  have htypes : detourWorkspace.files.get? ["h", "BuiltinShaderTypes.h"] =
      some (.file (Text.Utf8.encode detourTypes) false) := rfl
  have hhome : detourWorkspace.files.get? ["h"] = some .directory := rfl
  have hnames : detourWorkspace.files.children ["h"] = ["BuiltinShaderTypes.h"] := by
    simp [children, detourWorkspace]
  rw [hlead.location hg]
  show _ = detourWorkspace.files.walkFrom 3 (slashed n) ["h"]
  rw [walkFrom, hhome]
  simp [hnames, walkFrom, htypes]

theorem detour_discover {n : Nat} (hn : n < longestPath) :
    (discover (slashed n)).run.run detourWorkspace = (.ok [], detourWorkspace) := by
  obtain ⟨hlook, hwalk⟩ := detour_walk hn
  have hhome : (visit (slashed n) (slashed n) .directory).run.run detourWorkspace =
      (.ok none, detourWorkspace) := by
    rw [visit, run_bind, consult_run hlook]
    rfl
  have htypes : visit (slashed n) (Path.join (slashed n) "BuiltinShaderTypes.h")
      (.file (Text.Utf8.encode detourTypes) false) = pure none := by
    refine if_neg ?_
    rw [isManifestPath_iff, extensionChars?_join (by decide)]
    decide
  rw [discover_eq, run_bind, consult_run hwalk]
  dsimp only
  simp only [manifestsOf, List.filterMapM, List.filterMapM.loop, run_bind, hhome, htypes]
  rfl

/-- The slashes do not matter for a first run, which need not be evaluated with all of them. -/
theorem detour_plan {n : Nat} (hn : n < longestPath) :
    (plan (detour n)).run.run detourWorkspace = (plan (detour 0)).run.run detourWorkspace := by
  rw [plan, plan, run_bind, run_bind]
  dsimp only [detour]
  rw [detour_discover hn, detour_discover (by decide)]

theorem detour_run {n : Nat} (hn : n < longestPath) :
    run storingCompiler (detour n) detourWorkspace =
      run storingCompiler (detour 0) detourWorkspace := by
  have hsteps : (steps storingCompiler (detour n)).run.run detourWorkspace =
      (steps storingCompiler (detour 0)).run.run detourWorkspace := by
    rw [steps, steps, run_bind, run_bind, during_run, during_run, detour_plan hn]
    rfl
  rw [run, run, hsteps]

theorem detour_ok : ∃ r, (run storingCompiler (detour 0) detourWorkspace).1 = (.done, .ok r) ∧
    r.files.head? = some ("x/../BuiltinShaderTypes.h", .written) := by
  have hrun : (run storingCompiler (detour 0) detourWorkspace).1.2.toOption.any fun r =>
      r.files.head? = some ("x/../BuiltinShaderTypes.h", .written) := by decide +kernel
  obtain ⟨r, hr, hfirst⟩ := exists_of_toOption_any hrun
  exact ⟨r, Prod.ext ((run_spec ..).2.2.1.2 ⟨r, hr⟩) hr, of_decide_eq_true hfirst⟩

theorem detour_prepare {n : Nat} (hn : n < longestPath) :
    ((prepare storingCompiler (detour n)).run.run detourWorkspace).1 =
      ((prepare storingCompiler (detour 0)).run.run bareWorkspace).1 := by
  have hplan : ∀ w ∈ [detourWorkspace, bareWorkspace],
      ((plan (detour 0)).run.run w).1.toOption = some [] := by decide +kernel
  have hgives (w : Workspace) (hw : w ∈ [detourWorkspace, bareWorkspace]) :
      Gives (OnFiles w.files) (plan (detour 0)) (.ok []) := by
    have hrun := (plan_steady (detour 0)).gives (show OnFiles w.files w from rfl)
    rwa [ok_of_toOption (hplan w hw)] at hrun
  have hprepare : (prepare storingCompiler (detour n)).run.run detourWorkspace =
      (prepare storingCompiler (detour 0)).run.run detourWorkspace := by
    rw [prepare, prepare, run_bind, run_bind, during_run, during_run, detour_plan hn]
    rfl
  rw [hprepare]
  exact prepare_again storingCompiler_faithful (hgives _ (by simp)) (hgives _ (by simp))

variable {n : Nat} {r : Report} {jobs : List Job} {vs : List Variant}
  {emitted : List Code.EmittedFile} {w₁ w₂ : Workspace}

theorem detour_types (hn : n < longestPath)
    (h : Ran storingCompiler (detour n) detourWorkspace r jobs vs emitted w₁ w₂) :
    ∃ o, r.files.head? = some ("x/../BuiltinShaderTypes.h", o) ∧
      w₂.files.read "x/../BuiltinShaderTypes.h" = .ok (Text.Utf8.encode detourTypes) := by
  have hfiles := (h.published .nil).1.files
  have hfirst : (generatedNames .cpp []).head? = some "BuiltinShaderTypes.h" := by decide
  have hnames : emitted.map (·.name) = generatedNames .cpp [] := h.names
  have hprepare := detour_prepare hn
  rw [h.prepared] at hprepare
  rw [← hnames] at hfirst
  generalize r.files = files at hfiles ⊢
  cases hfiles with
  | nil => cases hfirst
  | @cons f x _ _ hx _ =>
    have hname : f.name = "BuiltinShaderTypes.h" := Option.some.inj hfirst
    have htypes : detourTypes = f.contents := by
      rw [detourTypes, ← hprepare]
      rfl
    have hpath : x.1 = "x/../BuiltinShaderTypes.h" := by
      rw [hx.path, hname]
      show Path.join "x/.." "BuiltinShaderTypes.h" = _
      decide
    rw [← hpath, htypes]
    exact ⟨x.2, rfl, hx.contents⟩

theorem detour_makes (h : Ran storingCompiler (detour n) detourWorkspace r jobs vs emitted w₁ w₂) :
    w₂.files.home = ["h"] ∧ w₂.files.get? ["h"] = some .directory ∧
      w₂.files.get? ["h", "x"] = some .directory := by
  have htouch := h.alters.touches
  obtain ⟨-, -, hparents⟩ := h.published .nil
  have hparent : parentOf (markerPath "x/..") = some "x/.." := by decide +kernel
  obtain ⟨_, hlocate, -⟩ := lookup_ok_iff.1 (isDirectory_iff.1 (hparents _ hparent))
  have hnames : Path.names "x/..".toList = [['x'], ['.', '.']] := by decide
  have hrelative : Path.isAbsolute "x/.." = false := by decide
  obtain ⟨-, hsteps, -⟩ := locate_ok_iff.1 hlocate
  rw [hnames, origin, hrelative, htouch.home, List.foldlM_cons, bind_ok_iff] at hsteps
  obtain ⟨l, hl, hsteps⟩ := hsteps
  rw [List.foldlM_cons, bind_ok_iff] at hsteps
  obtain ⟨m, hm, -⟩ := hsteps
  obtain ⟨-, -, rfl⟩ := step_ok_iff.1 hl
  exact ⟨htouch.home, htouch.directory rfl, (step_ok_iff.1 hm).1⟩

theorem detour_again (hlong : longestPath < n + 2)
    (h : Ran storingCompiler (detour n) detourWorkspace r jobs vs emitted w₁ w₂)
    (r' : Report) {w : Workspace} (hw : w.files = w₂.files) :
    (run storingCompiler (detour n) w).1.2 ≠ .ok r' := by
  intro hr
  obtain ⟨n, rfl⟩ := Nat.exists_eq_add_one.2 (show 0 < n by simp [longestPath] at hlong; omega)
  obtain ⟨hhome, hd, hx⟩ := detour_makes h
  rw [← hw] at hhome hd hx
  obtain ⟨_, _, _, _, _, h⟩ := ran_of_ok storingCompiler_faithful rfl hr
  obtain ⟨ms, hms, -⟩ := plan_ok_iff.1 h.plan
  obtain ⟨xs, hwalk, -, -⟩ := discover_walks hms
  obtain ⟨g, _, hg, -, hxs⟩ := walk_ok_iff.1 hwalk
  have hlead := slashed_leads (by rwa [hhome]) (n + 1)
  have hmem : (Path.join (slashed (n + 1)) "x", .directory) ∈ xs := by
    rw [hxs, hlead.location hg, hhome]
    exact mem_walkFrom_child hd hx
  obtain ⟨e, he⟩ := lookup_of_discover hms hwalk hmem
  have hname : EntryName "x" := by decide
  rw [(hlead.join (by rwa [hhome]) hname).lookup_long] at he
  · cases he
  · rw [join_slashed_size n hname]
    exact hlong

theorem detour_runs (hn : n < longestPath) (hlong : longestPath < n + 2) :
    ∃ r, (run storingCompiler (detour n) detourWorkspace).1 = (.done, .ok r) ∧
      r.files.head? = some ("x/../BuiltinShaderTypes.h", .written) ∧
      (run storingCompiler (detour n) detourWorkspace).2.files.read "x/../BuiltinShaderTypes.h" =
        .ok (Text.Utf8.encode detourTypes) ∧
      ∀ r', (run storingCompiler (detour n)
        (run storingCompiler (detour n) detourWorkspace).2).1.2 ≠ .ok r' := by
  obtain ⟨r, hr, hfirst⟩ := detour_ok
  rw [← detour_run hn] at hr
  obtain ⟨_, _, _, _, w₂, h⟩ := ran_of_ok storingCompiler_faithful rfl (congrArg Prod.snd hr)
  obtain ⟨_, -, hread⟩ := detour_types hn h
  exact ⟨r, hr, hfirst, h.files ▸ hread, fun r' => detour_again hlong h r' h.files⟩

end Detour

/-- A file in its place is written again where its path leads over a directory that is yet to be
made, and that directory can be out of reach for the next run. -/
theorem detour_is_not_unchanged : ∃ r, storingCompiler.Faithful ∧ (detour 4094).apis.Nodup ∧
    WellFormed detourWorkspace.files ∧
    (run storingCompiler (detour 4094) detourWorkspace).1 = (.done, .ok r) ∧
    r.files.head? = some ("x/../BuiltinShaderTypes.h", .written) ∧
    (run storingCompiler (detour 4094) detourWorkspace).2.files.read "x/../BuiltinShaderTypes.h" =
      .ok (Text.Utf8.encode detourTypes) ∧
    detourWorkspace.files.get? (place ["h"] "x/../BuiltinShaderTypes.h") =
      some (.file (Text.Utf8.encode detourTypes) false) ∧
    ∀ r', (run storingCompiler (detour 4094)
      (run storingCompiler (detour 4094) detourWorkspace).2).1.2 ≠ .ok r' := by
  have hn : 4094 < longestPath ∧ longestPath < 4094 + 2 := by decide
  obtain ⟨r, hr, hfirst, hread, hagain⟩ := detour_runs hn.1 hn.2
  exact ⟨r, storingCompiler_faithful, .nil, by decide +kernel, hr, hfirst, hread, rfl, hagain⟩

end ShaderBuild.Builtin
