import ShaderBuild.Proofs.Builtin.GeneratedNames
import ShaderBuild.Proofs.Builtin.Rediscovery

namespace ShaderBuild.Builtin

open FileTree

section Prepare

variable {compiler : Compiler} {o : Options} {w w' : Workspace} {vs : List Variant}
  {emitted : List Code.EmittedFile}

theorem plan_planned {jobs : List Job} (h : ((plan o).run.run w).1 = .ok jobs) :
    ∀ j ∈ jobs, j.PlannedIn (bytecodeDirectory o.output) := by
  have hplan : Gives (OnFiles w.files) (plan o) (.ok jobs) := h ▸ (plan_steady o).gives rfl
  obtain ⟨_, -, hjobs⟩ := plan_ok_iff.1 hplan
  exact (planJobs_ok hjobs).2

theorem carryOut_steady (hc : compiler.Faithful) (jobs : List Job) :
    Steady (Over fun _ => True) (carryOut compiler o jobs) := by
  have hrender (vs : List Variant) : Steady (Over fun _ => True) (rendered o vs) :=
    .ite (during_steady .generating (render_steady o vs)) (.pure [])
  exact (during_steady .compiling (compileJobs_steady hc jobs)).bind fun vs =>
    (hrender vs).bind fun _ => .pure _

theorem carryOut_confined (hc : compiler.Faithful) (jobs : List Job) :
    Confined (IsOutput jobs) (carryOut compiler o jobs) := by
  have hrender (vs : List Variant) : Confined (IsOutput jobs) (rendered o vs) := by
    unfold rendered
    split
    · exact during_confined .generating (.of_steady fun t => render_steady o vs)
    · exact .pure []
  exact (during_confined .compiling (compileJobs_confined hc jobs)).bind fun vs =>
    (hrender vs).bind fun _ => .pure _

theorem ofLogged_ok {α : Type} {x : Logged α} {a : α}
    (h : (Build.ofLogged x).run.run w = (.ok a, w')) : (x.run.run w.journal).1 = .ok a := by
  have hresult : ((x.run.run w.journal).1).mapError Failure.error = .ok a := congrArg Prod.fst h
  revert hresult
  rcases (x.run.run w.journal).1 with _ | b
  · rintro ⟨⟩
  · exact fun h => congrArg Except.ok (Except.ok.inj h)

theorem render_names (h : (render o vs).run.run w = (.ok emitted, w')) :
    emitted.map (·.name) = generatedNames o.language o.apis := by
  obtain ⟨fs, u, hfs, h⟩ := run_bind_ok h
  have hemitted : o.language.emitAll fs = .ok emitted :=
    Returns.attempt ⟨u.journal, ofLogged_ok h⟩
  rw [emitAll_names hemitted, batchFiles_titles ⟨w.journal, ofLogged_ok hfs⟩, generatedNames]

/-- What a preparation went through. -/
theorem prepare_ok (hc : compiler.Faithful)
    (h : (prepare compiler o).run.run w = (.ok (vs, emitted), w')) :
    ∃ jobs, Gives (OnFiles w.files) (plan o) (.ok jobs) ∧ Alters (IsOutput jobs) w.files w'.files ∧
      (o.metadata → emitted.map (·.name) = generatedNames o.language o.apis) := by
  obtain ⟨jobs, u, hjobs, h⟩ := run_bind_ok h
  have hplan := (plan_steady o).gives (p := OnFiles w.files) rfl
  have hsame := (hplan w rfl).2
  rw [during_ok.1 hjobs] at hplan hsame
  have halters := carryOut_confined (o := o) hc jobs u
  rw [h, show u.files = w.files from hsame] at halters
  refine ⟨jobs, hplan, halters, fun hm => ?_⟩
  obtain ⟨_, u', -, h⟩ := run_bind_ok h
  obtain ⟨_, u'', hrender, h⟩ := run_bind_ok h
  obtain ⟨hpair, -⟩ := run_pure_ok_iff.1 h
  obtain ⟨rfl, rfl⟩ := Prod.mk.inj hpair
  rw [rendered, if_pos hm] at hrender
  exact render_names (during_ok.1 hrender)

theorem prepare_error (hc : compiler.Faithful) {e : BatchState × Failure}
    (h : (prepare compiler o).run.run w = (.error e, w')) :
    ∃ jobs : List Job, (∀ j ∈ jobs, j.PlannedIn (bytecodeDirectory o.output)) ∧
      Alters (IsOutput jobs) w.files w'.files := by
  have hplan := (plan_steady o).gives (p := OnFiles w.files) rfl
  have hsame := (hplan w rfl).2
  rw [prepare, run_bind, during_run] at h
  revert h hplan hsame
  rcases hrun : (plan o).run.run w with ⟨_ | jobs, u⟩
  · rintro ⟨⟩ - hsame
    refine ⟨[], by simp, ?_⟩
    rw [show u.files = w.files from hsame]
    exact .refl _
  · intro h hplan hsame
    have halters := carryOut_confined (o := o) hc jobs u
    change (carryOut compiler o jobs).run.run u = _ at h
    rw [h, show u.files = w.files from hsame] at halters
    exact ⟨jobs, plan_planned (by rw [hrun]), halters⟩

theorem prepare_unplanned (compiler : Compiler) {f : Failure}
    (h : Gives (OnFiles w.files) (plan o) (.error f)) :
    ∃ v, (prepare compiler o).run.run w = (.error (.discovering, f), v) ∧ v.files = w.files := by
  obtain ⟨hresult, hfiles⟩ := h w rfl
  obtain ⟨v, hv⟩ : ∃ v, (plan o).run.run w = (.error f, v) :=
    ⟨((plan o).run.run w).2, Prod.ext hresult rfl⟩
  rw [hv] at hfiles
  rw [prepare, run_bind, during_run, hv]
  exact ⟨v, rfl, hfiles⟩

theorem prepare_again (hc : compiler.Faithful) {jobs : List Job}
    (h : Gives (OnFiles w.files) (plan o) (.ok jobs))
    (h' : Gives (OnFiles w'.files) (plan o) (.ok jobs)) :
    ((prepare compiler o).run.run w).1 = ((prepare compiler o).run.run w').1 := by
  obtain ⟨r, hr⟩ := carryOut_steady (o := o) hc jobs
  have hgives {v : Workspace} (hv : Gives (OnFiles v.files) (plan o) (.ok jobs)) :
      ((prepare compiler o).run.run v).1 = r := by
    have hplan : (plan o).run.run v = (.ok jobs, ((plan o).run.run v).2) :=
      Prod.ext (hv v rfl).1 rfl
    rw [prepare, run_bind, during_ok.2 hplan]
    exact (hr _ trivial).1
  rw [hgives h, hgives h']

end Prepare

section Publish

variable {o : Options} {w w' : Workspace} {vs : List Variant} {emitted : List Code.EmittedFile}
  {r : Report}

theorem touchMarker_eq (path : String) : touchMarker path = putFile path []
    (fun parent f => (WriteError.directory parent f).toError)
    (fun f => (WriteError.marker path f).toError) := rfl

theorem place_marker_ne {home : Location} {path : String} (ha : o.apis.Nodup)
    (h : IsGenerated o path) : place home path ≠ place home (markerPath o.output) := by
  intro he
  have hext := h.extension home ha
  rw [he, marker_extension] at hext
  revert hext
  decide

/-- All that a batch writes has been written. -/
structure Published (o : Options) (emitted : List Code.EmittedFile) (t u : FileTree)
    (files : List (String × WriteOutcome)) : Prop where
  names : emitted.map (·.name) = generatedNames o.language o.apis
  files : List.Forall₂ (Emission o.output t u) emitted files
  marker : u.read (markerPath o.output) = .ok []

theorem publish_ok (ha : o.apis.Nodup)
    (hn : emitted.map (·.name) = generatedNames o.language o.apis)
    (h : (publish o vs emitted).run.run w = (.ok r, w')) :
    Published o emitted w.files w'.files r.files ∧ r.marker = some (markerPath o.output) ∧
      ∀ parent ∈ parentOf (markerPath o.output), w'.files.isDirectory parent := by
  obtain ⟨files, u, hfiles, h⟩ := run_bind_ok h
  obtain ⟨_, v, hmarker, h⟩ := run_bind_ok h
  obtain ⟨_, v', hnote, h⟩ := run_bind_ok h
  obtain ⟨rfl, rfl⟩ := run_pure_ok_iff.1 h
  obtain rfl : _ = v' := congrArg Prod.snd hnote
  obtain ⟨hnodup, hproper⟩ := generatedNames_proper ha o.language
  have hname (f : Code.EmittedFile) (hf : f ∈ emitted) :
      f.name ∈ generatedNames o.language o.apis := hn ▸ List.mem_map_of_mem hf
  have hwritten := writeEmitted_ok (fun f hf => (hproper f.name (hname f hf)).1) (hn ▸ hnodup)
    hfiles
  rw [touchMarker_eq] at hmarker
  obtain ⟨halters, hread, hparent⟩ := putFile_ok hmarker
  refine ⟨⟨hn, ?_, hread⟩, rfl, hparent⟩
  refine forall₂_imp_of_mem hwritten fun f hf x hx => hx.after halters.touches ?_
  rintro ⟨_, rfl, he⟩
  exact place_marker_ne ha ⟨f.name, hname f hf, hx.path⟩ he

theorem publish_confined (o : Options) (vs : List Variant) (emitted : List Code.EmittedFile) :
    Confined (fun path => IsEmitted o.output emitted path ∨ path = markerPath o.output)
      (publish o vs emitted) := by
  have hmarker : Confined (fun path => IsEmitted o.output emitted path ∨
      path = markerPath o.output) (touchMarker (markerPath o.output)) :=
    putFile_confined.mono fun _ => .inr
  have hwrites : Confined (fun path => IsEmitted o.output emitted path ∨
      path = markerPath o.output) (writeEmitted o.output emitted) :=
    (writeEmitted_confined o.output emitted).mono fun _ => .inl
  exact hwrites.bind fun _ => hmarker.bind fun _ => (Confined.logged _).bind fun _ => .pure _

/-- Where publishing fails, it fails before the marker is written. -/
theorem publish_error {f : Failure} (h : (publish o vs emitted).run.run w = (.error f, w')) :
    Alters (IsEmitted o.output emitted) w.files w'.files := by
  have hwrites := writeEmitted_confined o.output emitted w
  rw [publish, run_bind] at h
  revert h hwrites
  rcases (writeEmitted o.output emitted).run.run w with ⟨_ | files, u⟩
  · rintro ⟨⟩ hwrites
    exact hwrites
  · intro h hwrites
    dsimp only at h
    rw [run_bind, touchMarker_eq] at h
    cases hmarker : (putFile (markerPath o.output) []
        (fun parent f => (WriteError.directory parent f).toError)
        (fun f => (WriteError.marker (markerPath o.output) f).toError)).run.run u with
    | mk result v =>
      rw [hmarker] at h
      cases result with
      | error e =>
        obtain rfl : v = w' := congrArg Prod.snd h
        exact hwrites.trans ((putFile_error hmarker).mono fun _ => False.elim)
      | ok _ => cases h

theorem publish_run (vs : List Variant) {files : List (String × WriteOutcome)} {u : Workspace}
    (hwrite : (writeEmitted o.output emitted).run.run w = (.ok files, u))
    (hmark : (touchMarker (markerPath o.output)).run.run u = (.ok (), w')) :
    ∃ v, (publish o vs emitted).run.run w = (.ok ⟨vs, files, some (markerPath o.output)⟩, v) ∧
      v.files = w'.files := by
  rw [publish, run_bind, hwrite]
  dsimp only
  rw [run_bind, hmark]
  exact ⟨_, rfl, rfl⟩

/-- What is there already is not written again, except for the marker. -/
theorem publish_again (vs : List Variant) {files : List (String × WriteOutcome)} {t : FileTree}
    (hp : Published o emitted t w.files files)
    (hd : ∀ parent ∈ parentOf (markerPath o.output), w.files.isDirectory parent) :
    ∃ r' w', (publish o vs emitted).run.run w = (.ok r', w') ∧
      r'.files = files.map (fun x => (x.1, .unchanged)) ∧
      Alters (· = markerPath o.output) w.files w'.files := by
  have hread : ∀ f ∈ emitted, w.files.read (Path.join o.output f.name) =
      .ok (Text.Utf8.encode f.contents) := by
    intro f hf
    obtain ⟨x, -, hx⟩ := exists_of_forall₂ hp.files hf
    rw [← hx.path]
    exact hx.contents
  have hpaths : emitted.map (fun f => (Path.join o.output f.name, WriteOutcome.unchanged)) =
      files.map fun x => (x.1, .unchanged) :=
    (map_eq_of_forall₂ (hp.files.imp fun f x hx => by rw [hx.path])).symm
  obtain ⟨hwrites, hfiles⟩ := writeEmitted_again hread w rfl
  rw [hpaths] at hwrites
  obtain ⟨u, hu⟩ : ∃ u, (writeEmitted o.output emitted).run.run w =
      (.ok (files.map fun x => (x.1, .unchanged)), u) := ⟨_, Prod.ext hwrites rfl⟩
  rw [hu] at hfiles
  have hsame : u.files = w.files := hfiles
  obtain ⟨v, hv⟩ : ∃ v, (touchMarker (markerPath o.output)).run.run u = (.ok (), v) :=
    putFile_again (hsame ▸ hp.marker) (hsame ▸ hd)
  have halters := (putFile_ok hv).1
  rw [hsame] at halters
  obtain ⟨w', hw', heq⟩ := publish_run vs hu hv
  exact ⟨_, w', hw', rfl, heq ▸ halters⟩

end Publish

section Run

variable {compiler : Compiler} {o : Options} {w w' : Workspace} {r : Report}

/-- A batch that fails has not said that it is done, nor that it failed. -/
def Unfinished {α : Type} (x : Batch α) : Prop :=
  ∀ w s f, (x.run.run w).1 = .error (s, f) → s ≠ .done ∧ s ≠ .failed

theorem Unfinished.pure {α : Type} (a : α) : Unfinished (Pure.pure a : Batch α) := by
  rintro w s f ⟨⟩

theorem Unfinished.during {α : Type} {state : BatchState} (x : Build α)
    (hs : state ≠ .done ∧ state ≠ .failed) : Unfinished (Batch.during state x) := by
  intro w s f h
  rw [during_run] at h
  revert h
  rcases x.run.run w with ⟨_ | _, _⟩
  · rintro ⟨⟩
    exact hs
  · rintro ⟨⟩

theorem Unfinished.bind {α β : Type} {x : Batch α} {f : α → Batch β} (hx : Unfinished x)
    (hf : ∀ a, Unfinished (f a)) : Unfinished (x >>= f) := by
  intro w s e h
  have hfirst := hx w
  rw [run_bind] at h
  revert h hfirst
  rcases x.run.run w with ⟨_ | a, w'⟩
  · rintro ⟨⟩ hfirst
    exact hfirst _ _ rfl
  · exact fun h _ => hf a w' s e h

theorem steps_unfinished (compiler : Compiler) (o : Options) :
    Unfinished (steps compiler o) := by
  unfold steps
  refine (Unfinished.during _ (by decide)).bind fun _ =>
    (Unfinished.during _ (by decide)).bind fun _ => ?_
  split
  · exact .during _ (by decide)
  · exact .pure _

/-- The result of a batch, its files and its state are those of its steps. -/
theorem run_spec (compiler : Compiler) (o : Options) (w : Workspace) :
    (run compiler o w).1.2 = ((steps compiler o).run.run w).1.mapError (·.2) ∧
      (run compiler o w).2.files = ((steps compiler o).run.run w).2.files ∧
      ((run compiler o w).1.1 = .done ↔ ∃ r, (run compiler o w).1.2 = .ok r) ∧
      ((run compiler o w).1.1 = .failed ↔ ∃ e, (run compiler o w).1.2 = .error (.error e)) := by
  have hstate := steps_unfinished compiler o w
  unfold run
  revert hstate
  rcases (steps compiler o).run.run w with ⟨⟨s, _ | _⟩ | r, w'⟩
  · intro
    simp [Except.mapError]
  · intro hstate
    obtain ⟨hd, hf⟩ := hstate s _ rfl
    simp [Except.mapError, hd, hf]
  · intro
    simp [Except.mapError]

/-- What fails before code is written fails the batch. -/
theorem run_of_unprepared {s : BatchState} {f : Failure}
    (h : (prepare compiler o).run.run w = (.error (s, f), w')) :
    (run compiler o w).1.2 = .error f ∧ (run compiler o w).2.files = w'.files := by
  obtain ⟨hresult, hfiles, -⟩ := run_spec compiler o w
  rw [hresult, hfiles, steps_eq, run_bind, h]
  exact ⟨rfl, rfl⟩

theorem run_of_prepared {vs : List Variant} {emitted : List Code.EmittedFile}
    (h : (prepare compiler o).run.run w = (.ok (vs, emitted), w')) :
    (run compiler o w).1.2 = (if o.metadata then ((publish o vs emitted).run.run w').1
      else .ok { variants := vs }) ∧
    (run compiler o w).2.files = if o.metadata then ((publish o vs emitted).run.run w').2.files
      else w'.files := by
  obtain ⟨hresult, hfiles, -⟩ := run_spec compiler o w
  rw [hresult, hfiles, steps_eq, run_bind, h]
  cases o.metadata with
  | false => exact ⟨rfl, rfl⟩
  | true =>
    dsimp only
    rw [if_pos rfl, if_pos rfl, if_pos rfl, during_run]
    rcases (publish o vs emitted).run.run w' with ⟨_ | _, _⟩ <;> exact ⟨rfl, rfl⟩

end Run

end ShaderBuild.Builtin
