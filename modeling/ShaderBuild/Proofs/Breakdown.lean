import ShaderBuild.Builtin.Batch
import ShaderBuild.Compile.Compilation
import ShaderBuild.Proofs.Output

namespace ShaderBuild

section Fails

variable {ε α β : Type} {q r : ε → Workspace → Prop}

/-- Whatever a computation fails with, it leaves behind a workspace that goes with it. -/
def Fails (q : ε → Workspace → Prop) (x : ExceptT ε (StateM Workspace) α) : Prop :=
  ∀ w e w', x.run.run w = (.error e, w') → q e w'

theorem Fails.mono {x : ExceptT ε (StateM Workspace) α} (h : Fails q x)
    (hqr : ∀ e w, q e w → r e w) : Fails r x :=
  fun w e w' hx => hqr e w' (h w e w' hx)

theorem Fails.pure (a : α) : Fails q (Pure.pure a : ExceptT ε (StateM Workspace) α) := by
  intro w e w' h
  cases h

theorem Fails.bind {x : ExceptT ε (StateM Workspace) α} {f : α → ExceptT ε (StateM Workspace) β}
    (hx : Fails q x) (hf : ∀ a, Fails q (f a)) : Fails q (x >>= f) := by
  intro w e w' h
  cases of_run_bind_error h with
  | inl h => exact hx w e w' h
  | inr h =>
    obtain ⟨a, u, -, h⟩ := h
    exact hf a u e w' h

theorem Fails.map {x : ExceptT ε (StateM Workspace) α} (hx : Fails q x) (f : α → β) :
    Fails q (f <$> x) := by
  rw [map_eq_pure_bind]
  exact hx.bind fun _ => .pure _

theorem Fails.mapM {f : α → ExceptT ε (StateM Workspace) β} (hf : ∀ a, Fails q (f a))
    (xs : List α) : Fails q (xs.mapM f) := by
  induction xs with
  | nil => exact .pure []
  | cons x r ih =>
    rw [List.mapM_cons]
    exact (hf x).bind fun _ => ih.bind fun _ => .pure _

theorem Fails.filterMapM {f : α → ExceptT ε (StateM Workspace) (Option β)}
    (hf : ∀ a, Fails q (f a)) (xs : List α) : Fails q (xs.filterMapM f) := by
  induction xs with
  | nil => exact .pure []
  | cons x r ih =>
    rw [List.filterMapM_cons]
    apply (hf x).bind
    intro o
    cases o with
    | none => exact ih
    | some b => exact ih.bind fun _ => .pure _

theorem Fails.ite_bind {c : Prop} [Decidable c] {x : ExceptT ε (StateM Workspace) PUnit}
    {f : PUnit → ExceptT ε (StateM Workspace) α} (hx : Fails q x) (hf : Fails q (f ⟨⟩)) :
    Fails q (if c then x >>= f else f ⟨⟩) := by
  by_cases hc : c
  · rw [if_pos hc]
    exact hx.bind fun _ => hf
  · rw [if_neg hc]
    exact hf

theorem Fails.modify (f : Workspace → Workspace) :
    Fails q (modifyThe Workspace f : ExceptT ε (StateM Workspace) PUnit) := by
  intro w e w' h
  cases h

/-- What takes up a failure begins where the failure has left off. -/
theorem Fails.recover {x : ExceptT ε (StateM Workspace) α}
    {k : ε → ExceptT ε (StateM Workspace) α} (hx : Fails q x)
    (hk : ∀ e u, q e u → ∀ e' w', (k e).run.run u = (.error e', w') → r e' w') :
    Fails r (tryCatch x k) := by
  intro w e' w' h
  rw [run_tryCatch] at h
  cases hr : x.run.run w with
  | mk result u =>
    rw [hr] at h
    cases result with
    | ok a => cases h
    | error e => exact hk e u (hx w e u hr) e' w' h

end Fails

abbrev Calm {α : Type} (x : Build α) : Prop := Fails (fun e _ => ∀ message, e ≠ .breakdown message) x

def BreaksDown {α : Type} (x : Build α) (w : Workspace) (message : String) : Prop :=
  (x.run.run w).1 = .error (.breakdown message)

instance {α : Type} (x : Build α) (w : Workspace) (message : String) :
    Decidable (BreaksDown x w message) :=
  match h : (x.run.run w).1 with
  | .error f => decidable_of_iff (f = .breakdown message) (by rw [BreaksDown, h, Except.error.injEq])
  | .ok a => isFalse fun hb => by cases h.symm.trans hb

section Steps

variable {α : Type}

theorem run_files (w : Workspace) : Build.files.run.run w = (.ok w.files, w) := rfl

theorem run_getThe (w : Workspace) :
    (getThe Workspace : Build Workspace).run.run w = (.ok w, w) := rfl

theorem run_note (severity : Severity) (component : Component) (message : String) (w : Workspace) :
    (liftM (Logged.note severity component message) : Build Unit).run.run w = (.ok (), { w with
      journal := w.journal.record ⟨severity, component.tag, message, none⟩ }) := rfl

theorem files_calm : Calm Build.files := by
  intro w e w' h
  cases h

theorem get_calm : Calm (getThe Workspace : Build Workspace) := by
  intro w e w' h
  cases h

theorem logged_calm (x : Logged α) : Calm (Build.ofLogged x) := by
  intro w e w' h
  have hrun : (Build.ofLogged x).run.run w = ((x.run.run w.journal).1.mapError .error,
      { w with journal := (x.run.run w.journal).2 }) := rfl
  rw [hrun] at h
  cases hr : (x.run.run w.journal).1 with
  | ok a =>
    rw [hr] at h
    cases h
  | error f =>
    rw [hr] at h
    cases h
    exact fun _ => nofun

theorem change_calm (action : FileTree → Except FileFault FileTree) (error : FileFault → Error) :
    Calm (Build.change action error) := by
  unfold Build.change
  apply files_calm.bind
  intro t
  cases action t with
  | ok u => exact .modify _
  | error f => exact logged_calm _

theorem consult_calm (query : FileTree → Except FileFault α) (error : FileFault → Error) :
    Calm (Build.consult query error) := by
  unfold Build.consult
  apply files_calm.bind
  intro t
  cases query t with
  | ok a => exact .pure a
  | error f => exact logged_calm _

theorem createParent_calm (path : String) (error : String → FileFault → Error) :
    Calm (createParent path error) := by
  intro w e w' h
  cases hp : parentOf path with
  | none =>
    rw [createParent_none hp] at h
    cases h
  | some parent =>
    rw [createParent_run hp] at h
    cases hc : w.files.createDirectories parent with
    | mk t fault =>
      rw [hc] at h
      cases fault with
      | none => cases h
      | some f =>
        cases h
        exact fun _ => nofun

theorem putFile_calm (path : String) (bytes : List UInt8) (error : String → FileFault → Error)
    (fileError : FileFault → Error) : Calm (putFile path bytes error fileError) :=
  (createParent_calm _ _).bind fun _ => change_calm _ _

theorem writeIfChanged_calm (path text : String) : Calm (writeIfChanged path text) := by
  intro w e w' h
  by_cases hsame : w.files.read path = .ok (Text.Utf8.encode text)
  · have hresult := (writeIfChanged_same hsame w rfl).1
    rw [h] at hresult
    cases hresult
  · have hwrite : Calm (writeText path text) := by
      apply (putFile_calm _ _ _ _).bind
      intro _
      exact (logged_calm _).bind fun _ => .pure _
    rw [writeIfChanged_other hsame] at h
    exact hwrite w e w' h

theorem writeEmitted_calm (directory : String) (fs : List Code.EmittedFile) :
    Calm (writeEmitted directory fs) :=
  .mapM (fun _ => (writeIfChanged_calm _ _).bind fun _ => .pure _) fs

theorem writeSidecar_calm (output : String) (r : Reflection) : Calm (writeSidecar output r) :=
  (writeIfChanged_calm _ _).bind fun _ => .pure _

theorem touchMarker_calm (path : String) : Calm (touchMarker path) := putFile_calm _ _ _ _

end Steps

section Breakdown

variable {α β : Type} {x : Build α} {f : α → Build β} {w w' : Workspace} {message : String}

theorem breakdown_of_bind (hx : Calm x) (h : (x >>= f).run.run w = (.error (.breakdown message), w')) :
    ∃ a u, x.run.run w = (.ok a, u) ∧ (f a).run.run u = (.error (.breakdown message), w') := by
  cases of_run_bind_error h with
  | inl h => exact absurd rfl (hx w _ w' h message)
  | inr h => exact h

theorem breakdown_of_bind_calm (h : (x >>= f).run.run w = (.error (.breakdown message), w'))
    (hf : ∀ a, Calm (f a)) : x.run.run w = (.error (.breakdown message), w') := by
  cases of_run_bind_error h with
  | inl h => exact h
  | inr h =>
    obtain ⟨a, u, -, h⟩ := h
    exact absurd rfl (hf a u _ w' h message)

theorem breakdown_of_guard {c : Prop} [Decidable c] {e : Error} {k : PUnit → Build β}
    (h : (if c then liftM (Logged.attempt (refuse e)) >>= k else k ⟨⟩).run.run w =
      (.error (.breakdown message), w')) : ¬c ∧ (k ⟨⟩).run.run w = (.error (.breakdown message), w') := by
  by_cases hc : c
  · rw [if_pos hc] at h
    cases h
  · rw [if_neg hc] at h
    exact ⟨hc, h⟩

theorem breakdown_of_attempt {y : Except Error α}
    (h : (liftM (Logged.attempt y) >>= f).run.run w = (.error (.breakdown message), w')) :
    ∃ a, y = .ok a ∧ (f a).run.run w = (.error (.breakdown message), w') := by
  cases y with
  | ok a => exact ⟨a, rfl, h⟩
  | error e => cases h

theorem breakdown_of_onError {report : Error → Build Unit}
    (h : (Build.onError x report).run.run w = (.error (.breakdown message), w'))
    (hr : ∀ e, Calm (report e)) : x.run.run w = (.error (.breakdown message), w') := by
  rw [Build.onError, run_tryCatch] at h
  cases hx : x.run.run w with
  | mk result u =>
    rw [hx] at h
    cases result with
    | ok a => cases h
    | error e =>
      cases e with
      | error e =>
        obtain ⟨_, v, -, h⟩ := breakdown_of_bind (hr e) h
        cases h
      | breakdown => exact h

end Breakdown

namespace Builtin

theorem visit_calm (root path : String) (entry : FileEntry) : Calm (visit root path entry) := by
  cases entry with
  | directory =>
    rw [visit]
    exact (consult_calm _ _).bind fun _ => .pure _
  | file =>
    rw [visit]
    split
    · apply Fails.map
      unfold loadPaired
      apply Fails.bind ((consult_calm _ _).bind fun _ => logged_calm _)
      intro m
      apply files_calm.bind
      intro t
      exact .ite_bind (logged_calm _) ((logged_calm _).bind fun _ => .pure _)
    · exact .pure _

theorem discover_calm (root : String) : Calm (discover root) := by
  unfold discover
  apply (consult_calm _ _).bind
  intro paths
  apply Fails.bind (.filterMapM (fun found => visit_calm root found.1 found.2) paths)
  intro ms
  exact (logged_calm _).bind fun _ => .pure _

theorem plan_calm (o : Options) : Calm (plan o) := by
  unfold plan
  apply (discover_calm _).bind
  intro ms
  apply (logged_calm _).bind
  intro jobs
  exact (logged_calm _).bind fun _ => .pure _

theorem generate_calm (o : Options) (vs : List Variant) : Calm (generate o vs) := by
  unfold generate
  apply (logged_calm _).bind
  intro fs
  apply (logged_calm _).bind
  intro emitted
  apply (writeEmitted_calm _ _).bind
  intro files
  apply (touchMarker_calm _).bind
  intro _
  exact (logged_calm _).bind fun _ => .pure _

end Builtin

end ShaderBuild
