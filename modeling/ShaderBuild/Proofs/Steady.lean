import ShaderBuild.Proofs.Outcome
import ShaderBuild.Workspace

namespace ShaderBuild

section Gives

variable {ε σ α β : Type} {p : σ → Prop}

/-- From every state of a kind a computation ends with this result, in a state of the kind. -/
def Gives (p : σ → Prop) (x : ExceptT ε (StateM σ) α) (r : Except ε α) : Prop :=
  ∀ s, p s → (x.run.run s).1 = r ∧ p (x.run.run s).2

/-- A computation that gives some result. -/
def Steady (p : σ → Prop) (x : ExceptT ε (StateM σ) α) : Prop := ∃ r, Gives p x r

theorem Gives.unique {x : ExceptT ε (StateM σ) α} {r r' : Except ε α} (h : Gives p x r)
    (h' : Gives p x r') {s : σ} (hs : p s) : r = r' :=
  (h s hs).1.symm.trans (h' s hs).1

theorem Gives.gives_iff {x : ExceptT ε (StateM σ) α} {r r' : Except ε α} (h : Gives p x r)
    (hp : ∃ s, p s) : Gives p x r' ↔ r = r' := by
  obtain ⟨s, hs⟩ := hp
  exact ⟨fun h' => h.unique h' hs, fun heq => heq ▸ h⟩

theorem Steady.gives {x : ExceptT ε (StateM σ) α} {s : σ} (h : Steady p x) (hs : p s) :
    Gives p x (x.run.run s).1 := by
  obtain ⟨r, hr⟩ := h
  rwa [(hr s hs).1]

theorem Gives.pure (a : α) : Gives p (Pure.pure a : ExceptT ε (StateM σ) α) (.ok a) :=
  fun _ hs => ⟨rfl, hs⟩

theorem Gives.bind {x : ExceptT ε (StateM σ) α} {f : α → ExceptT ε (StateM σ) β} {a : α}
    {r : Except ε β} (hx : Gives p x (.ok a)) (hf : Gives p (f a) r) : Gives p (x >>= f) r := by
  intro s hs
  obtain ⟨hr, hs'⟩ := hx s hs
  rw [run_bind, show x.run.run s = (.ok a, (x.run.run s).2) from Prod.ext hr rfl]
  exact hf _ hs'

theorem Gives.bind_error {x : ExceptT ε (StateM σ) α} {f : α → ExceptT ε (StateM σ) β} {e : ε}
    (hx : Gives p x (.error e)) : Gives p (x >>= f) (.error e) := by
  intro s hs
  obtain ⟨hr, hs'⟩ := hx s hs
  rw [run_bind, show x.run.run s = (.error e, (x.run.run s).2) from Prod.ext hr rfl]
  exact ⟨rfl, hs'⟩

/-- Two steps that give what two functions say give together what the functions say together. -/
theorem Gives.both {x : ExceptT ε (StateM σ) α} {f : α → ExceptT ε (StateM σ) β} {y : Except ε α}
    {g : α → Except ε β} (hx : Gives p x y) (hf : ∀ a, Gives p (f a) (g a)) :
    Gives p (x >>= f) (y >>= g) := by
  cases y with
  | error e => exact hx.bind_error
  | ok a => exact hx.bind (hf a)

theorem Gives.map {x : ExceptT ε (StateM σ) α} {y : Except ε α} (hx : Gives p x y) (f : α → β) :
    Gives p (f <$> x) (f <$> y) := by
  rw [map_eq_pure_bind, map_eq_pure_bind]
  exact hx.both fun a => .pure (f a)

theorem Gives.of_bind {x : ExceptT ε (StateM σ) α} {f : α → ExceptT ε (StateM σ) β} {b : β}
    (h : Gives p (x >>= f) (.ok b)) (hx : Steady p x) (hf : ∀ a, Steady p (f a)) (hp : ∃ s, p s) :
    ∃ a, Gives p x (.ok a) ∧ Gives p (f a) (.ok b) := by
  obtain ⟨s, hs⟩ := hp
  obtain ⟨r, hr⟩ := hx
  cases r with
  | error e => cases h.unique hr.bind_error hs
  | ok a =>
    obtain ⟨r', hr'⟩ := hf a
    obtain rfl := h.unique (hr.bind hr') hs
    exact ⟨a, hr, hr'⟩

theorem Steady.pure (a : α) : Steady p (Pure.pure a : ExceptT ε (StateM σ) α) := ⟨_, .pure a⟩

theorem Steady.bind {x : ExceptT ε (StateM σ) α} {f : α → ExceptT ε (StateM σ) β}
    (hx : Steady p x) (hf : ∀ a, Steady p (f a)) : Steady p (x >>= f) := by
  obtain ⟨r, hr⟩ := hx
  cases r with
  | error e => exact ⟨_, hr.bind_error⟩
  | ok a =>
    obtain ⟨r', hr'⟩ := hf a
    exact ⟨r', hr.bind hr'⟩

theorem gives_bind_iff {x : ExceptT ε (StateM σ) α} {f : α → ExceptT ε (StateM σ) β} {b : β}
    (hx : Steady p x) (hf : ∀ a, Steady p (f a)) (hp : ∃ s, p s) :
    Gives p (x >>= f) (.ok b) ↔ ∃ a, Gives p x (.ok a) ∧ Gives p (f a) (.ok b) :=
  ⟨fun h => h.of_bind hx hf hp, fun ⟨_, ha, hb⟩ => ha.bind hb⟩

theorem gives_pure_iff {a b : α} (hp : ∃ s, p s) :
    Gives p (Pure.pure a : ExceptT ε (StateM σ) α) (.ok b) ↔ a = b := by
  rw [(Gives.pure a).gives_iff hp, Except.ok.injEq]

theorem Steady.map {x : ExceptT ε (StateM σ) α} (f : α → β) (hx : Steady p x) :
    Steady p (f <$> x) := by
  obtain ⟨r, hr⟩ := hx
  exact ⟨_, hr.map f⟩

theorem Gives.mapM {f : α → ExceptT ε (StateM σ) β} {g : α → Except ε β}
    (h : ∀ a, Gives p (f a) (g a)) (xs : List α) : Gives p (xs.mapM f) (xs.mapM g) := by
  induction xs with
  | nil => exact .pure []
  | cons x r ih =>
    rw [List.mapM_cons, List.mapM_cons]
    exact (h x).both fun _ => ih.both fun _ => .pure _

theorem Steady.mapM {f : α → ExceptT ε (StateM σ) β} (hf : ∀ a, Steady p (f a)) (xs : List α) :
    Steady p (xs.mapM f) := by
  choose g hg using hf
  exact ⟨_, .mapM hg xs⟩

theorem Gives.filterMapM {f : α → ExceptT ε (StateM σ) (Option β)} {v : α → Option β}
    {xs : List α} (h : ∀ x ∈ xs, Gives p (f x) (.ok (v x))) :
    Gives p (xs.filterMapM f) (.ok (xs.filterMap v)) := by
  induction xs with
  | nil => exact .pure []
  | cons x r ih =>
    obtain ⟨hx, hr⟩ := List.forall_mem_cons.1 h
    rw [List.filterMapM_cons, List.filterMap_cons]
    refine hx.bind ?_
    cases v x with
    | none => exact ih hr
    | some b => exact (ih hr).bind (.pure _)

theorem Gives.filterMapM_each {f : α → ExceptT ε (StateM σ) (Option β)}
    {g : α → Except ε (Option β)} (h : ∀ a, Gives p (f a) (g a)) (xs : List α) :
    Gives p (xs.filterMapM f) (xs.filterMapM g) := by
  induction xs with
  | nil => exact .pure []
  | cons x r ih =>
    rw [List.filterMapM_cons, List.filterMapM_cons]
    refine (h x).both fun o => ?_
    cases o with
    | none => exact ih
    | some b => exact ih.both fun _ => .pure _

theorem Steady.filterMapM {f : α → ExceptT ε (StateM σ) (Option β)} (hf : ∀ a, Steady p (f a))
    (xs : List α) : Steady p (xs.filterMapM f) := by
  choose g hg using hf
  exact ⟨_, .filterMapM_each hg xs⟩

/-- Where some steps may fail, the first of them fails for the whole list. -/
theorem Gives.filterMapM_or {f : α → ExceptT ε (StateM σ) (Option β)} {v : α → Option β}
    {bad : α → ε → Prop} {xs : List α}
    (h : ∀ x ∈ xs, Gives p (f x) (.ok (v x)) ∨ ∃ e, bad x e ∧ Gives p (f x) (.error e)) :
    Gives p (xs.filterMapM f) (.ok (xs.filterMap v)) ∨
      ∃ x ∈ xs, ∃ e, bad x e ∧ Gives p (xs.filterMapM f) (.error e) := by
  induction xs with
  | nil => exact .inl (.pure [])
  | cons x r ih =>
    obtain ⟨hx, hr⟩ := List.forall_mem_cons.1 h
    rw [List.filterMapM_cons, List.filterMap_cons]
    rcases hx with hx | ⟨e, hbad, hx⟩
    · rcases ih hr with hrest | ⟨y, hy, e, hbad, hrest⟩
      · left
        refine hx.bind ?_
        cases v x with
        | none => exact hrest
        | some b => exact hrest.bind (.pure _)
      · refine .inr ⟨y, List.mem_cons_of_mem _ hy, e, hbad, hx.bind ?_⟩
        cases v x with
        | none => exact hrest
        | some b => exact hrest.bind_error
    · exact .inr ⟨x, List.mem_cons_self, e, hbad, hx.bind_error⟩

theorem Gives.of_filterMapM {f : α → ExceptT ε (StateM σ) (Option β)} {xs : List α} {ys : List β}
    (h : Gives p (xs.filterMapM f) (.ok ys)) (hf : ∀ a, Steady p (f a)) (hp : ∃ s, p s) :
    ∃ v : α → Option β, (∀ x ∈ xs, Gives p (f x) (.ok (v x))) ∧ ys = xs.filterMap v := by
  obtain ⟨v, hv⟩ : ∃ v : α → Option β, ∀ {x o}, Gives p (f x) (.ok o) → v x = o := by
    choose r hr using hf
    refine ⟨fun x => (r x).toOption.join, fun {x o} hx => ?_⟩
    obtain ⟨s, hs⟩ := hp
    have hr : r x = .ok o := (hr x).unique hx hs
    simp only [hr]
    rfl
  refine ⟨v, ?_⟩
  induction xs generalizing ys with
  | nil => exact ⟨by simp, ((gives_pure_iff hp).1 h).symm⟩
  | cons x rest ih =>
    have hsteady : Steady p (rest.filterMapM f) := .filterMapM hf rest
    rw [List.filterMapM_cons] at h
    obtain ⟨o, hx, h⟩ := h.of_bind (hf x) (fun o => by
      cases o with
      | none => exact hsteady
      | some b => exact hsteady.bind fun _ => .pure _) hp
    cases o with
    | none =>
      obtain ⟨hall, rfl⟩ := ih h
      refine ⟨List.forall_mem_cons.2 ⟨by rwa [hv hx], hall⟩, ?_⟩
      rw [List.filterMap_cons_none (hv hx)]
    | some b =>
      obtain ⟨zs, hzs, h⟩ := h.of_bind hsteady (fun _ => .pure _) hp
      obtain ⟨hall, rfl⟩ := ih hzs
      refine ⟨List.forall_mem_cons.2 ⟨by rwa [hv hx], hall⟩, ?_⟩
      rw [List.filterMap_cons_some (hv hx)]
      exact ((gives_pure_iff hp).1 h).symm

theorem Steady.foldlM {f : β → α → ExceptT ε (StateM σ) β} (hf : ∀ b a, Steady p (f b a))
    (xs : List α) (b : β) : Steady p (xs.foldlM f b) := by
  induction xs generalizing b with
  | nil => exact .pure b
  | cons x r ih =>
    rw [List.foldlM_cons]
    exact (hf b x).bind ih

theorem Gives.forIn {f : α → ExceptT ε (StateM σ) Unit} (h : ∀ a, Gives p (f a) (.ok ()))
    (xs : List α) :
    Gives p (ForIn.forIn xs () fun a _ => do f a; Pure.pure (.yield ())) (.ok ()) := by
  induction xs with
  | nil => exact .pure ()
  | cons x r ih =>
    rw [List.forIn_cons]
    exact Gives.bind (a := ForInStep.yield ()) ((h x).bind (.pure _)) ih

theorem Steady.ite {c : Prop} [Decidable c] {x y : ExceptT ε (StateM σ) α} (hx : Steady p x)
    (hy : Steady p y) : Steady p (if c then x else y) := by
  split
  · exact hx
  · exact hy

end Gives

section Returns

variable {ε σ α β : Type}

/-- A computation ends with a value, from some state. -/
def Returns (x : ExceptT ε (StateM σ) α) (a : α) : Prop := ∃ s, (x.run.run s).1 = .ok a

theorem Returns.bind {x : ExceptT ε (StateM σ) α} {f : α → ExceptT ε (StateM σ) β} {b : β}
    (h : Returns (x >>= f) b) : ∃ a, Returns x a ∧ Returns (f a) b := by
  obtain ⟨s, h⟩ := h
  obtain ⟨a, u, hx, hf⟩ := run_bind_ok (Prod.ext h rfl)
  exact ⟨a, ⟨s, by rw [hx]⟩, u, by rw [hf]⟩

theorem Returns.pure {a b : α} (h : Returns (Pure.pure a : ExceptT ε (StateM σ) α) b) : a = b := by
  obtain ⟨s, h⟩ := h
  exact Except.ok.inj h

theorem Gives.returns {x : ExceptT ε (StateM σ) α} {r : Except ε α} {a : α}
    (hx : Gives (fun _ => True) x r) (h : Returns x a) : r = .ok a := by
  obtain ⟨s, h⟩ := h
  exact (hx s trivial).1.symm.trans h

end Returns

section Logged

variable {α : Type}

theorem Gives.attempt (r : Except Error α) : Gives (fun _ => True) (Logged.attempt r) r := by
  intro j _
  cases r <;> exact ⟨rfl, trivial⟩

theorem Returns.attempt {r : Except Error α} {a : α} (h : Returns (Logged.attempt r) a) :
    r = .ok a := (Gives.attempt r).returns h

theorem Steady.attempt (r : Except Error α) : Steady (fun _ => True) (Logged.attempt r) :=
  ⟨r, .attempt r⟩

theorem Gives.note (severity : Severity) (component : Component) (message : String) :
    Gives (fun _ => True) (Logged.note severity component message) (.ok ()) :=
  fun _ _ => ⟨rfl, trivial⟩

theorem Gives.noted (r : Except Error α) (severity : Severity) (component : Component)
    (message : α → String) : Gives (fun _ => True) (do
      let a ← Logged.attempt r
      Logged.note severity component (message a)
      return a) r := by
  cases r with
  | error e => exact (Gives.attempt _).bind_error
  | ok a => exact (Gives.attempt (.ok a)).bind ((Gives.note _ _ _).bind (.pure a))

theorem Steady.note (severity : Severity) (component : Component) (message : String) :
    Steady (fun _ => True) (Logged.note severity component message) :=
  ⟨_, .note severity component message⟩

end Logged

section Builds

variable {α : Type} {s : FileTree → Prop} {t : FileTree}

def Over (s : FileTree → Prop) (w : Workspace) : Prop := s w.files

abbrev OnFiles (t : FileTree) : Workspace → Prop := Over (· = t)

theorem exists_onFiles (t : FileTree) : ∃ w, OnFiles t w := ⟨{ files := t }, rfl⟩

theorem Gives.lift {x : Logged α} {r : Except Error α} (h : Gives (fun _ => True) x r) :
    Gives (Over s) (Build.ofLogged x) (r.mapError .error) := by
  intro w hw
  obtain ⟨hr, -⟩ := h w.journal trivial
  exact ⟨congrArg (Except.mapError Failure.error) hr, hw⟩

theorem Steady.lift {x : Logged α} (h : Steady (fun _ => True) x) :
    Steady (Over s) (Build.ofLogged x) := by
  obtain ⟨r, hr⟩ := h
  exact ⟨_, hr.lift⟩

theorem Gives.files : Gives (OnFiles t) Build.files (.ok t) :=
  fun _ hw => ⟨congrArg Except.ok hw, hw⟩

theorem Gives.consult (query : FileTree → Except FileFault α) (error : FileFault → Error) :
    Gives (OnFiles t) (Build.consult query error)
      ((query t).mapError fun f => .error (error f)) := by
  refine Gives.bind .files ?_
  cases query t with
  | ok a => exact .pure a
  | error f => exact (Gives.attempt (refuse (error f))).lift

theorem gives_consult_iff {query : FileTree → Except FileFault α} {error : FileFault → Error}
    {a : α} : Gives (OnFiles t) (Build.consult query error) (.ok a) ↔ query t = .ok a := by
  rw [(Gives.consult query error).gives_iff (exists_onFiles t), mapError_ok_iff]

theorem consult_run {query : FileTree → Except FileFault α} {error : FileFault → Error} {a : α}
    {w : Workspace} (h : query w.files = .ok a) :
    (Build.consult query error).run.run w = (.ok a, w) := by
  have hfiles : Build.files.run.run w = (.ok w.files, w) := rfl
  rw [Build.consult, run_bind, hfiles]
  dsimp only
  rw [h]
  rfl

theorem gives_attempt_iff {r : Except Error α} {a : α} :
    Gives (OnFiles t) (Build.ofLogged (Logged.attempt r)) (.ok a) ↔ r = .ok a := by
  rw [(Gives.attempt r).lift.gives_iff (exists_onFiles t), mapError_ok_iff]

end Builds

end ShaderBuild
