import Mathlib.Data.List.Forall2
import ShaderBuild.Error

namespace ShaderBuild

variable {ε α β : Type}

@[simp]
theorem bind_ok_iff (x : Except ε α) (f : α → Except ε β) (b : β) :
    x >>= f = .ok b ↔ ∃ a, x = .ok a ∧ f a = .ok b := by
  cases x <;> simp [bind, Except.bind]

@[simp]
theorem pure_ok_iff (a b : α) : pure a = (.ok b : Except ε α) ↔ a = b := by
  simp [pure, Except.pure]

@[simp]
theorem throw_ok_iff (e : ε) (a : α) : throw e = (.ok a : Except ε α) ↔ False := by
  simp [throw, throwThe, MonadExceptOf.throw]

@[simp]
theorem map_ok_iff (f : α → β) (x : Except ε α) (b : β) :
    f <$> x = .ok b ↔ ∃ a, x = .ok a ∧ f a = b := by
  cases x <;> simp [Functor.map, Except.map]

/-- Two computations step by step: the results of one are those of the other, carried over. -/
theorem bind_eq_map {γ δ : Type} {x : Except ε α} {x' : Except ε β} {k : α → Except ε γ}
    {k' : β → Except ε δ} {f : α → β} {h : γ → δ} (hx : x' = f <$> x)
    (hk : ∀ a, x = .ok a → k' (f a) = h <$> k a) : x' >>= k' = h <$> (x >>= k) := by
  subst hx
  cases x with
  | error e => rfl
  | ok a => exact hk a rfl

theorem same_bind_eq_map {γ δ : Type} {x : Except ε α} {k : α → Except ε γ} {k' : α → Except ε δ}
    {h : γ → δ} (hk : ∀ a, x = .ok a → k' a = h <$> k a) : x >>= k' = h <$> (x >>= k) :=
  bind_eq_map (id_map x).symm hk

theorem map_eq_self {x : Except ε α} {f : α → α} (h : ∀ a, x = .ok a → f a = a) : f <$> x = x := by
  cases x with
  | error e => rfl
  | ok a => exact congrArg _ (h a rfl)

theorem foldlM_eq_map {σ τ : Type} {step : σ → α → Except ε σ} {step' : τ → α → Except ε τ}
    {f : σ → τ} (h : ∀ s a, step' (f s) a = f <$> step s a) (xs : List α) (s : σ) :
    xs.foldlM step' (f s) = f <$> xs.foldlM step s := by
  induction xs generalizing s with
  | nil => rfl
  | cons x r ih =>
    rw [List.foldlM_cons, List.foldlM_cons]
    exact bind_eq_map (h s x) fun a _ => ih a

theorem mapError_ok_iff {ε' : Type} {f : ε → ε'} {x : Except ε α} {a : α} :
    x.mapError f = .ok a ↔ x = .ok a := by
  cases x <;> simp [Except.mapError]

theorem exists_of_toOption_any {x : Except ε α} {p : α → Bool} (h : x.toOption.any p) :
    ∃ a, x = .ok a ∧ p a := by
  cases x with
  | error e => cases h
  | ok a => exact ⟨a, rfl, h⟩

theorem exists_of_toOption_isSome {x : Except ε α} (h : x.toOption.isSome) : ∃ a, x = .ok a := by
  cases x with
  | error e => cases h
  | ok a => exact ⟨a, rfl⟩

theorem ok_of_toOption {x : Except ε α} {a : α} (h : x.toOption = some a) : x = .ok a := by
  cases x with
  | error => cases h
  | ok b => exact congrArg _ (Option.some.inj h)

@[simp]
theorem refuse_ok_iff (e : Error) (a : α) : refuse e = .ok a ↔ False := by
  simp [refuse]

@[simp]
theorem need_ok_iff (x : Option α) (e : Error) (a : α) : need x e = .ok a ↔ x = some a := by
  cases x <;> simp [need]

theorem guard_ok_iff {c : Prop} [Decidable c] (e : Error) (f : Unit → Except Error α) (a : α) :
    (if c then refuse e >>= f else f ()) = .ok a ↔ ¬c ∧ f () = .ok a := by
  split <;> simp_all

theorem guard_eq_map {γ δ : Type} {c : Prop} [Decidable c] {e : Error} {k : Unit → Except Error γ}
    {k' : Unit → Except Error δ} {h : γ → δ} (hk : ¬c → k' () = h <$> k ()) :
    (if c then refuse e >>= k' else k' ()) = h <$> (if c then refuse e >>= k else k ()) := by
  split
  · rfl
  · next hc => exact hk hc

theorem unless_ok_iff {c : Prop} [Decidable c] (e : ε) (x : Except ε α) (a : α) :
    (if c then (Except.error e : Except ε PUnit) >>= fun _ => x else x) = .ok a ↔
      ¬c ∧ x = .ok a := by
  split <;> simp_all

/-- What is done for every element of a list succeeds where it succeeds for each of them. -/
theorem mapM_ok_iff {f : α → Except ε β} {xs : List α} {ys : List β} :
    xs.mapM f = .ok ys ↔ List.Forall₂ (fun x y => f x = .ok y) xs ys := by
  induction xs generalizing ys with
  | nil =>
    rw [List.forall₂_nil_left_iff]
    exact ⟨fun h => by cases h; rfl, fun h => h ▸ rfl⟩
  | cons x r ih =>
    rw [List.mapM_cons, List.forall₂_cons_left_iff]
    simp only [← ih]
    cases hx : f x with
    | error e => simp [bind, Except.bind]
    | ok y =>
      cases hr : r.mapM f with
      | error e => simp [bind, Except.bind]
      | ok zs => simp [bind, Except.bind, pure, Except.pure, eq_comm]

theorem exists_mapM_ok_iff {f : α → Except ε β} {xs : List α} :
    (∃ ys, xs.mapM f = .ok ys) ↔ ∀ x ∈ xs, ∃ y, f x = .ok y := by
  simp only [mapM_ok_iff]
  induction xs with
  | nil => simp
  | cons x r ih =>
    rw [List.forall_mem_cons, ← ih]
    constructor
    · rintro ⟨_, h⟩
      obtain ⟨y, ys, hy, hys, -⟩ := List.forall₂_cons_left_iff.1 h
      exact ⟨⟨y, hy⟩, ys, hys⟩
    · rintro ⟨⟨y, hy⟩, ys, hys⟩
      exact ⟨y :: ys, .cons hy hys⟩

theorem exists_of_forall₂ {R : α → β → Prop} {xs : List α} {ys : List β}
    (h : List.Forall₂ R xs ys) {x : α} (hx : x ∈ xs) : ∃ y ∈ ys, R x y := by
  induction h with
  | nil => cases hx
  | cons hr _ ih =>
    obtain rfl | hx := List.mem_cons.1 hx
    · exact ⟨_, List.mem_cons_self, hr⟩
    · obtain ⟨y, hy, hr⟩ := ih hx
      exact ⟨y, List.mem_cons_of_mem _ hy, hr⟩

theorem mem_of_mapM_ok {f : α → Except ε β} {xs : List α} {ys : List β} (h : xs.mapM f = .ok ys)
    {y : β} (hy : y ∈ ys) : ∃ x ∈ xs, f x = .ok y := exists_of_forall₂ (mapM_ok_iff.1 h).flip hy

theorem exists_of_mapM_ok {f : α → Except ε β} {xs : List α} {ys : List β}
    (h : xs.mapM f = .ok ys) {x : α} (hx : x ∈ xs) : ∃ y ∈ ys, f x = .ok y :=
  exists_of_forall₂ (mapM_ok_iff.1 h) hx

theorem forM_ok_iff {f : α → Except Error Unit} {xs : List α} :
    xs.forM f = .ok () ↔ ∀ x ∈ xs, f x = .ok () := by
  induction xs with
  | nil => simp [List.forM]
  | cons x r ih =>
    rw [List.forM, bind_ok_iff, List.forall_mem_cons, ← ih]
    constructor
    · rintro ⟨⟨⟩, hx, hr⟩
      exact ⟨hx, hr⟩
    · rintro ⟨hx, hr⟩
      exact ⟨(), hx, hr⟩

section State

variable {σ : Type}

theorem run_bind (x : ExceptT ε (StateM σ) α) (f : α → ExceptT ε (StateM σ) β) (s : σ) :
    (x >>= f).run.run s = match x.run.run s with
      | (.ok a, s') => (f a).run.run s'
      | (.error e, s') => (.error e, s') := by
  rw [ExceptT.run_bind, StateT.run_bind]
  show (match x.run.run s with | (r, s') => _) = _
  rcases x.run.run s with ⟨_ | _, _⟩ <;> rfl

theorem run_bind_ok {x : ExceptT ε (StateM σ) α} {f : α → ExceptT ε (StateM σ) β} {s t : σ} {b : β}
    (h : (x >>= f).run.run s = (.ok b, t)) :
    ∃ a u, x.run.run s = (.ok a, u) ∧ (f a).run.run u = (.ok b, t) := by
  rw [run_bind] at h
  cases hx : x.run.run s with
  | mk result u =>
    rw [hx] at h
    cases result with
    | error e => cases h
    | ok a => exact ⟨a, u, rfl, h⟩

theorem run_bind_of_ok {x : ExceptT ε (StateM σ) α}
    {f : α → ExceptT ε (StateM σ) β} {s u : σ} {a : α}
    (h : x.run.run s = (.ok a, u)) : (x >>= f).run.run s = (f a).run.run u := by
  rw [run_bind, h]

theorem run_bind_of_error {x : ExceptT ε (StateM σ) α}
    {f : α → ExceptT ε (StateM σ) β} {s u : σ} {e : ε}
    (h : x.run.run s = (.error e, u)) : (x >>= f).run.run s = (.error e, u) := by
  rw [run_bind, h]

theorem of_run_bind_error {x : ExceptT ε (StateM σ) α}
    {f : α → ExceptT ε (StateM σ) β} {s t : σ} {e : ε}
    (h : (x >>= f).run.run s = (.error e, t)) : x.run.run s = (.error e, t) ∨
      ∃ a u, x.run.run s = (.ok a, u) ∧ (f a).run.run u = (.error e, t) := by
  rw [run_bind] at h
  cases hr : x.run.run s with
  | mk result u =>
    rw [hr] at h
    cases result with
    | error e' =>
      cases h
      exact .inl rfl
    | ok a => exact .inr ⟨a, u, rfl, h⟩

theorem run_tryCatch (x : ExceptT ε (StateM σ) α) (k : ε → ExceptT ε (StateM σ) α)
    (s : σ) : (tryCatch x k).run.run s = match x.run.run s with
      | (.ok a, u) => (.ok a, u)
      | (.error e, u) => (k e).run.run u := by
  have hrun : (tryCatch x k).run = x.run >>= fun result => match result with
      | .ok a => pure (.ok a)
      | .error e => (k e).run := rfl
  rw [hrun, StateT.run_bind]
  show (match x.run.run s with | (result, u) => _) = _
  cases x.run.run s with
  | mk result u =>
    cases result with
    | error e => rfl
    | ok a => rfl

theorem run_pure_ok_iff {a b : α} {s t : σ} :
    (pure a : ExceptT ε (StateM σ) α).run.run s = (.ok b, t) ↔ a = b ∧ s = t := by
  show ((Except.ok a, s) : Except ε α × σ) = _ ↔ _
  simp

@[simp]
theorem run_lift (x : Except ε α) (s : σ) :
    (liftM x : ExceptT ε (StateM σ) α).run.run s = (x, s) := rfl

@[simp]
theorem run_get (s : σ) : (get : ExceptT ε (StateM σ) σ).run.run s = (.ok s, s) := rfl

@[simp]
theorem run_set (s t : σ) : (set t : ExceptT ε (StateM σ) PUnit).run.run s = (.ok ⟨⟩, t) := rfl

@[simp]
theorem run_modify (f : σ → σ) (s : σ) :
    (modify f : ExceptT ε (StateM σ) PUnit).run.run s = (.ok ⟨⟩, f s) := rfl

end State

end ShaderBuild
