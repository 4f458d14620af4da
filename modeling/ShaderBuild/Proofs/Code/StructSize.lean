import Mathlib.Data.List.Induction
import Mathlib.Data.List.Nodup
import ShaderBuild.Code.Query

namespace ShaderBuild.Code

def declared (files : List File) : List StructDecl := files.flatMap File.structs

def lookup (ds : List StructDecl) (name : String) : Option StructDecl := ds.find? (·.name == name)

theorem struct?_eq_lookup (files : List File) (name : String) :
    struct? files name = lookup (declared files) name := by
  induction files with
  | nil => rfl
  | cons f r ih =>
    simp only [struct?, lookup, declared, File.struct?, List.findSome?_cons, List.flatMap_cons,
      List.find?_append] at ih ⊢
    rw [ih]
    cases f.structs.find? (·.name == name) <;> rfl

theorem structCount_eq (files : List File) : structCount files = (declared files).length := by
  rfl

theorem lookup_name {ds : List StructDecl} {name : String} {d : StructDecl}
    (h : lookup ds name = some d) : d.name = name := by
  simpa using List.find?_some h

theorem find?_of_unique {α : Type} {xs : List α} {p : α → Bool} {a : α} (h : a ∈ xs) (hp : p a)
    (hu : ∀ x ∈ xs, p x → x = a) : xs.find? p = some a := by
  cases hx : xs.find? p with
  | none => exact absurd hp (List.find?_eq_none.1 hx a h)
  | some x => rw [hu x (List.mem_of_find?_eq_some hx) (List.find?_some hx)]

theorem lookup_of_unique {ds : List StructDecl} {d : StructDecl} (h : d ∈ ds)
    (hu : ∀ e ∈ ds, e.name = d.name → e = d) : lookup ds d.name = some d :=
  find?_of_unique h (beq_self_eq_true _) fun e he hn => hu e he (eq_of_beq hn)

theorem lookup_of_mem {ds : List StructDecl} (hd : (ds.map (·.name)).Nodup) {d : StructDecl}
    (h : d ∈ ds) : lookup ds d.name = some d :=
  lookup_of_unique h fun _ he hn => List.inj_on_of_nodup_map hd he h hn

def Extends {α : Type} (g h : String → Option α) : Prop := ∀ n a, g n = some a → h n = some a

theorem lookup_extends {ds es : List StructDecl} (h : ds <+: es) :
    Extends (lookup ds) (lookup es) := by
  obtain ⟨r, rfl⟩ := h
  intro n d hd
  rw [lookup, List.find?_append, show ds.find? (·.name == n) = some d from hd]
  rfl

section Within

variable {α : Type} (find : String → Option StructDecl)
  (measure : (String → Option α) → List Field → Option α)

/-- A quantity of structs that is measured from that of the structs in their fields, nested at most
`depth` deep. -/
def within : Nat → String → Option α
  | 0, _ => none
  | depth + 1, name => do measure (within depth) (← find name).fields

variable {find measure}

theorem within_succ {k : Nat} {n : String} {d : StructDecl} (h : find n = some d) :
    within find measure (k + 1) n = measure (within find measure k) d.fields := by
  simp [within, h]

theorem within_extends {find' : String → Option StructDecl}
    (hm : ∀ g h, Extends g h → ∀ fs a, measure g fs = some a → measure h fs = some a)
    (hf : Extends find find') {j k : Nat} (hjk : j ≤ k) :
    Extends (within find measure j) (within find' measure k) := by
  induction j generalizing k with
  | zero => intro n a h; cases h
  | succ j ih =>
    intro n a h
    obtain ⟨k, rfl⟩ : ∃ l, k = l + 1 := ⟨k - 1, by omega⟩
    cases hd : find n with
    | none => simp [within, hd] at h
    | some d =>
      rw [within_succ hd] at h
      rw [within_succ (hf n d hd)]
      exact hm _ _ (ih (by omega)) _ _ h

theorem within_fields {k : Nat} {n : String} {d : StructDecl} {a : α}
    (hm : ∀ g h, Extends g h → ∀ fs a, measure g fs = some a → measure h fs = some a)
    (hd : find n = some d) (h : within find measure k n = some a) :
    measure (within find measure k) d.fields = some a := by
  cases k with
  | zero => cases h
  | succ k =>
    rw [within_succ hd] at h
    exact hm _ _ (within_extends hm (fun _ _ h => h) (by omega)) _ _ h

/-- What a quantity needs of the structs inside carries over to another quantity. -/
theorem within_exists {β : Type} {measure' : (String → Option β) → List Field → Option β}
    (hm : ∀ g h, (∀ n a, g n = some a → ∃ b, h n = some b) →
      ∀ fs a, measure g fs = some a → ∃ b, measure' h fs = some b)
    {k : Nat} {n : String} {a : α} (h : within find measure k n = some a) :
    ∃ b, within find measure' k n = some b := by
  induction k generalizing n a with
  | zero => cases h
  | succ k ih =>
    cases hd : find n with
    | none => simp [within, hd] at h
    | some d =>
      rw [within_succ hd] at h ⊢
      exact hm _ _ (fun _ _ => ih) _ _ h

end Within

theorem fieldSize_mono {g h : String → Option UInt32} (hgh : Extends g h) {f : Field} {s : UInt32}
    (hs : fieldSize g f = some s) : fieldSize h f = some s := by
  obtain ⟨a, ha, hm⟩ := Option.bind_eq_some_iff.1 hs
  refine Option.bind_eq_some_iff.2 ⟨a, ?_, hm⟩
  cases ht : f.type with
  | named n => exact hgh n a (by simpa [ht, FieldType.size?] using ha)
  | _ => simpa [ht, FieldType.size?] using ha

theorem fieldsSize_snoc (g : String → Option UInt32) (fs : List Field) (f : Field) :
    fieldsSize g (fs ++ [f]) =
      (fieldsSize g fs).bind fun a => (fieldSize g f).bind fun b => Word.add? a b := by
  simp [fieldsSize, List.foldlM_append]

theorem fieldsSize_snoc_iff {g : String → Option UInt32} {fs : List Field} {f : Field}
    {c : UInt32} : fieldsSize g (fs ++ [f]) = some c ↔
      ∃ a b, fieldsSize g fs = some a ∧ fieldSize g f = some b ∧ c.toNat = a.toNat + b.toNat := by
  simp only [fieldsSize_snoc, Option.bind_eq_some_iff, Word.add?_eq_some_iff]
  constructor
  · rintro ⟨a, ha, b, hb, hc⟩
    exact ⟨a, b, ha, hb, hc⟩
  · rintro ⟨a, b, ha, hb, hc⟩
    exact ⟨a, ha, b, hb, hc⟩

theorem fieldsSize_mono (g h : String → Option UInt32) (hgh : Extends g h) (fs : List Field)
    (s : UInt32) (hs : fieldsSize g fs = some s) : fieldsSize h fs = some s := by
  induction fs using List.reverseRecOn generalizing s with
  | nil => exact hs
  | append_singleton fs f ih =>
    obtain ⟨a, b, ha, hb, hc⟩ := fieldsSize_snoc_iff.1 hs
    exact fieldsSize_snoc_iff.2 ⟨a, b, ih a ha, fieldSize_mono hgh hb, hc⟩

def sizes (ds : List StructDecl) : String → Option UInt32 :=
  within (lookup ds) fieldsSize ds.length

theorem structSize_eq_within (files : List File) :
    structSize files = within (struct? files) fieldsSize (structCount files) := by
  have h (k : Nat) : structSizeWithin files k = within (struct? files) fieldsSize k := by
    induction k with
    | zero => rfl
    | succ k ih =>
      funext name
      rw [structSizeWithin, within, ih]
  funext name
  rw [structSize, h]

theorem structSize_eq (files : List File) : structSize files = sizes (declared files) := by
  rw [structSize_eq_within, structCount_eq, funext (struct?_eq_lookup files), sizes]

theorem sizes_extends {ds es : List StructDecl} (h : ds <+: es) : Extends (sizes ds) (sizes es) :=
  within_extends fieldsSize_mono (lookup_extends h) h.length_le

/-- A struct behind all those its fields name has the size of its fields. -/
theorem sizes_of_fields {ds es : List StructDecl} (h : ds <+: es) (hl : ds.length < es.length)
    {d : StructDecl} (hd : lookup es d.name = some d) {s : UInt32}
    (hs : fieldsSize (sizes ds) d.fields = some s) : sizes es d.name = some s := by
  obtain ⟨k, hk⟩ : ∃ k, es.length = k + 1 := ⟨es.length - 1, by omega⟩
  rw [sizes, hk, within_succ hd]
  exact fieldsSize_mono _ _ (within_extends fieldsSize_mono (lookup_extends h) (by omega)) _ _ hs

theorem sizes_unique {ds : List StructDecl} {d : StructDecl} (hd : lookup ds d.name = some d)
    {s t : UInt32} (hs : sizes ds d.name = some s) (ht : fieldsSize (sizes ds) d.fields = some t) :
    s = t :=
  Option.some.inj ((within_fields fieldsSize_mono hd hs).symm.trans ht)

theorem structSize_fields {files : List File} {name : String} {d : StructDecl} {s : UInt32}
    (hd : struct? files name = some d) (h : structSize files name = some s) :
    fieldsSize (structSize files) d.fields = some s := by
  rw [structSize_eq_within] at h ⊢
  exact within_fields fieldsSize_mono hd h

theorem size_of_mem {g : String → Option UInt32} {fs : List Field} {s : UInt32}
    (h : fieldsSize g fs = some s) {f : Field} (hf : f ∈ fs) : ∃ t, fieldSize g f = some t := by
  induction fs using List.reverseRecOn generalizing s with
  | nil => simp at hf
  | append_singleton fs e ih =>
    obtain ⟨a, b, ha, hb, -⟩ := fieldsSize_snoc_iff.1 h
    rcases List.mem_append.1 hf with hf | hf
    · exact ih ha hf
    · obtain rfl := List.mem_singleton.1 hf
      exact ⟨b, hb⟩

/-- Structs that have a size are nested without end only in appearance: a property that passes from
the structs in its fields to a struct holds of them all. -/
theorem structSize_induction {files : List File} {P : String → Prop}
    (step : ∀ name d, struct? files name = some d →
      (∀ f ∈ d.fields, ∀ n, f.type = .named n → P n) → P name)
    {name : String} {s : UInt32} (h : structSize files name = some s) : P name := by
  rw [structSize_eq_within] at h
  generalize structCount files = k at h
  -- the bound on the nesting falls by one from a struct to those in its fields
  induction k generalizing name s with
  | zero => cases h
  | succ k ih =>
    cases hd : struct? files name with
    | none => simp [within, hd] at h
    | some d =>
      rw [within_succ hd] at h
      refine step name d hd fun f hf n hn => ?_
      obtain ⟨t, ht⟩ := size_of_mem h hf
      obtain ⟨a, ha, -⟩ := Option.bind_eq_some_iff.1 ht
      exact ih (s := a) (by simpa [hn, FieldType.size?] using ha)

end ShaderBuild.Code
