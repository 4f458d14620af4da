import Mathlib.Order.WellFounded
import ShaderBuild.Code.Cpp
import ShaderBuild.Proofs.Code.FieldBytes

namespace ShaderBuild.Code

/-- A field of the struct has this struct as its type, or an array of it. -/
def StructDecl.Names (d : StructDecl) (n : String) : Prop := ∃ f ∈ d.fields, f.type = .named n

def Enters (files : List File) (inner outer : String) : Prop :=
  ∃ d, struct? files outer = some d ∧ d.Names inner

theorem fieldSize_congr {g h : String → Option UInt32} {f : Field}
    (hgh : ∀ n, f.type = .named n → g n = h n) : fieldSize g f = fieldSize h f := by
  have hsize : f.type.size? g = f.type.size? h := by
    cases ht : f.type with
    | named n => exact hgh n ht
    | _ => rfl
  rw [fieldSize, fieldSize, hsize]

theorem fieldsSize_congr {g h : String → Option UInt32} {fs : List Field}
    (hgh : ∀ f ∈ fs, ∀ n, f.type = .named n → g n = h n) : fieldsSize g fs = fieldsSize h fs := by
  induction fs using List.reverseRecOn with
  | nil => rfl
  | append_singleton fs f ih =>
    have hf : fieldSize g f = fieldSize h f := fieldSize_congr (hgh f (by simp))
    rw [fieldsSize_snoc, fieldsSize_snoc, hf, ih fun e he => hgh e (List.mem_append_left _ he)]

section Rank

variable {files : List File} {rank : String → Nat}
  (hr : ∀ inner outer, Enters files inner outer → rank inner < rank outer)

include hr

theorem wellFounded_enters : WellFounded (Enters files) :=
  Subrelation.wf (hr _ _) (InvImage.wf rank Nat.lt_wfRel.wf)

theorem within_eq_of_rank {n : String} {k l : Nat} (hk : rank n < k) (hl : rank n < l) :
    within (struct? files) fieldsSize k n = within (struct? files) fieldsSize l n := by
  induction hn : rank n using Nat.strong_induction_on generalizing n k l with
  | _ m ih =>
    subst hn
    obtain ⟨k, rfl⟩ : ∃ i, k = i + 1 := ⟨k - 1, by omega⟩
    obtain ⟨l, rfl⟩ : ∃ i, l = i + 1 := ⟨l - 1, by omega⟩
    cases hd : struct? files n with
    | none => simp [within, hd]
    | some d =>
      rw [within_succ hd, within_succ hd]
      refine fieldsSize_congr fun f hf inner hinner => ?_
      have hlt := hr inner n ⟨d, hd, f, hf, hinner⟩
      exact ih _ hlt (by omega) (by omega) rfl

/-- Where the ranks lie below the number of structs, a size is that of the fields, and these are
measured with the sizes of the structs they name. -/
theorem structSize_eq_fieldsSize (hlt : ∀ n, rank n < structCount files) (n : String) :
    structSize files n =
      (struct? files n).bind fun d => fieldsSize (structSize files) d.fields := by
  have hn := within_eq_of_rank hr (hlt n) (Nat.lt_succ_of_lt (hlt n))
  rw [structSize_eq_within]
  exact hn

end Rank

/-- The structs that must be complete where an item stands: those in fields, and the base. -/
def Item.needs : Item → List String
  | .struct d => d.fields.filterMap fun f =>
    match f.type with
    | .named n => some n
    | _ => none
  | .wrapper d => [d.base]
  | _ => []

theorem Item.mem_needs_struct {d : StructDecl} {n : String} :
    n ∈ (Item.struct d).needs ↔ d.Names n := by
  simp only [needs, List.mem_filterMap, StructDecl.Names]
  refine exists_congr fun f => and_congr_right fun _ => ?_
  cases f.type <;> simp

/-- Every item needs only structs that are known or that an item before it declares. -/
def CompleteBeforeUse (known : List String) (items : List Item) : Prop :=
  ∀ before i after, items = before ++ i :: after →
    ∀ n ∈ i.needs, n ∈ known ∨ n ∈ (before.filterMap Item.struct?).map (·.name)

theorem CompleteBeforeUse.of_known {known : List String} {is : List Item}
    (h : ∀ i ∈ is, ∀ n ∈ i.needs, n ∈ known) : CompleteBeforeUse known is := by
  rintro before i after rfl n hn
  exact .inl (h i (by simp) n hn)

theorem CompleteBeforeUse.append {known : List String} {is js : List Item}
    (hi : CompleteBeforeUse known is)
    (hj : CompleteBeforeUse (known ++ (is.filterMap Item.struct?).map (·.name)) js) :
    CompleteBeforeUse known (is ++ js) := by
  intro before i after h n hn
  rcases List.append_eq_append_iff.1 h with ⟨more, rfl, hjs⟩ | ⟨more, his, hmore⟩
  · -- the item stands among the second ones
    have hk := hj more i after hjs n hn
    rw [List.mem_append, or_assoc] at hk
    rwa [List.filterMap_append, List.map_append, List.mem_append]
  · cases more with
    | nil =>
      obtain rfl : is = before := by simpa using his
      have hk := hj [] i after hmore.symm n hn
      simpa using hk
    | cons j rest =>
      obtain ⟨rfl, -⟩ := List.cons.inj hmore
      exact hi before i rest his n hn

namespace Cpp

/-- The first file that is written, the header, holds the includes and behind them the declarations
of the items in their order. -/
def WritesInOrder (f : File) : Prop :=
  ∃ header more, emit f = .ok (header :: more) ∧ header.name = f.name ++ ".h" ∧
    header.contents = Text.render ((preamble f).header ++
      f.items.flatMap fun i => (itemSides f.headerOnly i).header)

theorem itemsSides_header (headerOnly : Bool) (is : List Item) :
    (itemsSides headerOnly is).header = is.flatMap fun i => (itemSides headerOnly i).header := by
  induction is with
  | nil => rfl
  | cons i r ih => rw [itemsSides, List.flatMap_cons, ← ih, Sides.append]

theorem emptyBlobs?_eq_none {is : List Item} (h : ∀ i ∈ is, emptyBlob? i = none) :
    emptyBlobs? is = none := by
  induction is with
  | nil => rfl
  | cons i r ih =>
    obtain ⟨hi, hr⟩ := List.forall_mem_cons.1 h
    rw [emptyBlobs?, hi, ih hr, Option.none_or]

theorem writesInOrder {f : File} (h : emptyBlobs? f.items = none) : WritesInOrder f := by
  have hheader : (fileSides f).header = (preamble f).header ++
      f.items.flatMap fun i => (itemSides f.headerOnly i).header := by
    rw [fileSides, Sides.append, itemsSides_header]
  simp only [WritesInOrder, emit, h, hheader]
  cases f.headerOnly with
  | true => exact ⟨_, [], rfl, rfl, rfl⟩
  | false => exact ⟨_, [_], rfl, rfl, rfl⟩

end Cpp

end ShaderBuild.Code
