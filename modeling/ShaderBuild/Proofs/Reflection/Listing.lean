import ShaderBuild.Proofs.Steady
import ShaderBuild.Reflection.Discovery

namespace ShaderBuild

/-- What is done for the elements that have a key succeeds where it succeeds for each of them. -/
theorem filterMapM_ok_iff {ε α β κ : Type} {key : α → Option κ} {f : κ → α → Except ε β}
    {xs : List α} {ys : List β} : (xs.filterMapM fun x => (key x).mapM (f · x)) = .ok ys ↔
      List.Forall₂ (fun x y => ∃ k, key x = some k ∧ f k x = .ok y)
        (xs.filter fun x => (key x).isSome) ys := by
  induction xs generalizing ys with
  | nil =>
    rw [List.filter_nil, List.forall₂_nil_left_iff]
    exact ⟨fun h => by cases h; rfl, fun h => h ▸ rfl⟩
  | cons x r ih =>
    rw [List.filterMapM_cons, bind_ok_iff]
    cases hk : key x with
    | none =>
      rw [List.filter_cons_of_neg (by simp [hk]), ← ih]
      exact ⟨fun ⟨_, ho, h⟩ => by cases ho; exact h, fun h => ⟨none, rfl, h⟩⟩
    | some k =>
      rw [List.filter_cons_of_pos (by simp [hk]), List.forall₂_cons_left_iff]
      simp only [← ih, hk]
      constructor
      · rintro ⟨o, ho, h⟩
        obtain ⟨y, hy, rfl⟩ := (map_ok_iff ..).1 ho
        obtain ⟨zs, hzs, h⟩ := (bind_ok_iff ..).1 h
        exact ⟨y, zs, ⟨k, rfl, hy⟩, hzs, ((pure_ok_iff ..).1 h).symm⟩
      · rintro ⟨y, zs, ⟨_, hk', hy⟩, hzs, rfl⟩
        cases hk'
        exact ⟨some y, (map_ok_iff ..).2 ⟨y, hy, rfl⟩, (bind_ok_iff ..).2 ⟨zs, hzs, rfl⟩⟩

/-- The binding of a descriptor in the bucket of its kind. -/
def Binding.IsOf (d : Spirv.Descriptor) (b : Binding) : Prop :=
  ∃ bucket, Bucket.ofKind? d.kind = some bucket ∧ Binding.ofDescriptor bucket d = .ok b

def Spirv.Descriptor.isBound (d : Spirv.Descriptor) : Bool := (Bucket.ofKind? d.kind).isSome

/-- An entry point with the descriptors that are listed for it. -/
abbrev Listing := Spirv.EntryPoint × List Spirv.Descriptor

def Listing.stage? (l : Listing) : Option Stage := Stage.ofExecutionModel? l.1.model

namespace StageReflection

def bound (ds : List Spirv.Descriptor) : Except Error (List Binding) :=
  ds.filterMapM fun d => (Bucket.ofKind? d.kind).mapM (Binding.ofDescriptor · d)

def ofListed (stage : Stage) (l : Listing) : Except Error StageReflection := do
  return ⟨stage, l.1.name, (← bound l.2).mergeSort Binding.precedes⟩

theorem bound_ok_iff {ds : List Spirv.Descriptor} {bs : List Binding} :
    bound ds = .ok bs ↔ List.Forall₂ Binding.IsOf (ds.filter (·.isBound)) bs := filterMapM_ok_iff

theorem ofListed_ok_iff {stage : Stage} {l : Listing} {s : StageReflection} :
    ofListed stage l = .ok s ↔ ∃ bs, List.Forall₂ Binding.IsOf (l.2.filter (·.isBound)) bs ∧
      s = ⟨stage, l.1.name, bs.mergeSort Binding.precedes⟩ := by
  simp only [ofListed, bind_ok_iff, pure_ok_iff, bound_ok_iff]
  exact exists_congr fun _ => and_congr_right' eq_comm

def IsOf (l : Listing) (s : StageReflection) : Prop :=
  ∃ stage, l.stage? = some stage ∧ ofListed stage l = .ok s

theorem bindingOf?_gives (stage : Stage) (entryPoint : String) (d : Spirv.Descriptor) :
    Gives (fun _ => True) (bindingOf? stage entryPoint d)
      ((Bucket.ofKind? d.kind).mapM (Binding.ofDescriptor · d)) := by
  unfold bindingOf?
  cases Bucket.ofKind? d.kind with
  | none => exact (Gives.note _ _ _).bind (.pure none)
  | some bucket =>
    have htail (message : Binding → String) : Gives (fun _ => True) (do
        let b ← Logged.attempt (Binding.ofDescriptor bucket d)
        Logged.note .trace .reflection (message b)
        return some b) (some <$> Binding.ofDescriptor bucket d) := by
      rw [map_eq_pure_bind]
      exact (Gives.attempt _).both fun b => (Gives.note _ _ _).bind (.pure (some b))
    dsimp only
    split
    · exact (Gives.forIn (fun _ => .note _ _ _) _).bind (htail _)
    · exact htail _

theorem ofListing_gives (stage : Stage) (l : Listing) :
    Gives (fun _ => True) (ofListing stage l.1.name l.2) (ofListed stage l) :=
  (Gives.filterMapM_each (bindingOf?_gives stage l.1.name) l.2).both fun _ =>
    (Gives.note _ _ _).bind (.pure _)

end StageReflection

def inStageOrder (ss : List StageReflection) : List StageReflection :=
  ss.mergeSort fun a b => a.stage.index ≤ b.stage.index

namespace Reflection

def ofListed (language : SourceLanguage) (ls : List Listing) : Except Error Reflection := do
  let stages ← ls.filterMapM fun l => l.stage?.mapM (StageReflection.ofListed · l)
  return ⟨language, inStageOrder stages⟩

theorem ofListed_ok_iff {language : SourceLanguage} {ls : List Listing} {r : Reflection} :
    ofListed language ls = .ok r ↔ ∃ ss,
      List.Forall₂ StageReflection.IsOf (ls.filter (·.stage?.isSome)) ss ∧
      r = ⟨language, inStageOrder ss⟩ := by
  simp only [ofListed, bind_ok_iff, pure_ok_iff, filterMapM_ok_iff]
  exact exists_congr fun _ => and_congr_right' eq_comm

theorem stageOf?_gives (l : Listing) :
    Gives (fun _ => True) (stageOf? l.1 l.2)
      (l.stage?.mapM (StageReflection.ofListed · l)) := by
  unfold stageOf? Listing.stage?
  cases Stage.ofExecutionModel? l.1.model with
  | none => exact (Gives.note _ _ _).bind (.pure none)
  | some stage => exact (StageReflection.ofListing_gives stage l).map some

theorem ofListings_gives (language : SourceLanguage) (ls : List Listing) :
    Gives (fun _ => True) (ofListings language ls) (ofListed language ls) :=
  (Gives.filterMapM_each stageOf?_gives ls).both fun _ => .pure _

/-- Every binding that is found in a module is that of one of its descriptors. -/
theorem ofWords_returns {words : List UInt32} {r : Reflection} (h : Returns (ofWords words) r) :
    ∃ m, Spirv.Module.ofWords words = .ok m ∧
      ∀ s ∈ r.stages, ∀ b ∈ s.bindings, ∃ d ∈ m.descriptors, b.IsOf d := by
  unfold ofWords at h
  split at h
  · cases h.attempt
  split at h
  · cases h.attempt
  · next m hm =>
    refine ⟨m, hm, fun s hs b hb => ?_⟩
    obtain ⟨ss, hss, rfl⟩ := ofListed_ok_iff.1 ((ofListings_gives _ _).returns h)
    obtain ⟨l, hl, stage, -, hs⟩ := exists_of_forall₂ hss.flip (List.mem_mergeSort.1 hs)
    obtain ⟨bs, hbs, rfl⟩ := StageReflection.ofListed_ok_iff.1 hs
    obtain ⟨d, hd, hof⟩ := exists_of_forall₂ hbs.flip (List.mem_mergeSort.1 hb)
    obtain ⟨e, -, rfl⟩ := List.mem_map.1 (List.mem_filter.1 hl).1
    exact ⟨d, (List.mem_filter.1 hd).1, hof⟩

end Reflection

end ShaderBuild
