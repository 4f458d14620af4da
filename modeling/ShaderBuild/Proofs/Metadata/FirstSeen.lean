import Mathlib.Data.List.Induction
import Mathlib.Data.List.Nodup
import ShaderBuild.Metadata.Registry
import ShaderBuild.Proofs.Outcome

namespace ShaderBuild

section Distinct

variable {α : Type} [BEq α] [LawfulBEq α]

theorem eraseDups_snoc_of_mem {xs : List α} {x : α} (h : x ∈ xs) :
    (xs ++ [x]).eraseDups = xs.eraseDups := by
  simp [List.eraseDups_append, List.cons_removeAll, h]

theorem eraseDups_snoc_of_not_mem {xs : List α} {x : α} (h : x ∉ xs) :
    (xs ++ [x]).eraseDups = xs.eraseDups ++ [x] := by
  simp [List.eraseDups_append, List.cons_removeAll, List.eraseDups_cons, h]

theorem nodup_eraseDups (xs : List α) : xs.eraseDups.Nodup := by
  induction xs using List.reverseRecOn with
  | nil => exact .nil
  | append_singleton xs x ih =>
    by_cases hx : x ∈ xs
    · rwa [eraseDups_snoc_of_mem hx]
    · rw [eraseDups_snoc_of_not_mem hx, ← List.concat_eq_append]
      exact ih.concat (by simpa [List.mem_eraseDups] using hx)

/-- Among distinct elements, what is found is where it is. -/
theorem findIdx?_of_nodup {xs : List α} (h : xs.Nodup) {x : α} {i : Nat} :
    xs.findIdx? (· == x) = some i ↔ xs[i]? = some x := by
  rw [List.findIdx?_eq_some_iff_getElem, List.getElem?_eq_some_iff]
  constructor
  · rintro ⟨hi, he, -⟩
    exact ⟨hi, eq_of_beq he⟩
  · rintro ⟨hi, rfl⟩
    refine ⟨hi, beq_self_eq_true _, fun j hj he => ?_⟩
    have hij := (h.getElem_inj_iff).1 (eq_of_beq he)
    omega

end Distinct

/-- A binding where it stands: in a stage of a shader in some language. -/
structure Sighting where
  language : SourceLanguage
  stage : Stage
  binding : Binding

namespace Sighting

def name (s : Sighting) : String := s.binding.name

def insert (s : Sighting) (t : ResourceTable) : Except Error (UInt32 × ResourceTable) :=
  t.insert s.binding (.ofStage s.stage) s.language

end Sighting

def stagesOf (ss : List Sighting) (name : String) : StageMask :=
  (ss.filter (·.name == name)).foldl (fun mask s => mask.union (.ofStage s.stage)) .empty

/-- A resource is declared as it was first seen, with a layout that was the same wherever it was
seen. -/
structure Describes (ss : List Sighting) (r : Resource) : Prop where
  first : ∃ s, ss.find? (·.name == r.name) = some s ∧ r.set = s.binding.set ∧
    r.slot = s.binding.slot ∧ r.language = s.language
  layout : ∀ s ∈ ss, s.name = r.name → s.binding.layout.mapM BufferLayout.element = .ok r.layout
  stages : r.stages = stagesOf ss r.name

/-- A table lists the names seen in its bucket in the order of their first sighting. Its entries are
numbered by their positions, and the name map gives each name its number. -/
structure Numbered (b : Bucket) (ss : List Sighting) (t : ResourceTable) : Prop where
  bucket : t.bucket = b
  names : t.entries.map (·.name) = (ss.map Sighting.name).eraseDups
  number : ∀ i (r : Resource), t.entries[i]? = some r → r.id = .ofNat i ∧ r.bucket = b
  ids : ∀ n, t.idOf? n = ((t.entries.map (·.name)).findIdx? (· == n)).map .ofNat

/-- A table knows what was seen in its bucket. -/
structure FirstSeen (b : Bucket) (ss : List Sighting) (t : ResourceTable) : Prop
    extends Numbered b ss t where
  described : ∀ r ∈ t.entries, Describes ss r

section Describes

variable {ss : List Sighting} {r : Resource} {s : Sighting}

theorem Describes.other (h : Describes ss r) (hn : s.name ≠ r.name) : Describes (ss ++ [s]) r := by
  obtain ⟨f, hf, hdecl⟩ := h.first
  refine ⟨⟨f, by rw [List.find?_append, hf, Option.some_or], hdecl⟩, fun e he hne => ?_, ?_⟩
  · rcases List.mem_append.1 he with he | he
    · exact h.layout e he hne
    · exact absurd (List.mem_singleton.1 he ▸ hne) hn
  · simp [stagesOf, h.stages, List.filter_append, hn]

theorem Describes.again (h : Describes ss r) (hn : s.name = r.name)
    (hl : s.binding.layout.mapM BufferLayout.element = .ok r.layout) :
    Describes (ss ++ [s]) { r with stages := r.stages.union (.ofStage s.stage) } := by
  obtain ⟨f, hf, hdecl⟩ := h.first
  refine ⟨⟨f, by rw [List.find?_append, hf, Option.some_or], hdecl⟩, fun e he hne => ?_, ?_⟩
  · rcases List.mem_append.1 he with he | he
    · exact h.layout e he hne
    · exact List.mem_singleton.1 he ▸ hl
  · simp [stagesOf, h.stages, List.filter_append, hn]

theorem Describes.fresh {id : UInt32} {b : Bucket} {layout : Option BufferLayout}
    (hn : s.name ∉ ss.map Sighting.name)
    (hl : s.binding.layout.mapM BufferLayout.element = .ok layout) :
    Describes (ss ++ [s]) ⟨id, s.name, b, layout, s.language, .ofStage s.stage, s.binding.set,
      s.binding.slot⟩ := by
  have hne : ∀ e ∈ ss, e.name ≠ s.name := fun e he hx => hn (hx ▸ List.mem_map_of_mem he)
  have hnone : ss.find? (·.name == s.name) = none := by simpa using hne
  refine ⟨⟨s, by simp [List.find?_append, hnone], rfl, rfl, rfl⟩, fun e he hx => ?_, ?_⟩
  · rcases List.mem_append.1 he with he | he
    · exact absurd hx (hne e he)
    · exact List.mem_singleton.1 he ▸ hl
  · have hfilter : ss.filter (·.name == s.name) = [] := by simpa using hne
    simp [stagesOf, List.filter_append, hfilter, StageMask.union, StageMask.empty]

end Describes

section Tables

variable {b : Bucket} {ss : List Sighting} {t : ResourceTable}

namespace Numbered

theorem mem_names (h : Numbered b ss t) {n : String} :
    n ∈ t.entries.map (·.name) ↔ n ∈ ss.map Sighting.name := by
  rw [h.names, List.mem_eraseDups]

theorem exists_entry (h : Numbered b ss t) {n : String} (hn : n ∈ ss.map Sighting.name) :
    ∃ r ∈ t.entries, r.name = n := List.mem_map.1 (h.mem_names.2 hn)

theorem nodup (h : Numbered b ss t) : (t.entries.map (·.name)).Nodup := by
  rw [h.names]
  exact nodup_eraseDups _

theorem size_eq (h : Numbered b ss t) : t.size = (ss.map Sighting.name).eraseDups.length := by
  rw [← h.names, List.length_map, ResourceTable.size]

theorem idOf?_eq (h : Numbered b ss t) {n : String} {id : UInt32} :
    t.idOf? n = some id ↔ ∃ i r, t.entries[i]? = some r ∧ r.name = n ∧ id = .ofNat i := by
  rw [h.ids, Option.map_eq_some_iff]
  simp only [findIdx?_of_nodup h.nodup, List.getElem?_map, Option.map_eq_some_iff]
  constructor
  · rintro ⟨i, ⟨r, hr, hn⟩, rfl⟩
    exact ⟨i, r, hr, hn, rfl⟩
  · rintro ⟨i, r, hr, hn, rfl⟩
    exact ⟨i, ⟨r, hr, hn⟩, rfl⟩

theorem idOf?_none (h : Numbered b ss t) {n : String} :
    t.idOf? n = none ↔ n ∉ ss.map Sighting.name := by
  rw [h.ids, Option.map_eq_none_iff, List.findIdx?_eq_none_iff, ← h.mem_names]
  simp

theorem index_eq (h : Numbered b ss t) {i j : Nat} {r e : Resource}
    (hr : t.entries[i]? = some r) (he : t.entries[j]? = some e) (hn : r.name = e.name) : i = j := by
  have hi := (findIdx?_of_nodup h.nodup (x := r.name) (i := i)).2 (by simp [hr])
  have hj := (findIdx?_of_nodup h.nodup (x := r.name) (i := j)).2 (by simp [he, hn])
  exact Option.some.inj (hi.symm.trans hj)

theorem toNat_ofNat (hb : t.size ≤ UInt32.size) {i : Nat} {r : Resource}
    (hr : t.entries[i]? = some r) : (UInt32.ofNat i).toNat = i := by
  obtain ⟨hi, -⟩ := List.getElem?_eq_some_iff.1 hr
  exact UInt32.toNat_ofNat_of_lt' (Nat.lt_of_lt_of_le hi hb)

theorem find?_eq (h : Numbered b ss t) (hb : t.size ≤ UInt32.size) {n : String} {r : Resource} :
    t.find? n = some r ↔ r ∈ t.entries ∧ r.name = n := by
  rw [ResourceTable.find?, Option.bind_eq_some_iff]
  constructor
  · rintro ⟨id, hx, hr⟩
    obtain ⟨i, e, he, hn, rfl⟩ := h.idOf?_eq.1 hx
    rw [ResourceTable.get?, toNat_ofNat hb he, he] at hr
    obtain rfl := Option.some.inj hr
    exact ⟨List.mem_of_getElem? he, hn⟩
  · rintro ⟨hr, hn⟩
    obtain ⟨i, hi⟩ := List.mem_iff_getElem?.1 hr
    refine ⟨.ofNat i, h.idOf?_eq.2 ⟨i, r, hi, hn, rfl⟩, ?_⟩
    rw [ResourceTable.get?, toNat_ofNat hb hi, hi]

theorem get?_isSome (h : Numbered b ss t) {n : String} {id : UInt32} (hn : t.idOf? n = some id) :
    ∃ r, t.get? id = some r := by
  obtain ⟨i, r, hr, -, rfl⟩ := h.idOf?_eq.1 hn
  obtain ⟨hi, -⟩ := List.getElem?_eq_some_iff.1 hr
  have hle : (UInt32.ofNat i).toNat ≤ i := by simpa using Nat.mod_le ..
  exact ⟨_, List.getElem?_eq_getElem (Nat.lt_of_le_of_lt hle hi)⟩

theorem find?_none (h : Numbered b ss t) {n : String} :
    t.find? n = none ↔ ∀ r ∈ t.entries, r.name ≠ n := by
  constructor
  · intro hn r hr he
    obtain ⟨i, hi⟩ := List.mem_iff_getElem?.1 hr
    have hid := h.idOf?_eq.2 ⟨i, r, hi, he, rfl⟩
    obtain ⟨e, he⟩ := h.get?_isSome hid
    rw [ResourceTable.find?, hid, Option.bind_some, he] at hn
    cases hn
  · intro hn
    have hmem : n ∉ ss.map Sighting.name := by
      rw [← h.mem_names]
      simpa using hn
    rw [ResourceTable.find?, h.idOf?_none.2 hmem, Option.bind_none]

theorem mark_names (t : ResourceTable) (id : UInt32) (stages : StageMask) :
    (t.mark id stages).entries.map (·.name) = t.entries.map (·.name) := by
  refine List.ext_getElem? fun j => ?_
  simp only [ResourceTable.mark, List.getElem?_map, List.getElem?_modify]
  by_cases hj : id.toNat = j <;> simp [hj, Function.comp_def]

theorem mark {s : Sighting} (h : Numbered b ss t) (hn : s.name ∈ ss.map Sighting.name)
    (id : UInt32) (stages : StageMask) : Numbered b (ss ++ [s]) (t.mark id stages) := by
  refine ⟨h.bucket, ?_, fun i r hr => ?_, fun n => ?_⟩
  · rw [mark_names, h.names, List.map_append, List.map_singleton, eraseDups_snoc_of_mem hn]
  · simp only [ResourceTable.mark, List.getElem?_modify, Option.map_eq_map,
      Option.map_eq_some_iff] at hr
    obtain ⟨e, he, rfl⟩ := hr
    have hnumber := h.number i e he
    by_cases hj : id.toNat = i <;> simpa [hj] using hnumber
  · rw [mark_names]
    exact h.ids n

theorem append {s : Sighting} (h : Numbered b ss t) (hn : s.name ∉ ss.map Sighting.name)
    (layout : Option BufferLayout) (stages : StageMask) (language : SourceLanguage) :
    Numbered b (ss ++ [s]) (t.append s.binding layout stages language).2 := by
  have hnames : (t.append s.binding layout stages language).2.entries.map (·.name) =
      t.entries.map (·.name) ++ [s.name] := by
    simp [ResourceTable.append, Sighting.name]
  refine ⟨h.bucket, ?_, fun i r hr => ?_, fun n => ?_⟩
  · rw [hnames, h.names, List.map_append, List.map_singleton, eraseDups_snoc_of_not_mem hn]
  · simp only [ResourceTable.append, List.getElem?_append] at hr
    split at hr
    · exact h.number i r hr
    · next hi =>
      obtain ⟨hi', rfl⟩ := List.getElem?_eq_some_iff.1 hr
      obtain rfl : i = t.entries.length := by simp at hi'; omega
      simp [h.bucket, ResourceTable.size]
  · rw [hnames, List.findIdx?_append]
    simp only [ResourceTable.append, ResourceTable.idOf?, List.lookup_cons]
    by_cases hx : n = s.name
    · subst hx
      have hnone : (t.entries.map (·.name)).findIdx? (· == s.name) = none := by
        rw [← Option.map_eq_none_iff (f := UInt32.ofNat), ← h.ids, h.idOf?_none]
        exact hn
      rw [hnone]
      simp [Sighting.name, ResourceTable.size]
    · have hb : (n == s.binding.name) = false := by simpa [Sighting.name] using hx
      rw [hb]
      exact (h.ids n).trans (by simp [Ne.symm hx])

end Numbered

/-- Registering a sighting marks the entry of its name, which has the same layout, or appends one. -/
theorem Numbered.insert_ok {t' : ResourceTable} {id : UInt32} {s : Sighting} (h : Numbered b ss t)
    (hi : s.insert t = .ok (id, t')) :
    ∃ layout, s.binding.layout.mapM BufferLayout.element = .ok layout ∧
      ((s.name ∈ ss.map Sighting.name ∧ t.idOf? s.name = some id ∧
          (∃ r, t.find? s.name = some r ∧ r.layout = layout) ∧
          t' = t.mark id (.ofStage s.stage)) ∨
        (s.name ∉ ss.map Sighting.name ∧
          t' = (t.append s.binding layout (.ofStage s.stage) s.language).2)) := by
  simp only [Sighting.insert, ResourceTable.insert, bind_ok_iff] at hi
  obtain ⟨layout, hl, hi⟩ := hi
  refine ⟨layout, hl, ?_⟩
  cases hid : t.idOf? s.binding.name with
  | none =>
    simp only [hid] at hi
    cases hi
    exact .inr ⟨h.idOf?_none.1 hid, rfl⟩
  | some k =>
    obtain ⟨r, hr⟩ := h.get?_isSome hid
    have hfind : t.find? s.binding.name = some r := by rw [ResourceTable.find?, hid]; exact hr
    simp only [hid, hfind] at hi
    split at hi
    · next hlayout =>
      cases hi
      have hmem : s.name ∈ ss.map Sighting.name := by
        by_contra hn
        exact absurd (h.idOf?_none.2 hn) (by simp [Sighting.name, hid])
      exact .inl ⟨hmem, hid, ⟨r, hfind, hlayout⟩, rfl⟩
    · cases hi

/-- Numbers hold in tables of any size. -/
theorem Numbered.insert {t' : ResourceTable} {id : UInt32} {s : Sighting} (h : Numbered b ss t)
    (hi : s.insert t = .ok (id, t')) : Numbered b (ss ++ [s]) t' := by
  obtain ⟨layout, -, ⟨hn, -, -, rfl⟩ | ⟨hn, rfl⟩⟩ := h.insert_ok hi
  · exact h.mark hn _ _
  · exact h.append hn _ _ _

namespace FirstSeen

theorem empty (b : Bucket) : FirstSeen b [] (.empty b) :=
  ⟨⟨rfl, rfl, by simp [ResourceTable.empty], fun _ => rfl⟩, by simp [ResourceTable.empty]⟩

theorem mark {s : Sighting} {r : Resource} {id : UInt32} (h : FirstSeen b ss t)
    (hb : t.size ≤ UInt32.size) (hid : t.idOf? s.name = some id) (hr : t.find? s.name = some r)
    (hl : s.binding.layout.mapM BufferLayout.element = .ok r.layout) :
    ∀ e ∈ (t.mark id (.ofStage s.stage)).entries, Describes (ss ++ [s]) e := by
  -- the map gives the name the number of its own entry, which is therefore the one found
  obtain ⟨i, r', hri, hname, rfl⟩ := h.idOf?_eq.1 hid
  obtain rfl : r' = r := by
    have hr' := (h.find?_eq hb).2 ⟨List.mem_of_getElem? hri, hname⟩
    exact Option.some.inj (hr'.symm.trans hr)
  intro e he
  obtain ⟨j, hj⟩ := List.mem_iff_getElem?.1 he
  simp only [ResourceTable.mark, Numbered.toNat_ofNat hb hri, List.getElem?_modify] at hj
  by_cases hij : i = j
  · subst hij
    obtain rfl : { r' with stages := r'.stages.union (.ofStage s.stage) } = e := by
      simpa [hri] using hj
    exact (h.described r' (List.mem_of_getElem? hri)).again hname.symm hl
  · have hej : t.entries[j]? = some e := by simpa [hij] using hj
    refine (h.described e (List.mem_of_getElem? hej)).other fun hne => hij ?_
    exact h.index_eq hri hej (hname.trans hne)

theorem insert {t' : ResourceTable} {id : UInt32} {s : Sighting} (h : FirstSeen b ss t)
    (hb : t.size ≤ UInt32.size) (hi : s.insert t = .ok (id, t')) : FirstSeen b (ss ++ [s]) t' := by
  refine ⟨h.toNumbered.insert hi, ?_⟩
  obtain ⟨layout, hl, ⟨hn, hid, ⟨r, hr, rfl⟩, rfl⟩ | ⟨hn, rfl⟩⟩ := h.toNumbered.insert_ok hi
  · exact h.mark hb hid hr hl
  · intro e he
    rcases List.mem_append.1 he with he | he
    · refine (h.described e he).other fun hne => hn ?_
      exact hne ▸ h.mem_names.1 (List.mem_map_of_mem he)
    · obtain rfl := List.mem_singleton.1 he
      exact Describes.fresh hn hl

end FirstSeen

end Tables

end ShaderBuild
