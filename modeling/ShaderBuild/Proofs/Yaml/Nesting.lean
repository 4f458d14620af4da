import ShaderBuild.Proofs.Outcome
import ShaderBuild.Yaml.Printer
import ShaderBuild.Yaml.Value

namespace ShaderBuild.Yaml

/-- Some run of a reading has this result. -/
def Reading.MayGive {α : Type} (x : Reading α) (a : α) : Prop :=
  ∃ anchors left left', (x.run anchors).run left = .ok (a, left')

section MayGive

variable {α β : Type}

theorem Reading.MayGive.of_bind {x : Reading α} {f : α → Reading β} {b : β}
    (h : Reading.MayGive (x >>= f) b) : ∃ a, Reading.MayGive x a ∧ Reading.MayGive (f a) b := by
  obtain ⟨anchors, left, left', h⟩ := h
  rw [ReaderT.run_bind, StateT.run_bind] at h
  cases hx : (x.run anchors).run left with
  | error e => rw [hx] at h; cases h
  | ok r =>
    rw [hx] at h
    exact ⟨r.1, ⟨_, _, _, hx⟩, _, _, _, h⟩

theorem Reading.MayGive.of_mapM {reader : α → Reading β} {xs : List α} {ys : List β}
    (h : Reading.MayGive (xs.mapM reader) ys) : ∀ x ∈ xs, ∃ y, Reading.MayGive (reader x) y := by
  induction xs generalizing ys with
  | nil => nofun
  | cons x r ih =>
    rw [List.mapM_cons] at h
    obtain ⟨y, hy, h⟩ := h.of_bind
    obtain ⟨zs, hr, -⟩ := h.of_bind
    exact List.forall_mem_cons.2 ⟨⟨y, hy⟩, ih hr⟩

theorem Document.mayGive_of_read {d : Document} {reader : Option Node → Reading α} {a : α}
    (h : d.read reader = .ok a) : Reading.MayGive (reader d.root) a := by
  rw [Document.read, StateT.run'_eq] at h
  cases hr : ((reader d.root).run d.anchors).run (100 * d.root.elim 1 Node.size) with
  | error e => rw [hr] at h; cases h
  | ok r =>
    rw [hr] at h
    cases h
    exact ⟨_, _, _, hr⟩

theorem Document.read_of_eq_pure {d : Document} {reader : Option Node → Reading α} {a : α}
    (h : reader d.root = pure a) : d.read reader = .ok a := by
  rw [Document.read, h]
  rfl

theorem Reading.not_mayGive_throw (f : Fault) (a : α) : ¬Reading.MayGive (throw f) a := by
  rintro ⟨_, _, _, h⟩
  cases h

end MayGive

namespace Node

mutual

def depth : Node → Nat
  | reference _ | scalar .. => 0
  | sequence _ items => 1 + depthItems items
  | mapping _ entries => 1 + depthEntries entries

def depthItems : List Node → Nat
  | [] => 0
  | n :: r => max (depth n) (depthItems r)

def depthEntries : List (Node × Node) → Nat
  | [] => 0
  | (k, v) :: r => max (max (depth k) (depth v)) (depthEntries r)

end

theorem depthItems_le_iff {ns : List Node} {d : Nat} :
    depthItems ns ≤ d ↔ ∀ n ∈ ns, n.depth ≤ d := by
  induction ns with
  | nil => simp [depthItems]
  | cons n r ih => rw [depthItems, Nat.max_le, ih, List.forall_mem_cons]

theorem depthEntries_le_iff {es : List (Node × Node)} {d : Nat} :
    depthEntries es ≤ d ↔ ∀ e ∈ es, e.1.depth ≤ d ∧ e.2.depth ≤ d := by
  induction es with
  | nil => simp [depthEntries]
  | cons e r ih => rw [depthEntries, Nat.max_le, Nat.max_le, ih, List.forall_mem_cons]

theorem depth_sequence_le_iff {p : Properties} {ns : List Node} {d : Nat} :
    (sequence p ns).depth ≤ d ↔ ∃ e, d = e + 1 ∧ ∀ n ∈ ns, n.depth ≤ e := by
  simp only [depth, ← depthItems_le_iff]
  exact ⟨fun h => ⟨d - 1, by omega, by omega⟩, by rintro ⟨e, rfl, h⟩; omega⟩

theorem depth_mapping_le_iff {p : Properties} {es : List (Node × Node)} {d : Nat} :
    (mapping p es).depth ≤ d ↔ ∃ e, d = e + 1 ∧ ∀ f ∈ es, f.1.depth ≤ e ∧ f.2.depth ≤ e := by
  simp only [depth, ← depthEntries_le_iff]
  exact ⟨fun h => ⟨d - 1, by omega, by omega⟩, by rintro ⟨e, rfl, h⟩; omega⟩

@[simp]
theorem depth_labelled (label : String) (n : Node) : (n.labelled label).depth = n.depth := by
  cases n <;> simp [labelled, depth]

@[simp]
theorem depth_ofWord (s : String) : (ofWord s).depth = 0 := by simp [ofWord, depth]

theorem depth_record_le_iff {fields : List (String × Node)} {d : Nat} :
    (record fields).depth ≤ d ↔ ∃ e, d = e + 1 ∧ ∀ f ∈ fields, f.2.depth ≤ e := by
  simp only [record, depth_mapping_le_iff, List.forall_mem_map, depth_ofWord, Nat.zero_le,
    true_and]

end Node

namespace Value

open Node

-- The depth is matched behind a bind, so that `ofNode` is opened for one kind of node at a time.

theorem ofNode_sequence (d : Nat) (p : Properties) (ns : List Node) :
    ofNode (d + 1) (.sequence p ns) =
      return wrap (label? p) (sequence (← ns.mapM (ofNode d))) := by
  delta ofNode
  rfl

theorem ofNode_mapping (d : Nat) (p : Properties) (es : List (Node × Node)) :
    ofNode (d + 1) (.mapping p es) = do
      let entries ← es.mapM fun e => return (← ofNode d e.1, ← ofNode d e.2)
      return wrap (label? p) (mapping (← distinct entries)) := by
  delta ofNode
  rfl

theorem ofNode_zero_of_collection {n : Node} (h : 0 < n.depth) :
    ofNode 0 n = throw Fault.tooDeep := by
  cases n with
  | reference | scalar => simp [depth] at h
  | sequence | mapping =>
    delta ofNode
    rfl

/-- What is read as a value does not nest deeper than it may. -/
theorem depth_le_of_mayGive {d : Nat} {n : Node} {v : Value}
    (h : Reading.MayGive (ofNode d n) v) : n.depth ≤ d := by
  induction d generalizing n v with
  | zero =>
    obtain hn | hn := Nat.eq_zero_or_pos n.depth
    · exact Nat.le_of_eq hn
    · rw [ofNode_zero_of_collection hn] at h
      exact (Reading.not_mayGive_throw _ _ h).elim
  | succ d ih =>
    cases n with
    | reference | scalar => simp [depth]
    | sequence p ns =>
      rw [ofNode_sequence] at h
      obtain ⟨vs, h, -⟩ := h.of_bind
      refine depth_sequence_le_iff.2 ⟨d, rfl, fun n hn => ?_⟩
      obtain ⟨v, hv⟩ := h.of_mapM n hn
      exact ih hv
    | mapping p es =>
      rw [ofNode_mapping] at h
      obtain ⟨vs, h, -⟩ := h.of_bind
      refine depth_mapping_le_iff.2 ⟨d, rfl, fun e he => ?_⟩
      obtain ⟨v, hv⟩ := h.of_mapM e he
      obtain ⟨k, hk, hv⟩ := hv.of_bind
      obtain ⟨w, hw, -⟩ := hv.of_bind
      exact ⟨ih hk, ih hw⟩

end Value

end ShaderBuild.Yaml
