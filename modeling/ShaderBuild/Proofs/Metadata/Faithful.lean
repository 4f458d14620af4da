import ShaderBuild.Metadata.DataStruct
import ShaderBuild.Proofs.Code.FieldBytes

namespace ShaderBuild.Metadata

open Code

structure Source where
  name : String
  members : List Member

mutual
/-- The structs inside the type of a member, each behind those it holds. -/
def sourcesIn (owner member : String) : MemberType → List Source
  | .scalar _ | .vector .. | .matrix .. => []
  | .array e _ _ => sourcesIn owner member e
  | .struct s ms =>
    let name := structName owner member s
    sourcesOf name ms ++ [⟨name, ms⟩]
def sourcesOf (owner : String) : List Member → List Source
  | [] => []
  | ⟨raw, _, t⟩ :: r => sourcesIn owner (Text.sanitize raw) t ++ sourcesOf owner r
end

/-- Fields that hold the members in order, each behind as many bytes as its offset says. -/
structure Laid (named : String → Option UInt32) (ms : List Member) (fields : List Field) :
    Prop where
  ordered : (ms.map fun m => Text.sanitize m.name).Sublist (fields.map (·.name))
  placed : ∀ m ∈ ms, ∃ before f after, fields = before ++ f :: after ∧
    f.name = Text.sanitize m.name ∧ fieldsSize named before = some m.offset ∧
    ∃ size, m.type.packedSize = .ok size ∧ fieldSize named f = some size

structure Faithful (named : String → Option UInt32) (ms : List Member) (fields : List Field) : Prop
    extends Laid named ms fields where
  distinct : (fields.map (·.name)).Nodup

section Laid

variable {g h : String → Option UInt32} {ms : List Member} {fields : List Field}

theorem Laid.nil : Laid g [] [] := ⟨.slnil, by simp⟩

theorem Laid.mono (hgh : Extends g h) (hl : Laid g ms fields) : Laid h ms fields := by
  refine ⟨hl.ordered, fun m hm => ?_⟩
  obtain ⟨before, f, after, he, hn, hb, size, hs, hf⟩ := hl.placed m hm
  exact ⟨before, f, after, he, hn, fieldsSize_mono _ _ hgh _ _ hb, size, hs, fieldSize_mono hgh hf⟩

theorem Faithful.mono (hgh : Extends g h) (hm : Faithful g ms fields) : Faithful h ms fields :=
  ⟨hm.toLaid.mono hgh, hm.distinct⟩

theorem Laid.append (hl : Laid g ms fields) (more : List Field) : Laid g ms (fields ++ more) := by
  refine ⟨?_, fun m hm => ?_⟩
  · rw [List.map_append]
    exact hl.ordered.trans (List.sublist_append_left ..)
  · obtain ⟨before, f, after, rfl, rest⟩ := hl.placed m hm
    exact ⟨before, f, after ++ more, by simp, rest⟩

/-- The next member goes behind fields that end at its offset. -/
theorem Laid.snoc (hl : Laid g ms fields) {m : Member} {f : Field} {size : UInt32}
    (ho : fieldsSize g fields = some m.offset) (hn : f.name = Text.sanitize m.name)
    (hp : m.type.packedSize = .ok size) (hf : fieldSize g f = some size) :
    Laid g (ms ++ [m]) (fields ++ [f]) := by
  refine ⟨?_, fun n hm => ?_⟩
  · rw [List.map_append, List.map_append]
    exact hl.ordered.append (by simp [hn])
  · rcases List.mem_append.1 hm with hm | hm
    · exact (hl.append [f]).placed n hm
    · obtain rfl := List.mem_singleton.1 hm
      exact ⟨fields, f, [], rfl, hn, ho, size, hp, hf⟩

end Laid

/-- Among `ds`, the fields of a struct of so many bytes that is faithful to its source. -/
structure Built (ds : List StructDecl) (ms : List Member) (size : UInt32) (fields : List Field) :
    Prop where
  total : fieldsSize (sizes ds) fields = some size
  spans : ∀ f ∈ fields, ∃ s, Spans (sizes ds) f s
  faithful : Faithful (sizes ds) ms fields

theorem Built.mono {ds es : List StructDecl} (h : ds <+: es) {ms : List Member} {size : UInt32}
    {fields : List Field} (hb : Built ds ms size fields) : Built es ms size fields := by
  have hx := sizes_extends h
  refine ⟨fieldsSize_mono _ _ hx _ _ hb.total, fun f hf => ?_, hb.faithful.mono hx⟩
  obtain ⟨s, hs⟩ := hb.spans f hf
  exact ⟨s, hs.mono hx⟩

structure Sound (ds : List StructDecl) : Prop where
  distinct : (ds.map (·.name)).Nodup
  sized : ∀ d ∈ ds, ∃ s, sizes ds d.name = some s

theorem Sound.nil : Sound [] := ⟨.nil, by simp⟩

def StandsFor (ds : List StructDecl) (c : Source) (d : StructDecl) : Prop :=
  d.name = c.name ∧ ∃ size, Built ds c.members size d.fields

/-- The structs of some sources were added, and nothing else. -/
structure Grows (ds : List StructDecl) (sources : List Source) (es : List StructDecl) : Prop where
  sound : Sound es
  kept : ds <+: es
  built : ∀ c ∈ sources, ∃ d ∈ es, StandsFor es c d
  origin : ∀ d ∈ es, d ∈ ds ∨ ∃ c ∈ sources, StandsFor es c d

theorem StandsFor.mono {ds es : List StructDecl} (h : ds <+: es) {c : Source} {d : StructDecl}
    (hm : StandsFor ds c d) : StandsFor es c d := by
  obtain ⟨hn, size, hb⟩ := hm
  exact ⟨hn, size, hb.mono h⟩

theorem Grows.refl {ds : List StructDecl} (h : Sound ds) : Grows ds [] ds :=
  ⟨h, List.prefix_rfl, by simp, fun _ hd => .inl hd⟩

theorem Grows.trans {ds es gs : List StructDecl} {xs ys : List Source} (h : Grows ds xs es)
    (k : Grows es ys gs) : Grows ds (xs ++ ys) gs := by
  refine ⟨k.sound, h.kept.trans k.kept, fun c hc => ?_, fun d hd => ?_⟩
  · rcases List.mem_append.1 hc with hc | hc
    · obtain ⟨d, hd, hm⟩ := h.built c hc
      exact ⟨d, k.kept.subset hd, hm.mono k.kept⟩
    · exact k.built c hc
  · rcases k.origin d hd with hd | ⟨c, hc, hm⟩
    · rcases h.origin d hd with hd | ⟨c, hc, hm⟩
      · exact .inl hd
      · exact .inr ⟨c, List.mem_append_left _ hc, hm.mono k.kept⟩
    · exact .inr ⟨c, List.mem_append_right _ hc, hm⟩

end ShaderBuild.Metadata
