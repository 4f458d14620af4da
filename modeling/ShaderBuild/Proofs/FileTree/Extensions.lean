import Mathlib.Data.List.Induction
import ShaderBuild.Proofs.FileTree.Walk

namespace ShaderBuild.FileTree

variable {home : Location} {path : String}

theorem place_last (h : endsAsDirectory path = false) :
    (place home path).getLast? = some (String.ofList (Path.lastPart path.toList)) := by
  simp only [endsAsDirectory, List.contains_eq_mem, List.mem_cons, List.not_mem_nil, or_false,
    decide_eq_false_iff_not, not_or] at h
  obtain ⟨hne, hd, ha⟩ := h
  obtain ⟨ps, hps⟩ := Path.exists_lastPart path.toList
  rw [place, Path.names, hps, List.filter_append, List.foldl_append]
  simp [hne, hop, hd, ha]

def extensionAt (l : Location) : Option (List Char) :=
  l.getLast?.bind fun n => (Path.splitName n.toList).2

theorem extensionAt_place (home : Location) (h : endsAsDirectory path = false) :
    extensionAt (place home path) = Path.extensionChars? path.toList := by
  have hname : Path.fileNameChars? path.toList = some (Path.lastPart path.toList) := by
    simp only [endsAsDirectory, List.contains_eq_mem, List.mem_cons, List.not_mem_nil, or_false,
      decide_eq_false_iff_not, not_or] at h
    exact Path.fileNameChars?_lastPart (by simp [Path.isVacuous, h]) h.2.2
  rw [extensionAt, place_last h, Path.extensionChars?, hname, Option.bind_some, Option.bind_some,
    String.toList_ofList]

theorem extension_of_suffix (home : Location) {x ext : List Char}
    (hp : path.toList = x ++ '.' :: ext) (hs : Path.separator ∉ ext) (hd : '.' ∉ ext)
    (hne : ext ≠ []) :
    endsAsDirectory path = false ∧ extensionAt (place home path) =
      if Path.lastPart x = [] then none else some ext := by
  have hlast : Path.lastPart path.toList = Path.lastPart x ++ '.' :: ext := by
    have hplain : Path.separator ∉ '.' :: ext := by
      simpa [Path.separator] using hs
    rw [hp, Path.lastPart_append_plain x hplain]
  have hend : (Path.lastPart path.toList).getLast? ≠ some '.' := by
    have hlastExt : (Path.lastPart x ++ '.' :: ext).getLast? = ext.getLast? := by
      rw [List.append_cons, List.getLast?_append_of_ne_nil _ hne]
    rw [hlast, hlastExt]
    exact fun h => hd (List.mem_of_getLast? h)
  have hfile : endsAsDirectory path = false := by
    simp only [endsAsDirectory, List.contains_eq_mem, List.mem_cons, List.not_mem_nil, or_false,
      decide_eq_false_iff_not, not_or]
    exact ⟨by simp [hlast], fun h => hend (by rw [h]; rfl), fun h => hend (by rw [h]; rfl)⟩
  refine ⟨hfile, ?_⟩
  rw [extensionAt, place_last hfile, Option.bind_some, String.toList_ofList, hlast,
    Path.splitName_dot hd]

theorem extensionChars?_extendChars {cs ext : List Char} (hs : Path.separator ∉ ext)
    (hd : '.' ∉ ext) (hne : ext ≠ []) :
    Path.extensionChars? (Path.extendChars cs ext) ∈ [none, some ext] := by
  unfold Path.extendChars
  split
  next hn => simp [Path.extensionChars?, hn]
  next name hn =>
    have hpath := String.toList_ofList (l := (Path.splitHead cs).1 ++
      Path.joinParts ((Path.bodyParts cs).dropLast ++ [(Path.splitName name).1]) ++ '.' :: ext)
    obtain ⟨hfile, hext⟩ := extension_of_suffix [] hpath hs hd hne
    rw [extensionAt_place [] hfile, hpath] at hext
    dsimp only
    rw [hext]
    split <;> simp

theorem extensionChars?_withExtension {ext : String} (hs : Path.separator ∉ ext.toList)
    (hd : '.' ∉ ext.toList) (hne : ext.toList ≠ []) :
    Path.extensionChars? (Path.withExtension path ext).toList ∈ [none, some ext.toList] := by
  rw [Path.withExtension, String.toList_ofList]
  exact extensionChars?_extendChars hs hd hne

section Join

variable {n m : String}

/-- A name joined to a path stands in the place that the path leads to. -/
theorem place_join (hn : EntryName n) : place home (Path.join path n) = place home path ++ [n] := by
  rw [place, place, names_join hn, origin_join hn, List.foldl_append, List.foldl_cons,
    List.foldl_nil, hop_name hn]

theorem endsAsDirectory_join (hn : EntryName n) : endsAsDirectory (Path.join path n) = false := by
  simp [endsAsDirectory, lastPart_join hn, hn.nonempty, hn.here, hn.above]

theorem extensionAt_join (hn : EntryName n) :
    extensionAt (place home (Path.join path n)) = (Path.splitName n.toList).2 := by
  rw [place_join hn, extensionAt, List.getLast?_concat, Option.bind_some]

theorem extensionChars?_join (hn : EntryName n) :
    Path.extensionChars? (Path.join path n).toList = (Path.splitName n.toList).2 := by
  rw [← extensionAt_place [] (endsAsDirectory_join hn), extensionAt_join hn]

theorem place_join_inj (hn : EntryName n) (hm : EntryName m) :
    place home (Path.join path n) = place home (Path.join path m) ↔ n = m := by
  rw [place_join hn, place_join hm, List.append_cancel_left_eq, List.cons.injEq]
  simp

theorem WellFormed.steps_of_place {t : FileTree} (ht : WellFormed t) {l : Location}
    {ps : List (List Char)} (hup : ['.', '.'] ∉ ps)
    (hd : t.get? (ps.foldl hop l) = some .directory) :
    ps.foldlM t.step l = .ok (ps.foldl hop l) := by
  induction ps using List.reverseRecOn with
  | nil => rfl
  | append_singleton qs q ih =>
    rw [List.mem_append, not_or, List.mem_singleton] at hup
    obtain ⟨hqs, hq⟩ := hup
    have hlast : t.step (qs.foldl hop l) q = .ok (hop (qs.foldl hop l) q) ∧
        t.get? (qs.foldl hop l) = some .directory := by
      rw [List.foldl_append, List.foldl_cons, List.foldl_nil, hop] at hd
      rw [step_ok_iff]
      by_cases hdot : q = ['.']
      · rw [if_pos hdot] at hd
        exact ⟨⟨hd, .inl hdot, rfl⟩, hd⟩
      · rw [if_neg hdot, if_neg (Ne.symm hq)] at hd
        have hne : t.get? (qs.foldl hop l ++ [String.ofList q]) ≠ none := by simp [hd]
        have hparent := ht.parent _ _ hne
        exact ⟨⟨hparent, .inr (.inr (ht.name _ _ hne).short), rfl⟩, hparent⟩
    rw [List.foldlM_append, ih hqs hlast.2, List.foldl_append]
    simpa using hlast.1

theorem WellFormed.read_join {t : FileTree} (ht : WellFormed t) (hn : EntryName n)
    (hv : Valid (Path.join path n)) (hup : ['.', '.'] ∉ Path.names path.toList)
    {bytes : List UInt8} {x : Bool}
    (h : t.get? (place t.home (Path.join path n)) = some (.file bytes x)) :
    t.read (Path.join path n) = .ok bytes := by
  rw [place_join hn] at h
  have hdir : t.get? (place t.home path) = some .directory := ht.parent _ n (by simp [h])
  have hlocate : t.locate (Path.join path n) = .ok ⟨place t.home path ++ [n], false⟩ := by
    refine locate_ok_iff.2 ⟨hv, ?_, (endsAsDirectory_join hn).symm⟩
    rw [names_join hn, origin_join hn, List.foldlM_append, ht.steps_of_place hup hdir]
    simpa [place] using step_name hn hdir
  exact read_ok_iff.2 ⟨x, lookup_ok_iff.2 ⟨_, hlocate, h, fun _ => rfl⟩⟩

end Join

end ShaderBuild.FileTree
