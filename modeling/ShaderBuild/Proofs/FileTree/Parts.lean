import Mathlib.Tactic.Tauto
import ShaderBuild.Path

namespace ShaderBuild.Path

def lastPart (cs : List Char) : List Char := (parts cs).getLast?.getD []

def names (cs : List Char) : List (List Char) := (parts cs).filter (· != [])

section Parts

theorem parts_sep (cs : List Char) : parts (separator :: cs) = [] :: parts cs := by
  simp [parts]

theorem exists_parts (cs : List Char) : ∃ p ps, parts cs = p :: ps := by
  cases h : parts cs with
  | nil =>
    cases cs with
    | nil => cases h
    | cons c r =>
      rw [parts] at h
      split at h
      · cases h
      · split at h <;> cases h
  | cons p ps => exact ⟨p, ps, rfl⟩

theorem parts_cons {c : Char} (hc : c ≠ separator) {cs p : List Char} {ps : List (List Char)}
    (h : parts cs = p :: ps) : parts (c :: cs) = (c :: p) :: ps := by
  simp [parts, hc, h]

theorem parts_plain {cs : List Char} (h : separator ∉ cs) : parts cs = [cs] := by
  induction cs with
  | nil => rfl
  | cons c r ih =>
    rw [List.mem_cons, not_or] at h
    exact parts_cons (Ne.symm h.1) (ih h.2)

theorem parts_append_sep (a b : List Char) : parts (a ++ separator :: b) = parts a ++ parts b := by
  induction a with
  | nil => exact parts_sep b
  | cons c r ih =>
    by_cases hc : c = separator
    · rw [hc, List.cons_append, parts_sep, ih, parts_sep, List.cons_append]
    · obtain ⟨p, ps, h⟩ := exists_parts r
      rw [h, List.cons_append] at ih
      rw [List.cons_append, parts_cons hc ih, parts_cons hc h, List.cons_append]

theorem plain_of_mem_parts {cs p : List Char} (h : p ∈ parts cs) : separator ∉ p ∧ p ⊆ cs := by
  induction cs generalizing p with
  | nil =>
    obtain rfl := List.mem_singleton.1 h
    simp
  | cons c r ih =>
    by_cases hc : c = separator
    · rw [hc, parts_sep, List.mem_cons] at h
      rcases h with rfl | h
      · simp
      · exact ⟨(ih h).1, fun _ hm => List.mem_cons_of_mem _ ((ih h).2 hm)⟩
    · obtain ⟨q, qs, hq⟩ := exists_parts r
      rw [parts_cons hc hq, List.mem_cons] at h
      rcases h with rfl | h
      · obtain ⟨hplain, hsub⟩ := ih (hq ▸ List.mem_cons_self : q ∈ parts r)
        exact ⟨by simp [hplain, Ne.symm hc], List.cons_subset_cons _ hsub⟩
      · obtain ⟨hplain, hsub⟩ := ih (hq ▸ List.mem_cons_of_mem _ h : p ∈ parts r)
        exact ⟨hplain, fun _ hm => List.mem_cons_of_mem _ (hsub hm)⟩

theorem lastPart_of_parts {cs last : List Char} {ps : List (List Char)}
    (h : parts cs = ps ++ [last]) : lastPart cs = last := by
  simp [lastPart, h]

theorem exists_lastPart (cs : List Char) : ∃ ps, parts cs = ps ++ [lastPart cs] := by
  obtain ⟨p, ps, h⟩ := exists_parts cs
  have hne : parts cs ≠ [] := by simp [h]
  obtain ⟨qs, q, hq⟩ := (List.eq_nil_or_concat (parts cs)).resolve_left hne
  rw [List.concat_eq_append] at hq
  exact ⟨qs, by rw [lastPart_of_parts hq, hq]⟩

theorem lastPart_append_sep (a b : List Char) : lastPart (a ++ separator :: b) = lastPart b := by
  obtain ⟨ps, hps⟩ := exists_lastPart b
  have h := parts_append_sep a b
  rw [hps, ← List.append_assoc] at h
  exact lastPart_of_parts h

theorem parts_append_plain {a b last : List Char} {ps : List (List Char)}
    (ha : parts a = ps ++ [last]) (hb : separator ∉ b) : parts (a ++ b) = ps ++ [last ++ b] := by
  induction a generalizing ps last with
  | nil =>
    obtain ⟨rfl, rfl⟩ := List.append_singleton_inj.1 (show [] ++ [[]] = ps ++ [last] from ha)
    exact parts_plain hb
  | cons c r ih =>
    obtain ⟨qs, hq⟩ := exists_lastPart r
    by_cases hc : c = separator
    · subst hc
      rw [parts_sep, hq, ← List.cons_append] at ha
      obtain ⟨rfl, rfl⟩ := List.append_singleton_inj.1 ha
      rw [List.cons_append, parts_sep, ih hq, List.cons_append]
    · -- a plain character belongs to the first part, which may be the last one too
      cases qs with
      | nil =>
        rw [parts_cons hc hq] at ha
        obtain ⟨rfl, rfl⟩ := List.append_singleton_inj.1
          (show [] ++ [c :: lastPart r] = ps ++ [last] from ha)
        exact parts_cons hc (ih hq)
      | cons q qs =>
        rw [parts_cons hc hq, List.append_eq, ← List.cons_append] at ha
        obtain ⟨rfl, rfl⟩ := List.append_singleton_inj.1 ha
        exact parts_cons hc (ih hq)

theorem lastPart_append_plain (a : List Char) {b : List Char} (hb : separator ∉ b) :
    lastPart (a ++ b) = lastPart a ++ b := by
  obtain ⟨ps, hps⟩ := exists_lastPart a
  exact lastPart_of_parts (parts_append_plain hps hb)

end Parts

section Names

theorem isAbsoluteChars_plain {n : List Char} (h : separator ∉ n) :
    isAbsoluteChars n = false := by
  cases n with
  | nil => rfl
  | cons c r =>
    have hc : c ≠ separator := fun hc => h (hc ▸ List.mem_cons_self)
    simpa [isAbsoluteChars] using hc

theorem isAbsoluteChars_of_names {cs : List Char} (hn : names cs = []) (hc : cs ≠ []) :
    isAbsoluteChars cs := by
  obtain ⟨c, r, rfl⟩ := List.exists_cons_of_ne_nil hc
  by_cases hs : c = separator
  · simp [isAbsoluteChars, hs]
  · obtain ⟨p, ps, hp⟩ := exists_parts r
    simp [names, parts_cons hs hp] at hn

theorem names_append_sep (cs : List Char) : names (cs ++ [separator]) = names cs := by
  rw [names, parts_append_sep, List.filter_append]
  simp [parts, names]

/-- A name joined to a path is its last part, behind the parts of the path. -/
theorem joinChars_parts {base n : List Char} (hn : n ≠ []) (hp : separator ∉ n) :
    names (joinChars base n) = names base ++ [n] ∧ lastPart (joinChars base n) = n ∧
      isAbsoluteChars (joinChars base n) = isAbsoluteChars base := by
  have hfilter : [n].filter (· != []) = [n] := by simp [hn]
  have hplain := parts_plain hp
  have hsep (b : List Char) : names (b ++ separator :: n) = names b ++ [n] ∧
      lastPart (b ++ separator :: n) = n := by
    rw [names, parts_append_sep, hplain, List.filter_append, hfilter, lastPart_append_sep]
    exact ⟨rfl, lastPart_of_parts (show parts n = [] ++ [n] from hplain)⟩
  rw [joinChars, isAbsoluteChars_plain hp]
  cases hl : base.getLast? with
  | none =>
    obtain rfl := List.getLast?_eq_none_iff.1 hl
    refine ⟨?_, lastPart_of_parts (show parts n = [] ++ [n] from hplain), isAbsoluteChars_plain hp⟩
    show (parts n).filter (· != []) = [n]
    rw [hplain, hfilter]
  | some c =>
    obtain ⟨b, rfl⟩ := List.getLast?_eq_some_iff.1 hl
    by_cases hc : c = separator
    · subst hc
      have happend : b ++ [separator] ++ n = b ++ separator :: n := by simp
      simp only [Bool.false_eq_true, if_false, beq_self_eq_true, if_true, happend, names_append_sep]
      refine ⟨(hsep b).1, (hsep b).2, ?_⟩
      cases b <;> rfl
    · simp only [Bool.false_eq_true, if_false, beq_iff_eq, hc]
      refine ⟨(hsep _).1, (hsep _).2, ?_⟩
      cases b <;> rfl

theorem mem_joinChars {c : Char} {base rest : List Char} (h : c ∈ joinChars base rest) :
    c ∈ base ∨ c = separator ∨ c ∈ rest := by
  unfold joinChars at h
  split at h
  · exact .inr (.inr h)
  · split at h
    · exact .inr (.inr h)
    · split at h <;> simp at h <;> tauto

theorem exists_join (base rest : String) : ∃ x, (join base rest).toList = x ++ rest.toList := by
  rw [join, String.toList_ofList, joinChars]
  split
  · exact ⟨[], rfl⟩
  · split
    · exact ⟨[], rfl⟩
    · split
      · exact ⟨_, rfl⟩
      · exact ⟨base.toList ++ [separator], by simp⟩

theorem fileNameChars?_lastPart {cs : List Char} (hv : isVacuous (lastPart cs) = false)
    (ha : lastPart cs ≠ ['.', '.']) : fileNameChars? cs = some (lastPart cs) := by
  have hhead : lastPart (splitHead cs).2 = lastPart cs := by
    unfold splitHead
    split
    · exact (lastPart_append_sep [] _).symm
    · cases hv
    · exact (lastPart_append_sep [] _).trans (lastPart_append_sep ['.'] _).symm
    · rfl
  obtain ⟨ps, hps⟩ := exists_lastPart (splitHead cs).2
  have hbody : bodyParts cs = ps ++ [lastPart cs] := by
    rw [bodyParts, hps, hhead, trimParts, List.reverse_concat]
    simp [hv]
  simp [fileNameChars?, hbody, ha]

end Names

section Extensions

theorem splitName_dot {stem ext : List Char} (he : '.' ∉ ext) :
    (splitName (stem ++ '.' :: ext)).2 = if stem = [] then none else some ext := by
  have htail : (stem ++ '.' :: ext).reverse.takeWhile (· != '.') = ext.reverse := by
    have hall : ∀ c ∈ ext.reverse, (c != '.') = true := by
      intro c hc
      have hne : c ≠ '.' := fun h => he (h ▸ List.mem_reverse.1 hc)
      simpa using hne
    rw [List.reverse_append, List.reverse_cons, List.append_assoc,
      List.takeWhile_append_of_pos hall]
    simp
  have hdrop : ((stem ++ '.' :: ext).reverse.drop (ext.reverse.length + 1)).reverse = stem := by
    simp [List.reverse_append, List.drop_append]
  have hlen : (ext.reverse.length == (stem ++ '.' :: ext).length) = false := by
    simp
    omega
  simp only [splitName, htail, hdrop, hlen, List.reverse_reverse]
  by_cases hs : stem = [] <;> simp [hs]

end Extensions

end ShaderBuild.Path
