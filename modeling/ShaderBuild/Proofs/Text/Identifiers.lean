import ShaderBuild.Text.Basic

namespace ShaderBuild.Text

theorem isWord_of_isWordStart {c : Char} (h : isWordStart c) : isWord c := by
  simp only [isWordStart, isWord, Char.isAlphanum, Bool.or_eq_true] at h ⊢
  exact h.imp_left .inl

theorem isDigit_of_isWord {c : Char} (h : isWord c) (hs : ¬isWordStart c) : c.isDigit := by
  simp only [isWordStart, isWord, Char.isAlphanum, Bool.or_eq_true, not_or] at h hs
  rcases h with (h | h) | h
  · exact absurd h hs.1
  · exact h
  · exact absurd h hs.2

theorem not_isDigit_of_isWordStart {c : Char} (h : isWordStart c) : c.isDigit = false := by
  unfold isWordStart Char.isAlpha Char.isUpper Char.isLower at h
  unfold Char.isDigit
  simp only [Bool.or_eq_true, Bool.and_eq_true, decide_eq_true_eq, beq_iff_eq,
    Bool.and_eq_false_iff, decide_eq_false_iff_not] at h ⊢
  rcases h with (⟨h, -⟩ | ⟨h, -⟩) | rfl
  · right
    exact fun h' => absurd (UInt32.le_trans h h') (by decide)
  · right
    exact fun h' => absurd (UInt32.le_trans h h') (by decide)
  · decide

theorem isIdentifier_iff {s : String} :
    isIdentifier s ↔ ∃ c r, s.toList = c :: r ∧ isWordStart c ∧ ∀ d ∈ s.toList, isWord d := by
  unfold isIdentifier
  cases hs : s.toList with
  | nil => simp [isIdentifierChars]
  | cons c r =>
    simp only [isIdentifierChars, Bool.and_eq_true, List.all_eq_true, List.forall_mem_cons]
    constructor
    · rintro ⟨hc, hr⟩
      exact ⟨c, r, rfl, hc, isWord_of_isWordStart hc, hr⟩
    · rintro ⟨_, _, ⟨rfl, rfl⟩, hc, -, hr⟩
      exact ⟨hc, hr⟩

theorem isIdentifier_append {s t : String} (hs : isIdentifier s) (ht : ∀ c ∈ t.toList, isWord c) :
    isIdentifier (s ++ t) := by
  obtain ⟨c, r, hc, hstart, hall⟩ := isIdentifier_iff.1 hs
  refine isIdentifier_iff.2 ⟨c, r ++ t.toList, by simp [hc], hstart, fun d hd => ?_⟩
  rw [String.toList_append, List.mem_append] at hd
  exact hd.elim (hall d) (ht d)

def Wordy (s : String) : Prop := ∀ c ∈ s.toList, isWord c

instance (s : String) : Decidable (Wordy s) := List.decidableBAll _ s.toList

theorem wordy_of_isIdentifier {s : String} (h : isIdentifier s) : Wordy s := by
  obtain ⟨_, _, -, -, hall⟩ := isIdentifier_iff.1 h
  exact hall

theorem Wordy.plain {s : String} (h : Wordy s) {c : Char} (hc : isWord c = false) :
    c ∉ s.toList := fun hm => by simp [h c hm] at hc

section Sanitize

variable {s : String}

theorem toList_sanitize (s : String) : (sanitize s).toList = sanitizeChars s.toList := by
  simp [sanitize]

theorem isWord_sanitize {c : Char} (h : c ∈ (sanitize s).toList) : isWord c := by
  have hall : ∀ c ∈ s.toList.map fun c => if isWord c then c else '_', isWord c := by
    simp only [List.forall_mem_map]
    intro c _
    split
    · assumption
    · rfl
  rw [toList_sanitize, sanitizeChars] at h
  split at h
  · exact absurd h List.not_mem_nil
  · next d r he =>
    rw [he] at hall
    split at h
    · rcases List.mem_cons.1 h with rfl | h
      · rfl
      · exact hall c h
    · exact hall c h

theorem sanitize_eq_empty_iff : sanitize s = "" ↔ s = "" := by
  rw [← String.toList_eq_nil_iff, ← String.toList_eq_nil_iff, toList_sanitize]
  cases s.toList with
  | nil => simp [sanitizeChars]
  | cons c r =>
    refine iff_of_false (fun h => ?_) (List.cons_ne_nil c r)
    simp only [sanitizeChars, List.map_cons] at h
    split at h <;> split at h <;> cases h

theorem isIdentifier_sanitize_iff : isIdentifier (sanitize s) ↔ s ≠ "" := by
  constructor
  · rintro h rfl
    exact absurd h (by decide)
  · intro h
    obtain ⟨c, r, hc⟩ : ∃ c r, (sanitize s).toList = c :: r := by
      rw [← List.ne_nil_iff_exists_cons]
      simpa [sanitize_eq_empty_iff] using h
    refine isIdentifier_iff.2 ⟨c, r, hc, Decidable.byContradiction fun hstart => ?_,
      fun d => isWord_sanitize⟩
    have hdigit := isDigit_of_isWord (isWord_sanitize (hc ▸ List.mem_cons_self)) hstart
    rw [toList_sanitize, sanitizeChars] at hc
    split at hc
    · cases hc
    · split at hc
      · next hd =>
        obtain ⟨rfl, -⟩ := List.cons.inj hc
        exact absurd hdigit (by decide)
      · next hd =>
        obtain ⟨rfl, -⟩ := List.cons.inj hc
        exact hd hdigit

theorem sanitize_of_isIdentifier (h : isIdentifier s) : sanitize s = s := by
  obtain ⟨c, r, hs, hstart, hall⟩ := isIdentifier_iff.1 h
  have hmap : (s.toList.map fun c => if isWord c then c else '_') = s.toList := by
    refine (List.map_congr_left fun d hd => ?_).trans (List.map_id _)
    rw [if_pos (hall d hd), id]
  rw [← String.toList_inj, toList_sanitize, sanitizeChars, hmap, hs]
  simp [not_isDigit_of_isWordStart hstart]

end Sanitize

end ShaderBuild.Text
