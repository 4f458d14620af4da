import ShaderBuild.Proofs.Layout.Bytes

namespace ShaderBuild

theorem Word.exists_add?_iff {a b : UInt32} :
    (∃ c, add? a b = some c) ↔ a.toNat + b.toNat < UInt32.size := by
  unfold add?
  split <;> simp_all

theorem Word.exists_mul?_iff {a b : UInt32} :
    (∃ c, mul? a b = some c) ↔ a.toNat * b.toNat < UInt32.size := by
  unfold mul?
  split <;> simp_all

mutual
/-- No vector, matrix or array in the type is without elements. -/
def MemberType.isPopulated : MemberType → Bool
  | .scalar _ => true
  | .vector _ n => 1 ≤ n
  | .matrix _ n m => 1 ≤ n && 1 ≤ m
  | .array e count _ => 1 ≤ count.getD 1 && e.isPopulated
  | .struct _ ms => arePopulated ms
def arePopulated : List Member → Bool
  | [] => true
  | ⟨_, _, t⟩ :: r => t.isPopulated && arePopulated r
end

mutual
theorem exists_packedSize {t : MemberType} (hp : t.isPopulated) (h : t.bytes < UInt32.size) :
    ∃ n, t.packedSize = .ok n := by
  cases t with
  | scalar k => exact ⟨_, rfl⟩
  | vector k n =>
    simp only [MemberType.packedSize, need_ok_iff]
    exact Word.exists_mul?_iff.2 h
  | matrix k n m =>
    have hm : 1 ≤ m.toNat := by
      simp only [MemberType.isPopulated, Bool.and_eq_true, decide_eq_true_eq] at hp
      exact UInt32.le_iff_toNat_le.1 hp.2
    have hle : k.width.toNat * n.toNat ≤ k.width.toNat * n.toNat * m.toNat :=
      Nat.le_mul_of_pos_right _ hm
    obtain ⟨a, ha⟩ := Word.exists_mul?_iff.2 (Nat.lt_of_le_of_lt hle h)
    have htotal : a.toNat * m.toNat < UInt32.size := by
      rw [Word.mul?_eq_some_iff.1 ha]
      exact h
    obtain ⟨b, hb⟩ := Word.exists_mul?_iff.2 htotal
    refine ⟨b, ?_⟩
    simp only [MemberType.packedSize, need_ok_iff, ha, Option.bind_some, hb]
  | array e count stride =>
    cases stride with
    | some s =>
      simp only [MemberType.packedSize, bind_ok_iff, pure_ok_iff, need_ok_iff]
      obtain ⟨a, ha⟩ := Word.exists_mul?_iff.2 h
      exact ⟨a, s, rfl, ha⟩
    | none =>
      simp only [MemberType.isPopulated, Bool.and_eq_true, decide_eq_true_eq] at hp
      have hle : e.bytes ≤ e.bytes * (count.getD 1).toNat :=
        Nat.le_mul_of_pos_right _ (UInt32.le_iff_toNat_le.1 hp.1)
      obtain ⟨each, heach⟩ := exists_packedSize hp.2 (Nat.lt_of_le_of_lt hle h)
      have htotal : each.toNat * (count.getD 1).toNat < UInt32.size := by
        rw [packedSize_toNat heach]
        exact h
      obtain ⟨a, ha⟩ := Word.exists_mul?_iff.2 htotal
      simp only [MemberType.packedSize, bind_ok_iff, need_ok_iff]
      exact ⟨a, each, heach, ha⟩
  | struct name ms => exact exists_extent hp h
theorem exists_extent {ms : List Member} (hp : arePopulated ms) (h : lastByte ms < UInt32.size) :
    ∃ n, extent ms = .ok n := by
  cases ms with
  | nil => exact ⟨0, rfl⟩
  | cons m r =>
    obtain ⟨name, offset, t⟩ := m
    rw [arePopulated, Bool.and_eq_true] at hp
    rw [lastByte, Nat.max_lt] at h
    obtain ⟨size, hsize⟩ := exists_packedSize hp.1 (Nat.lt_of_le_of_lt (Nat.le_add_left _ _) h.1)
    have hend : offset.toNat + size.toNat < UInt32.size := by
      rw [packedSize_toNat hsize]
      exact h.1
    obtain ⟨stop, hstop⟩ := Word.exists_add?_iff.2 hend
    obtain ⟨rest, hrest⟩ := exists_extent hp.2 h.2
    simp only [extent, bind_ok_iff, need_ok_iff, pure_ok_iff]
    exact ⟨max stop rest, size, hsize, stop, hstop, rest, hrest, rfl⟩
end

/-- A size is only ever that of so many bytes. -/
def Exact (x : Except Error UInt32) (bytes : Nat) : Prop := ∀ n, x = .ok n → n.toNat = bytes

/-- A size that is computed where so many bytes fit into 32 bits, and refused where they do not. -/
structure ExactOrRefused (x : Except Error UInt32) (bytes : Nat) : Prop where
  computed : (∃ n, x = .ok n) ↔ bytes < UInt32.size
  refused : UInt32.size ≤ bytes → ∃ e, x = .error e ∧ e.kind = .reflection

theorem OnlyOverflows.exactOrRefused {x : Except Error UInt32} {bytes : Nat} (h : OnlyOverflows x)
    (hx : Exact x bytes) (hfit : bytes < UInt32.size → ∃ n, x = .ok n) :
    ExactOrRefused x bytes := by
  refine ⟨⟨fun ⟨n, hn⟩ => hx n hn ▸ n.toNat_lt_size, hfit⟩, fun hlarge => ?_⟩
  cases he : x with
  | ok n =>
    have hsmall := n.toNat_lt_size
    rw [hx n he] at hsmall
    omega
  | error e =>
    obtain ⟨f, rfl⟩ := h e he
    exact ⟨_, rfl, rfl⟩

theorem packedSize_exactOrRefused {t : MemberType} (h : t.isPopulated) :
    ExactOrRefused t.packedSize t.bytes :=
  (packedSize_onlyOverflows t).exactOrRefused (fun _ => packedSize_toNat) (exists_packedSize h)

theorem extent_exactOrRefused {ms : List Member} (h : arePopulated ms) :
    ExactOrRefused (extent ms) (lastByte ms) :=
  (extent_onlyOverflows ms).exactOrRefused (fun _ => extent_toNat) (exists_extent h)

theorem ofMembers_eq (typeName : String) (ms : List Member) :
    BufferLayout.ofMembers typeName ms = (fun size => ⟨typeName, size, ms⟩) <$> extent ms := by
  rw [BufferLayout.ofMembers]
  cases extent ms <;> rfl

theorem size_ofMembers (typeName : String) (ms : List Member) :
    BufferLayout.size <$> BufferLayout.ofMembers typeName ms = extent ms := by
  rw [ofMembers_eq]
  cases extent ms <;> rfl

namespace BufferLayout

variable {l : BufferLayout} {field name : String} {offset : UInt32} {ms : List Member}
  {stride : Option UInt32}

theorem element_of_array
    (h : l.members = [⟨field, offset, .array (.struct name ms) none stride⟩]) :
    l.element = (fun size => ⟨name, max size (stride.getD 0), ms⟩) <$> extent ms := by
  simp only [element, runtimeArrayElement, h, ofMembers]
  cases extent ms <;> rfl

theorem element_of_other (h : ∀ field offset name ms stride,
    l.members ≠ [⟨field, offset, .array (.struct name ms) none stride⟩]) : l.element = .ok l := by
  unfold element runtimeArrayElement
  split
  · next hl => exact absurd hl (h _ _ _ _ _)
  · rfl

theorem element_exact
    (h : l.members = [⟨field, offset, .array (.struct name ms) none stride⟩]) :
    Exact (size <$> l.element) (max (lastByte ms) (stride.getD 0).toNat) := by
  intro n hn
  simp only [element_of_array h, map_ok_iff] at hn
  obtain ⟨_, ⟨stop, hstop, rfl⟩, rfl⟩ := hn
  rw [UInt32.toNat_max, extent_toNat hstop]

theorem element_exactOrRefused (hp : arePopulated ms)
    (h : l.members = [⟨field, offset, .array (.struct name ms) none stride⟩]) :
    ExactOrRefused (size <$> l.element) (max (lastByte ms) (stride.getD 0).toNat) := by
  refine (element_onlyOverflows l).map.exactOrRefused (element_exact h) fun hfit => ?_
  obtain ⟨stop, hstop⟩ := exists_extent hp (Nat.lt_of_le_of_lt (Nat.le_max_left _ _) hfit)
  rw [element_of_array h, hstop]
  exact ⟨_, rfl⟩

end BufferLayout

/-- Every size is the exact one. Where nothing is empty, a type, members and the layout of a buffer
have a size exactly where their bytes fit into 32 bits, and are refused otherwise. -/
theorem sizes_exact_or_refused :
    (∀ t : MemberType, Exact t.packedSize t.bytes ∧
      (t.isPopulated → ExactOrRefused t.packedSize t.bytes)) ∧
    (∀ ms : List Member, Exact (extent ms) (lastByte ms) ∧
      (arePopulated ms → ExactOrRefused (extent ms) (lastByte ms))) ∧
    ∀ (typeName : String) (ms : List Member),
      (∀ l, BufferLayout.ofMembers typeName ms = .ok l →
        l.typeName = typeName ∧ l.members = ms ∧ l.size.toNat = lastByte ms) ∧
      (arePopulated ms →
        ExactOrRefused (BufferLayout.size <$> BufferLayout.ofMembers typeName ms) (lastByte ms)) := by
  refine ⟨fun t => ⟨fun _ => packedSize_toNat, packedSize_exactOrRefused⟩,
    fun ms => ⟨fun _ => extent_toNat, extent_exactOrRefused⟩, fun typeName ms => ⟨?_, ?_⟩⟩
  · intro l hl
    rw [ofMembers_eq, map_ok_iff] at hl
    obtain ⟨size, hsize, rfl⟩ := hl
    exact ⟨rfl, rfl, extent_toNat hsize⟩
  · rw [size_ofMembers]
    exact extent_exactOrRefused

def distant (offset : UInt32) : List Member :=
  [⟨"lights", 0, .array (.struct "Light" [⟨"range", 4, .vector .float 3⟩]) (some 4) none⟩,
    ⟨"last", offset, .matrix .double 4 4⟩]

/-- The matrix may end with the last byte that a size counts, but not behind it. -/
theorem distant_ends_in_time : arePopulated (distant 4294967167) ∧
    lastByte (distant 4294967167) = 4294967295 ∧
    (∃ l, BufferLayout.ofMembers "Far" (distant 4294967167) = .ok l ∧ l.size = 4294967295) ∧
    ∃ e, extent (distant 4294967168) = .error e ∧ e.kind = .reflection := by
  have hlast : lastByte (distant 4294967167) = 4294967295 := by decide
  obtain ⟨-, hextent, hlayout⟩ := sizes_exact_or_refused
  obtain ⟨hexact, hfits⟩ := hlayout "Far" (distant 4294967167)
  obtain ⟨n, hn⟩ := (hfits rfl).computed.2 (by decide)
  obtain ⟨l, hl, rfl⟩ := (map_ok_iff _ _ _).1 hn
  refine ⟨rfl, hlast, ⟨l, hl, ?_⟩, ((hextent (distant 4294967168)).2 rfl).refused (by decide)⟩
  apply UInt32.toNat_inj.1
  rw [(hexact l hl).2.2, hlast]
  rfl

end ShaderBuild
