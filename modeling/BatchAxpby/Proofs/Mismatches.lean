import BatchAxpby.Proofs.Comparison
import BatchAxpby.Proofs.Numbers

/-! # What the comparison reports

The comparison reads the block of a slot before it reads the slot. No difference is lost on the
way, and none is held against another slot: a slot is listed exactly if some cell of it, inside
the block or not, holds unequal values.
-/

namespace BatchAxpby

def UnequalAt {α : Type} [BEq α] (actual expected : Array α) (i : ℕ) : Prop :=
  ∃ x y, actual[i]? = some x ∧ expected[i]? = some y ∧ (x == y) = false

section UnequalAt

variable {α : Type} {actual expected : Array α} {i : ℕ}

theorem UnequalAt.lt_size [BEq α] (h : UnequalAt actual expected i) : i < actual.size := by
  obtain ⟨x, _, hx, -⟩ := h
  exact (Array.getElem?_eq_some_iff.mp hx).1

theorem unequalAt_iff [BEq α] (hi : i < actual.size) (hi' : i < expected.size) :
    UnequalAt actual expected i ↔ (actual[i]? == expected[i]?) = false := by
  rw [Array.getElem?_eq_getElem hi, Array.getElem?_eq_getElem hi', Option.some_beq_some]
  constructor
  · rintro ⟨x, y, hx, hy, hxy⟩
    rw [Array.getElem?_eq_getElem hi] at hx
    rw [Array.getElem?_eq_getElem hi'] at hy
    cases hx
    cases hy
    exact hxy
  · intro h
    exact ⟨_, _, Array.getElem?_eq_getElem hi, Array.getElem?_eq_getElem hi', h⟩

theorem unequalAt_self_iff [BEq α] :
    UnequalAt actual actual i ↔ ∃ x, actual[i]? = some x ∧ (x == x) = false := by
  constructor
  · rintro ⟨x, y, hx, hy, hxy⟩
    cases hx.symm.trans hy
    exact ⟨x, hx, hxy⟩
  · rintro ⟨x, hx, hself⟩
    exact ⟨x, x, hx, hx, hself⟩

theorem unequalAt_of_beq_self_eq_false [Scalar α] [NumericEquality α] {x : α}
    (hsize : actual.size = expected.size)
    (hx : actual[i]? = some x ∨ expected[i]? = some x) (hself : (x == x) = false) :
    UnequalAt actual expected i := by
  have hi : i < actual.size := by
    rcases hx with hx | hx
    · exact (Array.getElem?_eq_some_iff.mp hx).1
    · exact hsize ▸ (Array.getElem?_eq_some_iff.mp hx).1
  refine ⟨actual[i], expected[i], Array.getElem?_eq_getElem hi,
    Array.getElem?_eq_getElem (hsize ▸ hi), ?_⟩
  rw [← Bool.not_eq_true]
  intro heq
  -- Values that equal each other equal themselves, and `x` is one of the two.
  obtain ⟨ha, he⟩ := NumericEquality.beq_self_of_beq _ _ heq
  rcases hx with hx | hx
  · obtain ⟨_, rfl⟩ := Array.getElem?_eq_some_iff.mp hx
    exact absurd ha (by simp [hself])
  · obtain ⟨_, rfl⟩ := Array.getElem?_eq_some_iff.mp hx
    exact absurd he (by simp [hself])

end UnequalAt

namespace Problem

variable {α : Type} {p : Problem α} {actual expected : Array α} {count : ℕ}

section Slots

variable (hactual : actual.size = p.slotB * count) (hexpected : expected.size = p.slotB * count)

include hactual hexpected

theorem slotCells_beq_eq_false_iff [BEq α] {slot : ℕ} (hs : slot < count) :
    (p.slotCells actual slot == p.slotCells expected slot) = false ↔
      ∃ i, slot * p.slotB ≤ i ∧ i < (slot + 1) * p.slotB ∧ UnequalAt actual expected i := by
  have hend := slot_end_le hactual hs
  have hend' := slot_end_le hexpected hs
  have hnext : (slot + 1) * p.slotB = slot * p.slotB + p.slotB := by rw [Nat.add_mul, Nat.one_mul]
  rw [← Bool.not_eq_true, slotCells_beq_iff hactual hexpected hs]
  constructor
  · intro h
    push Not at h
    obtain ⟨i, hi, hne⟩ := h
    refine ⟨slot * p.slotB + i, by omega, by omega, ?_⟩
    exact (unequalAt_iff (by omega) (by omega)).mpr (Bool.eq_false_iff.mpr hne)
  · rintro ⟨i, hle, hlt, hne⟩ h
    obtain ⟨k, rfl⟩ := Nat.exists_eq_add_of_le hle
    have hne := (unequalAt_iff (by omega) (by omega)).mp hne
    rw [h k (by omega)] at hne
    exact nomatch hne

omit hexpected in
/-- A differing cell lies in one of the slots, the one that its index falls into. -/
theorem slot_of_unequalAt [BEq α] {i : ℕ} (h : UnequalAt actual expected i) :
    i / p.slotB < count ∧ i / p.slotB * p.slotB ≤ i ∧ i < (i / p.slotB + 1) * p.slotB := by
  have hi : i < p.slotB * count := hactual ▸ h.lt_size
  have hpos : 0 < p.slotB := Nat.pos_of_mul_pos_right (Nat.zero_lt_of_lt hi)
  exact ⟨Nat.div_lt_of_lt_mul hi, Nat.div_mul_le_self i p.slotB, by
    rw [Nat.mul_comm]
    exact Nat.lt_mul_div_succ i hpos⟩

variable [Scalar α] {found : Array ℕ}
  (hfound : found = ((List.range count).filter fun slot =>
    !(p.slotCells actual slot == p.slotCells expected slot)).toArray)

include hfound

theorem mem_found_iff {slot : ℕ} : slot ∈ found ↔ slot < count ∧
    ∃ i, slot * p.slotB ≤ i ∧ i < (slot + 1) * p.slotB ∧ UnequalAt actual expected i := by
  rw [hfound, List.mem_toArray, List.mem_filter, List.mem_range, Bool.not_eq_true']
  exact and_congr_right fun hs => slotCells_beq_eq_false_iff hactual hexpected hs

theorem div_slot_mem_found {i : ℕ} (h : UnequalAt actual expected i) : i / p.slotB ∈ found := by
  obtain ⟨hs, hle, hlt⟩ := slot_of_unequalAt hactual h
  exact (mem_found_iff hactual hexpected hfound).mpr ⟨hs, i, hle, hlt, h⟩

theorem found_eq_empty_iff : found = #[] ↔ ∀ i, ¬ UnequalAt actual expected i := by
  rw [Array.eq_empty_iff_forall_not_mem]
  constructor
  · intro hempty i hi
    exact hempty _ (div_slot_mem_found hactual hexpected hfound hi)
  · intro hequal slot hslot
    obtain ⟨-, i, -, -, hi⟩ := (mem_found_iff hactual hexpected hfound).mp hslot
    exact hequal i hi

end Slots

variable [Scalar α] [NumericEquality α]

/-- The comparison overflows if columns are `2 ^ 63` cells apart. Otherwise it lists, in order and
once, the slots that hold a differing cell: the list is empty if and only if the buffers are equal
throughout, a stray write is held against the slot that it went to, and so is a value that is not
a number. -/
theorem mismatches_list_differing_slots (hr : 0 < p.update.rows) (hc : 0 < p.update.cols)
    (hvalid : p.validate = .ok ()) (hactual : actual.size = p.slotB * count)
    (hexpected : expected.size = p.slotB * count)
    (hbytes : p.slotB * count * Scalar.width α ≤ Word.maxBytes) :
    (p.update.ldb = Word.maxBytes + 1 ∧ 0 < count →
      p.mismatches actual expected count = .error (.fault .overflow)) ∧
    (p.update.ldb ≠ Word.maxBytes + 1 ∨ count = 0 →
      ∃ found, p.mismatches actual expected count = .ok found ∧
        found.toList.Pairwise (· < ·) ∧
        (∀ slot, slot ∈ found ↔ slot < count ∧ ∃ i, slot * p.slotB ≤ i ∧
          i < (slot + 1) * p.slotB ∧ UnequalAt actual expected i) ∧
        (found = #[] ↔ ∀ i, ¬ UnequalAt actual expected i) ∧
        (∀ i, UnequalAt actual expected i → i / p.slotB ∈ found) ∧
        ∀ i x, actual[i]? = some x ∨ expected[i]? = some x → (x == x) = false →
          i / p.slotB ∈ found) := by
  have hp := sound_of_validate hr hc hvalid
  constructor
  · rintro ⟨hld, hcount⟩
    exact mismatches_eq_overflow hp hactual hexpected hbytes hcount hld
  · intro hne
    have hok : p.mismatches actual expected count = .ok ((List.range count).filter fun slot =>
        !(p.slotCells actual slot == p.slotCells expected slot)).toArray := by
      rcases hne with hne | rfl
      · exact mismatches_eq_ok hp hactual hexpected hbytes hne
      · rfl
    refine ⟨_, hok, ?_, ?_, ?_, ?_, ?_⟩
    · exact List.pairwise_lt_range.filter _
    · exact fun slot => mem_found_iff hactual hexpected rfl
    · exact found_eq_empty_iff hactual hexpected rfl
    · exact fun i => div_slot_mem_found hactual hexpected rfl
    · intro i x hx hself
      have hsize := hactual.trans hexpected.symm
      exact div_slot_mem_found hactual hexpected rfl
        (unequalAt_of_beq_self_eq_false hsize hx hself)

def indented : Problem Float32 where
  update :=
    { rows := 2, cols := 1, alpha := 2, beta := 3, lda := 2, ldb := 2,
      layoutA := .plain, layoutB := .plain }
  slotA := 2
  slotB := 4
  firstA := 0
  firstB := 1

/-- A write behind the block of the second slot and a value of the third that is not a number are
reported, and nothing is held against the first slot. With columns `2 ^ 63` cells apart, equal
buffers cannot be compared. -/
theorem indented_mismatches :
    (∃ found, indented.mismatches #[1, 1, 1, 1, 1, 1, 1, 2, 0 / 0, 1, 1, 1]
        #[1, 1, 1, 1, 1, 1, 1, 1, 1, 1, 1, 1] 3 = .ok found ∧
      0 ∉ found ∧ 1 ∈ found ∧ 2 ∈ found) ∧
    { indented with update := { indented.update with ldb := Word.maxBytes + 1 } }.mismatches
      #[1, 1, 1, 1] #[1, 1, 1, 1] 1 = .error (.fault .overflow) := by
  constructor
  · have hactual : (#[1, 1, 1, 1, 1, 1, 1, 2, 0 / 0, 1, 1, 1] : Array Float32).size =
        indented.slotB * 3 := rfl
    have hexpected : (#[1, 1, 1, 1, 1, 1, 1, 1, 1, 1, 1, 1] : Array Float32).size =
        indented.slotB * 3 := rfl
    obtain ⟨-, hlisted⟩ := mismatches_list_differing_slots (by decide) (by decide) rfl
      hactual hexpected (by decide)
    obtain ⟨found, hok, -, hmem, -, hwrite, hnan⟩ := hlisted (.inl (by decide))
    refine ⟨found, hok, ?_, hwrite 7 ⟨2, 1, rfl, rfl, by decide +kernel⟩,
      hnan 8 (0 / 0) (.inl rfl) (by decide +kernel)⟩
    rw [hmem]
    rintro ⟨-, i, -, hi, x, y, hx, hy, hxy⟩
    have hone : ((1 : Float32) == 1) = true := by decide +kernel
    have hi : i < 4 := hi
    interval_cases i <;>
    · cases hx
      cases hy
      exact absurd hxy (by simp [hone])
  · exact (mismatches_list_differing_slots (by decide) (by decide) rfl rfl rfl (by decide)).1
      ⟨rfl, by decide⟩

end Problem

end BatchAxpby
