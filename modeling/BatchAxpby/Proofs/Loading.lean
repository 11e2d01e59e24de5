import BatchAxpby.Proofs.BoundingBox

/-! # What loading ensures

The check of a description never faults. The problem of an accepted description overflows only if
the storage of an operand does, or if a box without cells starts behind the last column of storage
that nearly does. The check of the problem, which speaks of spans and slots, then agrees with the
check of the boxes, except for boxes that start behind the last column and below the first row.
-/

namespace BatchAxpby

namespace Operand

variable {o : Operand} {x : Box}

/-- The number of cells, or the index of the first cell of the box, leaves the word range. -/
def Overflows (o : Operand) (x : Box) : Prop :=
  Word.bound ≤ o.rows * o.cols ∨ x.col = o.cols ∧ Word.bound ≤ o.rows * o.cols + x.row

/-- The box starts behind the last column and below the first row, where no cell is. -/
def StartsBehind (o : Operand) (x : Box) : Prop := x.col = o.cols ∧ 0 < x.row

instance (o : Operand) (x : Box) : Decidable (o.StartsBehind x) :=
  inferInstanceAs (Decidable (_ ∧ _))

theorem exists_entries_of_validate {name : String} (h : o.validate name = .ok ()) :
    ∃ x : Box, o.box = x.entries := by
  unfold validate at h
  split_ifs at h
  split at h
  · next row col endRow endCol hbox => exact ⟨⟨row, col, endRow, endCol⟩, hbox⟩
  · exact nomatch h

namespace Admits

theorem first_le (h : o.Admits x) (hs : ¬ o.StartsBehind x) :
    o.rows * x.col + x.row ≤ o.rows * o.cols := by
  have hrow := h.row_le
  have hcol := h.col_le
  have hrows := h.endRow_le
  have hcols := h.endCol_le
  rcases Nat.lt_or_eq_of_le (show x.col ≤ o.cols by omega) with hlt | heq
  · have hnext : o.rows * (x.col + 1) ≤ o.rows * o.cols := Nat.mul_le_mul_left _ hlt
    rw [Nat.mul_add, Nat.mul_one] at hnext
    omega
  · have hzero : x.row = 0 := by
      by_contra hne
      exact hs ⟨heq, Nat.pos_of_ne_zero hne⟩
    rw [heq, hzero, Nat.add_zero]

theorem first_le_iff (h : o.Admits x) :
    o.rows * x.col + x.row ≤ o.rows * o.cols ↔ ¬ o.StartsBehind x := by
  refine ⟨?_, h.first_le⟩
  rintro hle ⟨hcol, hrow⟩
  rw [hcol] at hle
  omega

theorem first_eq_ok_iff (h : o.Admits x) {n : ℕ} : o.first = .ok n ↔
    o.rows * x.col + x.row < Word.bound ∧ n = o.rows * x.col + x.row := by
  simp only [first, entry, h.entries, Box.entries]
  change Word.mul o.rows x.col >>= (fun y => Word.add y x.row) = _ ↔ _
  rw [except_bind_eq_ok]
  constructor
  · rintro ⟨_, hmul, hadd⟩
    obtain ⟨-, rfl⟩ := Word.mul_eq_ok_iff.mp hmul
    exact Word.add_eq_ok_iff.mp hadd
  · rintro ⟨hlt, rfl⟩
    exact ⟨_, Word.mul_eq_ok_iff.mpr ⟨by omega, rfl⟩, Word.add_eq_ok_iff.mpr ⟨hlt, rfl⟩⟩

theorem not_overflows_iff (h : o.Admits x) : ¬ o.Overflows x ↔
    o.rows * o.cols < Word.bound ∧ o.rows * x.col + x.row < Word.bound := by
  unfold Overflows
  constructor
  · intro hn
    have hsize : o.rows * o.cols < Word.bound := Nat.lt_of_not_le fun hle => hn (.inl hle)
    refine ⟨hsize, ?_⟩
    by_cases hcol : x.col = o.cols
    · rw [hcol]
      exact Nat.lt_of_not_le fun hle => hn (.inr ⟨hcol, hle⟩)
    · exact (h.first_le fun hs => hcol hs.1).trans_lt hsize
  · rintro ⟨hsize, hfirst⟩ (hle | ⟨hcol, hle⟩)
    · omega
    · rw [hcol] at hfirst
      omega

theorem not_startsBehind (h : o.Admits x) (hocc : x.Occupied) : ¬ o.StartsBehind x := by
  rintro ⟨hcol, -⟩
  have hlt := hocc.2
  have hle := h.endCol_le
  omega

theorem not_overflows (h : o.Admits x) (hocc : x.Occupied) (hlt : o.rows * o.cols < Word.bound) :
    ¬ o.Overflows x :=
  h.not_overflows_iff.mpr ⟨hlt, (h.first_le (h.not_startsBehind hocc)).trans_lt hlt⟩

end Admits

end Operand

def blockSpan (rows cols ld : ℕ) : ℕ := if rows = 0 ∨ cols = 0 then 0 else ld * (cols - 1) + rows

theorem span_eq_blockSpan {rows cols ld : ℕ} (h : blockSpan rows cols ld < Word.bound) :
    span rows cols ld = .ok (blockSpan rows cols ld) := by
  unfold blockSpan at *
  split_ifs at h ⊢ with hempty
  · rw [span, if_pos hempty]
  · rw [span_eq (by omega) (by omega), if_pos h]

theorem Problem.checkSlot_eq {first span slot : ℕ} (h : first + span < Word.bound)
    (name : String) : checkSlot name first span slot =
      if slot < first + span then .error (.refused (.slotOverrun name span first slot))
      else .ok () := by
  rw [checkSlot, outcome_bind_of_fault_ok (Word.add_eq_ok_iff.mpr ⟨h, rfl⟩)]
  rfl

theorem Problem.validate_ends {α : Type} {p : Problem α} (hu : p.update.validate = .ok ())
    (hA : p.firstA + blockSpan p.update.rows p.update.cols p.update.lda < Word.bound)
    (hB : p.firstB + blockSpan p.update.rows p.update.cols p.update.ldb < Word.bound) :
    (∀ fault, p.validate ≠ .error (.fault fault)) ∧
      (p.validate = .ok () ↔
        p.firstA + blockSpan p.update.rows p.update.cols p.update.lda ≤ p.slotA ∧
        p.firstB + blockSpan p.update.rows p.update.cols p.update.ldb ≤ p.slotB) := by
  have hspanA : p.update.spanA = .ok (blockSpan p.update.rows p.update.cols p.update.lda) :=
    span_eq_blockSpan (by omega)
  have hspanB : p.update.spanB = .ok (blockSpan p.update.rows p.update.cols p.update.ldb) :=
    span_eq_blockSpan (by omega)
  rw [validate, outcome_bind_of_error_ok hu, outcome_bind_of_fault_ok hspanA,
    outcome_bind_of_fault_ok hspanB, checkSlot_eq hA, checkSlot_eq hB]
  by_cases hfitA : p.slotA < p.firstA + blockSpan p.update.rows p.update.cols p.update.lda
  · rw [if_pos hfitA]
    exact ⟨nofun, (nomatch ·), fun h => absurd h.1 (Nat.not_le.mpr hfitA)⟩
  rw [if_neg hfitA, except_bind_of_ok rfl]
  by_cases hfitB : p.slotB < p.firstB + blockSpan p.update.rows p.update.cols p.update.ldb
  · rw [if_pos hfitB]
    exact ⟨nofun, (nomatch ·), fun h => absurd h.2 (Nat.not_le.mpr hfitB)⟩
  · rw [if_neg hfitB]
    exact ⟨nofun, fun _ => ⟨Nat.le_of_not_lt hfitA, Nat.le_of_not_lt hfitB⟩, fun _ => rfl⟩

namespace Operand.Admits

variable {o : Operand} {x : Box}

theorem block_le_iff (h : o.Admits x) :
    o.rows * x.col + x.row + blockSpan (x.endRow - x.row) (x.endCol - x.col) o.rows ≤
      o.rows * o.cols ↔ ¬ o.StartsBehind x := by
  unfold blockSpan
  split_ifs with hempty
  · exact h.first_le_iff
  · have hocc : x.Occupied := ⟨by omega, by omega⟩
    exact iff_of_true (h.hasBox hocc).block_le (h.not_startsBehind hocc)

theorem block_lt (h : o.Admits x) (hno : ¬ o.Overflows x) :
    o.rows * x.col + x.row + blockSpan (x.endRow - x.row) (x.endCol - x.col) o.rows <
      Word.bound := by
  obtain ⟨hsize, hfirst⟩ := h.not_overflows_iff.mp hno
  unfold blockSpan
  split_ifs with hempty
  · exact hfirst
  · exact (h.hasBox ⟨by omega, by omega⟩).block_le.trans_lt hsize

end Operand.Admits

namespace Description

variable {α : Type} {d : Description α} {boxA boxB : Box}

namespace Admitted

theorem problem_eq_ok_iff (h : d.Admitted boxA boxB) {p : Problem α} : d.problem = .ok p ↔
    (¬ d.a.Overflows boxA ∧ ¬ d.b.Overflows boxB) ∧ p = d.boxProblem boxA boxB := by
  rw [problem, h.admitsA.extent_eq_ok, h.admitsA.not_overflows_iff, h.admitsB.not_overflows_iff,
    except_bind_of_ok rfl]
  constructor
  · intro hp
    obtain ⟨_, hsizeA, hp⟩ := except_bind_eq_ok.mp hp
    obtain ⟨_, hsizeB, hp⟩ := except_bind_eq_ok.mp hp
    obtain ⟨_, hfirstA, hp⟩ := except_bind_eq_ok.mp hp
    obtain ⟨_, hfirstB, hp⟩ := except_bind_eq_ok.mp hp
    obtain ⟨hltA, rfl⟩ := Word.mul_eq_ok_iff.mp hsizeA
    obtain ⟨hltB, rfl⟩ := Word.mul_eq_ok_iff.mp hsizeB
    obtain ⟨hA, rfl⟩ := h.admitsA.first_eq_ok_iff.mp hfirstA
    obtain ⟨hB, rfl⟩ := h.admitsB.first_eq_ok_iff.mp hfirstB
    cases hp
    exact ⟨⟨⟨hltA, hA⟩, hltB, hB⟩, rfl⟩
  · rintro ⟨⟨⟨hltA, hA⟩, hltB, hB⟩, rfl⟩
    rw [Operand.size, Operand.size, Word.mul_eq_ok_iff.mpr ⟨hltA, rfl⟩,
      Word.mul_eq_ok_iff.mpr ⟨hltB, rfl⟩, h.admitsA.first_eq_ok_iff.mpr ⟨hA, rfl⟩,
      h.admitsB.first_eq_ok_iff.mpr ⟨hB, rfl⟩]
    rfl

theorem update_validate (h : d.Admitted boxA boxB) :
    (d.boxProblem boxA boxB).update.validate = .ok () := by
  have hrows := h.rows_eq
  have hA := h.admitsA.endRow_le
  have hB := h.admitsB.endRow_le
  have hla : ¬ d.a.rows < boxA.endRow - boxA.row := by omega
  have hlb : ¬ d.b.rows < boxA.endRow - boxA.row := by omega
  exact (if_neg hla).trans (if_neg hlb)

theorem blockSpan_eq (h : d.Admitted boxA boxB) (ld : ℕ) :
    blockSpan (boxA.endRow - boxA.row) (boxA.endCol - boxA.col) ld =
      blockSpan (boxB.endRow - boxB.row) (boxB.endCol - boxB.col) ld := by
  rw [h.rows_eq, h.cols_eq]

/-- The check of the problem refuses the boxes that start behind their storage, and no others. -/
theorem validate_ends (h : d.Admitted boxA boxB) (hA : ¬ d.a.Overflows boxA)
    (hB : ¬ d.b.Overflows boxB) :
    (∀ fault, (d.boxProblem boxA boxB).validate ≠ .error (.fault fault)) ∧
      ((d.boxProblem boxA boxB).validate = .ok () ↔
        ¬ d.a.StartsBehind boxA ∧ ¬ d.b.StartsBehind boxB) := by
  have hltB := h.admitsB.block_lt hB
  rw [← h.blockSpan_eq] at hltB
  rw [← h.admitsA.block_le_iff, ← h.admitsB.block_le_iff, ← h.blockSpan_eq]
  exact Problem.validate_ends h.update_validate (h.admitsA.block_lt hA) hltB

theorem occupied (h : d.Admitted boxA boxB) (hocc : boxA.Occupied) : boxB.Occupied := by
  obtain ⟨hr, hc⟩ := hocc
  have hrows := h.rows_eq
  have hcols := h.cols_eq
  exact ⟨by omega, by omega⟩

end Admitted

variable [Scalar α]

theorem exists_admitted_of_validate (h : d.validate = .ok ()) :
    ∃ boxA boxB, d.Admitted boxA boxB := by
  obtain ⟨_, hva, hrest⟩ := except_bind_eq_ok.mp h
  obtain ⟨_, hvb, -⟩ := except_bind_eq_ok.mp hrest
  obtain ⟨boxA, hboxA⟩ := Operand.exists_entries_of_validate (liftError_eq_ok.mp hva)
  obtain ⟨boxB, hboxB⟩ := Operand.exists_entries_of_validate (liftError_eq_ok.mp hvb)
  exact ⟨boxA, boxB, admitted_of_validate h hboxA hboxB⟩

theorem validate_ne_fault (d : Description α) (fault : Fault) :
    d.validate ≠ .error (.fault fault) := by
  intro h
  obtain hva | ⟨_, hva, h⟩ := except_bind_eq_error h
  · exact liftError_ne_fault hva
  obtain hvb | ⟨_, hvb, h⟩ := except_bind_eq_error h
  · exact liftError_ne_fault hvb
  have hva := liftError_eq_ok.mp hva
  have hvb := liftError_eq_ok.mp hvb
  -- Checked boxes have their extents, so all that is left to do is to refuse or not.
  obtain ⟨boxA, hboxA⟩ := Operand.exists_entries_of_validate hva
  obtain ⟨boxB, hboxB⟩ := Operand.exists_entries_of_validate hvb
  rw [outcome_bind_of_fault_ok (Operand.admits_of_validate hboxA hva).extent_eq_ok,
    outcome_bind_of_fault_ok (Operand.admits_of_validate hboxB hvb).extent_eq_ok] at h
  split_ifs at h <;> exact nomatch h

/-- The check of a description never faults. The problem of an accepted description faults exactly
if an operand overflows. Otherwise it is the problem of the boxes. Its check does not fault, and
refuses exactly the boxes that start behind their storage. Boxes with cells always pass, and the
block of each slot keeps to its slot on both sides. -/
theorem accepted_description_loads (d : Description α) :
    (∀ fault, d.validate ≠ .error (.fault fault)) ∧
    (d.validate = .ok () → ∃ boxA boxB : Box,
      d.a.box = boxA.entries ∧ d.b.box = boxB.entries ∧
      ((∃ fault, d.problem = .error fault) ↔ d.a.Overflows boxA ∨ d.b.Overflows boxB) ∧
      (∀ p, d.problem = .ok p → p = d.boxProblem boxA boxB ∧
        (∀ fault, p.validate ≠ .error (.fault fault)) ∧
        (p.validate = .ok () ↔ ¬ d.a.StartsBehind boxA ∧ ¬ d.b.StartsBehind boxB)) ∧
      (boxA.Occupied → d.a.rows * d.a.cols < Word.bound → d.b.rows * d.b.cols < Word.bound →
        ∃ p spanA spanB, d.problem = .ok p ∧ p = d.boxProblem boxA boxB ∧ p.validate = .ok () ∧
          p.update.spanA = .ok spanA ∧ p.firstA + spanA ≤ p.slotA ∧
          p.update.spanB = .ok spanB ∧ p.firstB + spanB ≤ p.slotB ∧
          KeepsToSlots p.firstA p.slotA p.update.rows p.update.cols p.update.lda ∧
          KeepsToSlots p.firstB p.slotB p.update.rows p.update.cols p.update.ldb)) := by
  refine ⟨d.validate_ne_fault, fun hvalid => ?_⟩
  obtain ⟨boxA, boxB, h⟩ := exists_admitted_of_validate hvalid
  refine ⟨boxA, boxB, h.admitsA.entries, h.admitsB.entries, ?_, ?_, ?_⟩
  · simp only [exists_error_iff, h.problem_eq_ok_iff, exists_and_left, exists_eq, and_true,
      ← not_or, not_not]
  · intro p hp
    obtain ⟨⟨hA, hB⟩, rfl⟩ := h.problem_eq_ok_iff.mp hp
    exact ⟨rfl, h.validate_ends hA hB⟩
  · intro hocc hltA hltB
    have hoccB := h.occupied hocc
    have hA := h.admitsA.not_overflows hocc hltA
    have hB := h.admitsB.not_overflows hoccB hltB
    have hinA := h.admitsA.not_startsBehind hocc
    have hinB := h.admitsB.not_startsBehind hoccB
    have hfitA := h.admitsA.block_le_iff.mpr hinA
    have hfitB := h.admitsB.block_le_iff.mpr hinB
    rw [← h.blockSpan_eq] at hfitB
    have hspanA := span_eq_blockSpan ((Nat.le_add_left _ _).trans_lt (hfitA.trans_lt hltA))
    have hspanB := span_eq_blockSpan ((Nat.le_add_left _ _).trans_lt (hfitB.trans_lt hltB))
    have hsound := (h.boxed hoccB).sound
    exact ⟨d.boxProblem boxA boxB, _, _, h.problem_eq_ok_iff.mpr ⟨⟨hA, hB⟩, rfl⟩, rfl,
      (h.validate_ends hA hB).2.mpr ⟨hinA, hinB⟩, hspanA, hfitA, hspanB, hfitB,
      keepsToSlots hsound.fitsA, keepsToSlots hsound.fitsB⟩

/-- Boxes of two rows without a column: one of them starts behind the last column of its storage,
in the second row. -/
def behindLastColumn : Description Float32 where
  a := ⟨3, 4, [0, 1, 2, 1]⟩
  b := ⟨3, 2, [1, 2, 3, 2]⟩
  alpha := 2
  beta := 3
  transA := false
  transB := false

/-- The description is accepted and has a problem, which does not pass its own check; boxes with
cells pass both. -/
theorem behindLastColumn_loads :
    (∃ p, behindLastColumn.problem = .ok p ∧ p.validate ≠ .ok () ∧
      ∀ fault, p.validate ≠ .error (.fault fault)) ∧
    ∃ p, offsetBoxes.problem = .ok p ∧ p.validate = .ok () ∧
      KeepsToSlots p.firstB p.slotB p.update.rows p.update.cols p.update.ldb := by
  constructor
  · obtain ⟨-, h⟩ := accepted_description_loads behindLastColumn
    obtain ⟨⟨row, col, endRow, endCol⟩, ⟨row', col', endRow', endCol'⟩, hboxA, hboxB, hfault,
      hpass, -⟩ := h (by decide)
    cases hboxA
    cases hboxB
    obtain ⟨p, hp⟩ : ∃ p, behindLastColumn.problem = .ok p := by
      by_contra hn
      rcases hfault.mp (exists_error_iff.mpr hn) with h | h <;>
        exact absurd h (by unfold Operand.Overflows; decide)
    obtain ⟨-, hends, hok⟩ := hpass p hp
    exact ⟨p, hp, fun hvalid => (hok.mp hvalid).2 (by decide), hends⟩
  · obtain ⟨-, h⟩ := accepted_description_loads offsetBoxes
    obtain ⟨⟨row, col, endRow, endCol⟩, _, hboxA, -, -, -, hpass⟩ := h (by decide)
    cases hboxA
    obtain ⟨p, -, -, hp, -, hvalid, -, -, -, -, -, hslots⟩ :=
      hpass (by decide) (by decide) (by decide)
    exact ⟨p, hp, hvalid, hslots⟩

end Description

end BatchAxpby
