import BatchAxpby.Problem.Reference
import BatchAxpby.Proofs.Slots

/-! # Comparison with the reference

A view of a checked block exists unless its columns are `2 ^ 63` cells apart, and it shows cells
of its own slot only. Comparing two buffers therefore lists the slots in which they differ.
-/

namespace BatchAxpby

namespace View

/-- The window holds the block, and its bytes can be addressed. -/
structure Fits (width : ℕ) (w : Window) (rows cols ld : ℕ) : Prop where
  width_pos : 0 < width
  rows_pos : 0 < rows
  cols_pos : 0 < cols
  rows_le : rows ≤ ld
  span_le : ld * (cols - 1) + rows ≤ w.size
  bytes_le : w.size * width ≤ Word.maxBytes

variable {width rows cols ld : ℕ} {w : Window}

theorem Fits.size_le (h : Fits width w rows cols ld) : w.size ≤ Word.maxBytes :=
  (Nat.le_mul_of_pos_right _ h.width_pos).trans h.bytes_le

theorem Fits.cols_eq_one (h : Fits width w rows cols ld) (hld : Word.maxBytes < ld) :
    cols = 1 := by
  by_contra hne
  have hc := h.cols_pos
  have hle : ld * 1 ≤ ld * (cols - 1) := Nat.mul_le_mul_left ld (by omega)
  have hspan := h.span_le
  have hsize := h.size_le
  omega

theorem Fits.distance_eq_ok (h : Fits width w rows cols ld) (hne : ld ≠ Word.maxBytes + 1) :
    ∃ d, distance (max ld 1) = .ok d ∧ (cols - 1) * d = ld * (cols - 1) := by
  have hmax : max ld 1 = ld := max_eq_left (h.rows_pos.trans_le h.rows_le)
  rw [hmax]
  unfold distance isBackward
  by_cases hld : Word.maxBytes < ld
  · refine ⟨Word.bound - ld, ?_, ?_⟩
    · simp [hld, hne]
    · simp [h.cols_eq_one hld]
  · refine ⟨ld, ?_, Nat.mul_comm _ _⟩
    simp [hld]

theorem Fits.extent_le (h : Fits width w rows cols ld) : extent rows cols ≤ Word.maxBytes := by
  have hr := h.rows_pos
  have hc := h.cols_pos
  rw [extent, max_eq_left (by omega), max_eq_left (by omega)]
  exact ((cells_le_span hc h.rows_le).trans h.span_le).trans h.size_le

theorem Fits.misfit?_eq_none (h : Fits width w rows cols ld) (hne : ld ≠ Word.maxBytes + 1) :
    misfit? width (min (ld * (cols - 1) + rows) w.size) rows cols (max ld 1) = .ok none := by
  obtain ⟨d, hd, hcols⟩ := h.distance_eq_ok hne
  have hr := h.rows_pos
  have hc := h.cols_pos
  have hspan := h.span_le
  have hsize := h.size_le
  have hlast : rows - 1 + (cols - 1) * d < w.size := by omega
  have hbytes : (rows - 1 + (cols - 1) * d) * width ≤ Word.maxBytes :=
    (Nat.mul_le_mul_right width hlast.le).trans h.bytes_le
  rw [misfit?, if_neg (by have := h.extent_le; omega), hd]
  simp only [bind, Except.bind, pure, Except.pure]
  rw [if_neg (by omega), if_neg (by omega), if_neg (by omega)]

theorem Fits.misfit?_eq_overflow (h : Fits width w rows cols ld) (hld : ld = Word.maxBytes + 1)
    (size : ℕ) : misfit? width size rows cols (max ld 1) = .error .overflow := by
  have hdist : distance (max ld 1) = .error .overflow := by
    subst hld
    rfl
  rw [misfit?, if_neg (by have := h.extent_le; omega), hdist]
  rfl

theorem Fits.span_eq_ok (h : Fits width w rows cols ld) :
    span rows cols ld = .ok (ld * (cols - 1) + rows) := by
  have hword : Word.maxBytes < Word.bound := by decide
  rw [span_eq h.rows_pos h.cols_pos, if_pos ((h.span_le.trans h.size_le).trans_lt hword)]

theorem Fits.ofWindow_eq_ok (h : Fits width w rows cols ld) (hne : ld ≠ Word.maxBytes + 1) :
    ofWindow width w rows cols ld = .ok ⟨w, rows, cols, ld⟩ := by
  have hle := h.rows_le
  rw [ofWindow, if_neg (by omega), h.span_eq_ok]
  change (liftM (misfit? width (min (ld * (cols - 1) + rows) w.size) rows cols (max ld 1)) :
    Outcome (Option Misfit)) >>= _ = _
  rw [h.misfit?_eq_none hne]
  rfl

theorem Fits.ofWindow_eq_overflow (h : Fits width w rows cols ld) (hld : ld = Word.maxBytes + 1) :
    ofWindow width w rows cols ld = .error (.fault .overflow) := by
  have hle := h.rows_le
  rw [ofWindow, if_neg (by omega), h.span_eq_ok]
  change (liftM (misfit? width (min (ld * (cols - 1) + rows) w.size) rows cols (max ld 1)) :
    Outcome (Option Misfit)) >>= _ = _
  rw [h.misfit?_eq_overflow hld]
  rfl

theorem Fits.offset_lt (h : Fits width w rows cols ld) {row col : ℕ} (hr : row < rows)
    (hc : col < cols) : offset ⟨w, rows, cols, ld⟩ row col < ld * (cols - 1) + rows := by
  unfold offset isBackward
  by_cases hld : Word.maxBytes < ld
  · simp [hld, h.cols_eq_one hld, hr]
  · simp only [hld, decide_false, if_false, Bool.false_eq_true]
    exact inside_of_span_le le_rfl row hr col hc

theorem get?_eq {v : View} {α : Type} (data : Array α) {row col : ℕ} (hr : row < v.rows)
    (hc : col < v.cols) (hin : v.offset row col < v.window.size) :
    v.get? data row col = data[v.window.start + v.offset row col]? := by
  rw [get?, if_pos ⟨hr, hc⟩, Window.read, if_pos hin]
  cases data[v.window.start + v.offset row col]? <;> rfl

end View

theorem array_beq_iff {α : Type} [BEq α] {xs ys : Array α} :
    (xs == ys) = true ↔ xs.size = ys.size ∧ ∀ i < xs.size, (xs[i]? == ys[i]?) = true := by
  rw [Array.beq_eq_decide]
  split_ifs with hsize
  · simp only [decide_eq_true_eq, hsize, true_and]
    refine forall₂_congr fun i hi => ?_
    rw [Array.getElem?_eq_getElem (hsize ▸ hi), Array.getElem?_eq_getElem hi]
    rfl
  · simp [hsize]

namespace Problem

variable {α : Type} {p : Problem α}

theorem slice_whole {size start stop : ℕ} (hle : start ≤ stop) (hstop : stop ≤ size) :
    (Window.whole size).slice start stop = .ok ⟨start, stop - start⟩ := by
  rw [Window.slice, if_pos ⟨hle, hstop⟩, Window.whole, Nat.zero_add]

def slotCells (p : Problem α) (data : Array α) (slot : ℕ) : Array α :=
  data.extract (slot * p.slotB) ((slot + 1) * p.slotB)

section SlotCells

variable {data data' : Array α} {count slot : ℕ} (hsize : data.size = p.slotB * count)
  (hsize' : data'.size = p.slotB * count) (hs : slot < count)

include hsize hs

theorem slot_end_le : (slot + 1) * p.slotB ≤ data.size := by
  rw [hsize, Nat.mul_comm p.slotB]
  exact Nat.mul_le_mul_right _ hs

theorem size_slotCells : (p.slotCells data slot).size = p.slotB := by
  rw [slotCells, Array.size_extract, min_eq_left (slot_end_le hsize hs), Nat.add_mul]
  omega

theorem getElem?_slotCells {i : ℕ} (hi : i < p.slotB) :
    (p.slotCells data slot)[i]? = data[slot * p.slotB + i]? := by
  have hi' : i < min ((slot + 1) * p.slotB) data.size - slot * p.slotB := by
    rw [min_eq_left (slot_end_le hsize hs), Nat.add_mul]
    omega
  rw [slotCells, Array.getElem?_extract, if_pos hi']

include hsize'

theorem slotCells_beq_iff [BEq α] : (p.slotCells data slot == p.slotCells data' slot) = true ↔
    ∀ i < p.slotB, (data[slot * p.slotB + i]? == data'[slot * p.slotB + i]?) = true := by
  rw [array_beq_iff, size_slotCells hsize hs, size_slotCells hsize' hs, and_iff_right rfl]
  refine forall₂_congr fun i hi => ?_
  rw [getElem?_slotCells hsize hs hi, getElem?_slotCells hsize' hs hi]

end SlotCells

def blockView (p : Problem α) (count slot : ℕ) : View where
  window := ⟨p.firstB + slot * p.slotB, p.slotB * count - (p.firstB + slot * p.slotB)⟩
  rows := p.update.rows
  cols := p.update.cols
  ld := p.update.ldb

variable [Scalar α] {count slot : ℕ}

theorem Sound.blockView_fits (hp : p.Sound)
    (hbytes : p.slotB * count * Scalar.width α ≤ Word.maxBytes) (hs : slot < count) :
    View.Fits (Scalar.width α) (p.blockView count slot).window p.update.rows p.update.cols
      p.update.ldb where
  width_pos := Scalar.width_pos
  rows_pos := hp.rows_pos
  cols_pos := hp.cols_pos
  rows_le := hp.rows_le_ldb
  span_le := by
    have hend := block_end_le hp.fitsB hs
    simp only [blockView]
    omega
  bytes_le := (Nat.mul_le_mul_right _ (Nat.sub_le ..)).trans hbytes

section Views

variable {actual expected : Array α} (hactual : actual.size = p.slotB * count)
  (hexpected : expected.size = p.slotB * count) (hs : slot < count)

include hactual hexpected hs

theorem slotDiffers_eq_views (hfirst : p.firstB ≤ p.slotB) (hpos : 0 < p.slotB)
    (hlt : p.slotB * count < Word.bound) : p.slotDiffers actual expected slot = (do
    let got ← View.ofWindow (Scalar.width α) (p.blockView count slot).window
      p.update.rows p.update.cols p.update.ldb
    let want ← View.ofWindow (Scalar.width α) (p.blockView count slot).window
      p.update.rows p.update.cols p.update.ldb
    if got.agree want actual expected then
      return !(p.slotCells actual slot == p.slotCells expected slot)
    else return true) := by
  have hend : p.firstB + slot * p.slotB + 0 ≤ p.slotB * count := block_end_le hfirst hs
  have hlast := slot_end_le hactual hs
  have hlast' := slot_end_le hexpected hs
  have hslot : slot + 1 ≤ (slot + 1) * p.slotB := Nat.le_mul_of_pos_right _ hpos
  have hstart : slot * p.slotB ≤ (slot + 1) * p.slotB := Nat.mul_le_mul_right _ (Nat.le_succ _)
  have htail : (Window.whole actual.size).tail (p.firstB + slot * p.slotB) =
      .ok (p.blockView count slot).window := by
    rw [Window.tail_whole (by omega), hactual]
    rfl
  rw [slotDiffers,
    outcome_bind_of_fault_ok (Word.mul_eq_ok_iff.mpr ⟨show slot * p.slotB < _ by omega, rfl⟩),
    outcome_bind_of_fault_ok (Word.add_eq_ok_iff.mpr ⟨show slot + 1 < _ by omega, rfl⟩),
    outcome_bind_of_fault_ok (Word.mul_eq_ok_iff.mpr ⟨show (slot + 1) * p.slotB < _ by omega, rfl⟩),
    outcome_bind_of_fault_ok
      (Word.add_eq_ok_iff.mpr ⟨show p.firstB + slot * p.slotB < _ by omega, rfl⟩)]
  simp only [outcome_bind_of_fault_ok htail,
    outcome_bind_of_fault_ok (hexpected.trans hactual.symm ▸ htail)]
  -- Once both views are there, the two slots are cut out as a whole.
  refine congrArg _ (funext fun got => congrArg _ (funext fun want => ?_))
  rw [outcome_bind_of_fault_ok (slice_whole hstart hlast),
    outcome_bind_of_fault_ok (slice_whole hstart hlast')]
  simp only [Window.values, Nat.add_sub_of_le hstart, slotCells]

end Views

section Differ

variable {actual expected : Array α} (hp : p.Sound) (hactual : actual.size = p.slotB * count)
  (hexpected : expected.size = p.slotB * count)
  (hbytes : p.slotB * count * Scalar.width α ≤ Word.maxBytes) (hs : slot < count)

include hp hactual hexpected hbytes hs

theorem agree_of_slotCells_beq
    (h : (p.slotCells actual slot == p.slotCells expected slot) = true) :
    (p.blockView count slot).agree (p.blockView count slot) actual expected = true := by
  have hfits := hp.blockView_fits hbytes hs
  have hfit := hp.fitsB
  have hcells := (slotCells_beq_iff hactual hexpected hs).mp h
  simp only [View.agree, List.all_eq_true, List.mem_range]
  intro row hr col hc
  have hoff : (p.blockView count slot).offset row col <
      p.update.ldb * (p.update.cols - 1) + p.update.rows := hfits.offset_lt hr hc
  have hin : (p.blockView count slot).offset row col < (p.blockView count slot).window.size :=
    hoff.trans_le hfits.span_le
  rw [View.get?_eq _ hr hc hin, View.get?_eq _ hr hc hin]
  -- Cell `(row, col)` of the block is cell `firstB + offset` of its slot.
  have hplace : (p.blockView count slot).window.start + (p.blockView count slot).offset row col =
      slot * p.slotB + (p.firstB + (p.blockView count slot).offset row col) := by
    simp only [blockView]
    omega
  rw [hplace]
  exact hcells _ (by omega)

/-- A slot differs when its cells do, padding included. -/
theorem slotDiffers_eq_ok (hne : p.update.ldb ≠ Word.maxBytes + 1) :
    p.slotDiffers actual expected slot =
      .ok !(p.slotCells actual slot == p.slotCells expected slot) := by
  have hview := (hp.blockView_fits hbytes hs).ofWindow_eq_ok hne
  rw [slotDiffers_eq_views hactual hexpected hs hp.firstB_le hp.slotB_pos
    (lt_bound_of_bytes_le hbytes), except_bind_of_ok hview, except_bind_of_ok hview]
  change (if (p.blockView count slot).agree (p.blockView count slot) actual expected then _
    else _) = _
  by_cases hbeq : (p.slotCells actual slot == p.slotCells expected slot) = true
  · rw [if_pos (agree_of_slotCells_beq hp hactual hexpected hbytes hs hbeq)]
    rfl
  · simp only [hbeq]
    split_ifs <;> rfl

/-- The least signed word has no magnitude, so columns that far apart cannot be viewed. -/
theorem slotDiffers_eq_overflow (hld : p.update.ldb = Word.maxBytes + 1) :
    p.slotDiffers actual expected slot = .error (.fault .overflow) := by
  rw [slotDiffers_eq_views hactual hexpected hs hp.firstB_le hp.slotB_pos
    (lt_bound_of_bytes_le hbytes),
    except_bind_of_error ((hp.blockView_fits hbytes hs).ofWindow_eq_overflow hld)]

end Differ

section Mismatches

variable {actual expected : Array α} (hp : p.Sound) (hactual : actual.size = p.slotB * count)
  (hexpected : expected.size = p.slotB * count)
  (hbytes : p.slotB * count * Scalar.width α ≤ Word.maxBytes)

include hp hactual hexpected hbytes

theorem mismatches_eq_ok (hne : p.update.ldb ≠ Word.maxBytes + 1) :
    p.mismatches actual expected count = .ok ((List.range count).filter fun slot =>
      !(p.slotCells actual slot == p.slotCells expected slot)).toArray :=
  collect_eq_ok fun _ hs => slotDiffers_eq_ok hp hactual hexpected hbytes hs hne

theorem mismatches_eq_overflow (hcount : 0 < count) (hld : p.update.ldb = Word.maxBytes + 1) :
    p.mismatches actual expected count = .error (.fault .overflow) :=
  collect_eq_error hcount (slotDiffers_eq_overflow hp hactual hexpected hbytes hcount hld)

theorem mismatches_cases (hcount : 0 < count) :
    (p.update.ldb = Word.maxBytes + 1 ∧
      p.mismatches actual expected count = .error (.fault .overflow)) ∨
    (p.update.ldb ≠ Word.maxBytes + 1 ∧
      ∃ found, p.mismatches actual expected count = .ok found) := by
  by_cases hld : p.update.ldb = Word.maxBytes + 1
  · exact Or.inl ⟨hld, p.mismatches_eq_overflow hp hactual hexpected hbytes hcount hld⟩
  · exact Or.inr ⟨hld, _, p.mismatches_eq_ok hp hactual hexpected hbytes hld⟩

end Mismatches

end Problem

end BatchAxpby
