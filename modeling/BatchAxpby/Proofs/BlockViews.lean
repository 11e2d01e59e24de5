import BatchAxpby.Proofs.Comparison
import BatchAxpby.Proofs.KernelContract

/-! # Views and the kernel

A view checks the end of its block twice, with bounds that are written differently, and the kernel
checks each cell. The three checks agree: a block that does not overlap itself can be viewed exactly
if the kernel can work on it, and the view shows the cells that the kernel updates.
-/

namespace BatchAxpby

namespace View

variable {width rows cols ld : ℕ} {w : Window}

section Refused

variable (hr : 0 < rows) (hc : 0 < cols)

include hr hc

theorem ofWindow_of_ld_lt (h : ld < rows) (width : ℕ) (w : Window) :
    ofWindow width w rows cols ld = .error (.refused (.viewLeading ld rows)) := by
  rw [ofWindow, if_pos ⟨hr, hc, h⟩]
  rfl

variable (hrows : rows ≤ ld)

include hrows

theorem ofWindow_of_bound_le_span (h : Word.bound ≤ ld * (cols - 1) + rows) (width : ℕ)
    (w : Window) : ofWindow width w rows cols ld = .error (.fault .overflow) := by
  rw [ofWindow, if_neg (by omega), span_eq hr hc, if_neg (Nat.not_lt.mpr h)]
  rfl

theorem exists_misfit (hld : ld ≤ Word.maxBytes) (h : w.size < ld * (cols - 1) + rows)
    (width : ℕ) :
    ∃ reason, misfit? width (min (ld * (cols - 1) + rows) w.size) rows cols (max ld 1) =
      .ok (some reason) := by
  have hdist : distance (max ld 1) = .ok ld := by
    rw [max_eq_left (by omega), distance, isBackward, decide_eq_false (by omega)]
    rfl
  have hlast : w.size ≤ rows - 1 + (cols - 1) * ld := by
    rw [Nat.mul_comm]
    omega
  rw [misfit?, hdist, Nat.min_eq_right h.le]
  by_cases hextent : Word.maxBytes < extent rows cols
  · rw [if_pos hextent]
    exact ⟨.overflow, rfl⟩
  rw [if_neg hextent]
  simp only [bind, Except.bind, pure, Except.pure]
  -- A last cell that is too far from the start overflows before the window is looked at.
  by_cases hfar : Word.maxBytes < rows - 1 + (cols - 1) * ld ∨
      Word.maxBytes < (rows - 1 + (cols - 1) * ld) * width
  · rw [if_pos hfar]
    exact ⟨.overflow, rfl⟩
  · rw [if_neg hfar, if_neg (by omega), if_pos hlast]
    exact ⟨.outOfBounds, rfl⟩

theorem ofWindow_of_size_lt_span (hld : ld ≤ Word.maxBytes)
    (h : w.size < ld * (cols - 1) + rows) (hlt : ld * (cols - 1) + rows < Word.bound)
    (width : ℕ) : ∃ reason : Misfit, ofWindow width w rows cols ld = .error (.refused
      (.viewSize (ld * (cols - 1) + rows) rows cols ld w.size reason.text)) := by
  obtain ⟨reason, hmisfit⟩ := exists_misfit hr hc hrows hld h width
  refine ⟨reason, ?_⟩
  rw [ofWindow, if_neg (by omega), span_eq hr hc, if_pos hlt]
  change (liftM (misfit? width (min (ld * (cols - 1) + rows) w.size) rows cols (max ld 1)) :
    Outcome (Option Misfit)) >>= _ = _
  rw [hmisfit]
  rfl

end Refused

/-- A block is viewed if it lies in the window and its columns do not overlap. Otherwise the view is
refused, or the end of the block overflows. -/
theorem ofWindow_cases (hwidth : 0 < width) (hr : 0 < rows) (hc : 0 < cols)
    (hld : ld ≤ Word.maxBytes) (hbytes : w.size * width ≤ Word.maxBytes) :
    (Fits width w rows cols ld ∧ ofWindow width w rows cols ld = .ok ⟨w, rows, cols, ld⟩) ∨
    (rows ≤ ld ∧ Word.bound ≤ ld * (cols - 1) + rows ∧
      ofWindow width w rows cols ld = .error (.fault .overflow)) ∨
    (ld < rows ∨ w.size < ld * (cols - 1) + rows ∧ ld * (cols - 1) + rows < Word.bound) ∧
      ∃ x y, ofWindow width w rows cols ld = .error (.refused (.dimensionMismatch x y)) := by
  by_cases hrows : rows ≤ ld
  · by_cases hspan : ld * (cols - 1) + rows ≤ w.size
    · have hfits : Fits width w rows cols ld := ⟨hwidth, hr, hc, hrows, hspan, hbytes⟩
      exact .inl ⟨hfits, hfits.ofWindow_eq_ok (by omega)⟩
    · by_cases hlt : ld * (cols - 1) + rows < Word.bound
      · obtain ⟨reason, hview⟩ :=
          ofWindow_of_size_lt_span hr hc hrows hld (Nat.lt_of_not_le hspan) hlt width
        exact .inr (.inr ⟨.inr ⟨Nat.lt_of_not_le hspan, hlt⟩, _, _, hview⟩)
      · exact .inr (.inl ⟨hrows, Nat.le_of_not_lt hlt,
          ofWindow_of_bound_le_span hr hc hrows (Nat.le_of_not_lt hlt) width w⟩)
  · exact .inr (.inr ⟨.inl (Nat.lt_of_not_le hrows), _, _,
      ofWindow_of_ld_lt hr hc (Nat.lt_of_not_le hrows) width w⟩)

section Conditions

variable (hwidth : 0 < width) (hr : 0 < rows) (hc : 0 < cols) (hld : ld ≤ Word.maxBytes)
  (hbytes : w.size * width ≤ Word.maxBytes)

include hwidth hr hc hld hbytes

theorem ofWindow_eq_ok_iff {v : View} : ofWindow width w rows cols ld = .ok v ↔
    (rows ≤ ld ∧ ld * (cols - 1) + rows ≤ w.size) ∧ v = ⟨w, rows, cols, ld⟩ := by
  have hword : Word.maxBytes < Word.bound := by decide
  have hsize : w.size ≤ Word.maxBytes := (Nat.le_mul_of_pos_right _ hwidth).trans hbytes
  rcases ofWindow_cases hwidth hr hc hld hbytes with
    ⟨hfits, hview⟩ | ⟨-, hover, hview⟩ | ⟨hshort, x, y, hview⟩
  · rw [hview, and_iff_right ⟨hfits.rows_le, hfits.span_le⟩, Except.ok.injEq, eq_comm]
  · rw [hview]
    exact ⟨nofun, fun ⟨⟨_, hspan⟩, _⟩ => by omega⟩
  · rw [hview]
    exact ⟨nofun, fun ⟨⟨hrows, hspan⟩, _⟩ => by omega⟩

theorem ofWindow_eq_fault_iff : (∃ fault, ofWindow width w rows cols ld = .error (.fault fault)) ↔
    rows ≤ ld ∧ Word.bound ≤ ld * (cols - 1) + rows := by
  have hword : Word.maxBytes < Word.bound := by decide
  rcases ofWindow_cases hwidth hr hc hld hbytes with
    ⟨hfits, hview⟩ | ⟨hrows, hover, hview⟩ | ⟨hshort, x, y, hview⟩
  · have hspan := hfits.span_le
    have hsize := hfits.size_le
    rw [hview]
    exact ⟨nofun, fun ⟨_, hover⟩ => by omega⟩
  · exact ⟨fun _ => ⟨hrows, hover⟩, fun _ => ⟨_, hview⟩⟩
  · rw [hview]
    exact ⟨nofun, fun ⟨hrows, hover⟩ => by omega⟩

theorem ofWindow_refused {error : Error}
    (h : ofWindow width w rows cols ld = .error (.refused error)) :
    ∃ x y, error = .dimensionMismatch x y := by
  rcases ofWindow_cases hwidth hr hc hld hbytes with
    ⟨-, hview⟩ | ⟨-, -, hview⟩ | ⟨-, x, y, hview⟩
  · cases hview.symm.trans h
  · cases hview.symm.trans h
  · cases hview.symm.trans h
    exact ⟨x, y, rfl⟩

end Conditions

theorem offset_eq {v : View} (h : v.ld ≤ Word.maxBytes) (row col : ℕ) :
    v.offset row col = row + col * v.ld := by
  rw [offset, isBackward, decide_eq_false (Nat.not_lt.mpr h)]
  rfl

theorem get?_eq_getElem? {α : Type} (data : Array α) (hspan : ld * (cols - 1) + rows ≤ w.size)
    (hld : ld ≤ Word.maxBytes) {row col : ℕ} (hrow : row < rows) (hcol : col < cols) :
    get? ⟨w, rows, cols, ld⟩ data row col = data[w.start + (row + col * ld)]? := by
  have hoffset : offset ⟨w, rows, cols, ld⟩ row col = row + col * ld := offset_eq hld row col
  have hin := inside_of_span_le hspan row hrow col hcol
  rw [get?_eq data hrow hcol (by rwa [hoffset]), hoffset]

variable {α : Type} [Scalar α]

/-- The cells that the view shows are updated once, from the block of `A` at the start of a window,
and no other cell has changed. -/
structure Updated (v : View) (u : Update α) (a : Array α) (wa : Window) (before after : Array α) :
    Prop where
  cell : ∀ row < v.rows, ∀ col < v.cols, ∃ x y, a[wa.start + (row + col * u.lda)]? = some x ∧
    v.get? before row col = some y ∧
    v.get? after row col = some (Scalar.axpby u.alpha x u.beta y)
  other : ∀ k, (∀ row < v.rows, ∀ col < v.cols, k ≠ v.window.start + v.offset row col) →
    after[k]? = before[k]?

section Kernel

variable {u : Update α} {a b : Array α} {wa wb : Window} (hr : 0 < u.rows) (hc : 0 < u.cols)
  (ha : wa.Within a.size) (hb : wb.Within b.size) (hsa : a.size < Word.bound)
  (hsb : b.size < Word.bound)

include hr hc ha hb hsa hsb

theorem exists_apply_iff : (∃ out, u.apply a wa wb b = .ok () out) ↔
    u.lda * (u.cols - 1) + u.rows ≤ wa.size ∧ u.ldb * (u.cols - 1) + u.rows ≤ wb.size := by
  rw [Update.exists_apply_eq_ok_iff ha hb hsa hsb, or_iff_right hr.ne', or_iff_right hc.ne']

theorem updated_of_apply (hrows : u.rows ≤ u.ldb) (hldb : u.ldb ≤ Word.maxBytes) {out : Array α}
    (h : u.apply a wa wb b = .ok () out) : Updated ⟨wb, u.rows, u.cols, u.ldb⟩ u a wa b out := by
  obtain ⟨⟨hia, hib⟩, rfl⟩ := (Update.apply_eq_ok_iff ha hb hsa hsb).mp h
  have hspan := span_le_of_inside hr hc hib
  constructor
  · intro row hrow col hcol
    obtain ⟨x, hx, -⟩ := Window.read_of_lt ha (hia row hrow col hcol)
    obtain ⟨y, hy, -⟩ := Window.read_of_lt hb (hib row hrow col hcol)
    refine ⟨x, y, hx, by rw [get?_eq_getElem? b hspan hldb hrow hcol, hy], ?_⟩
    rw [get?_eq_getElem? _ hspan hldb hrow hcol,
      u.getElem?_touchAll_touches hrows a b _ _ hrow hcol, hy, Update.newValue_of_getElem? u a hx]
    rfl
  · intro k hk
    refine u.getElem?_touchAll_touches_of_ne a b _ _ fun row hrow col hcol => ?_
    have hne := hk row hrow col hcol
    rwa [offset_eq hldb] at hne

end Kernel

/-- With columns less than `2 ^ 63` apart, a block can be viewed exactly if no columns overlap
and its last cell lies in the window. The view overflows only with the end of the block, and in all
other cases it is refused for its dimensions. It shows the cells of the block. If the columns do not
overlap, the view of an operand exists exactly if the kernel ends on that operand, and the view of
`B` shows the cells that the kernel updates. -/
theorem views_address_kernel_cells (data : Array α) (w : Window) (rows cols ld : ℕ)
    (hw : w.Within data.size) (hbytes : data.size * Scalar.width α ≤ Word.maxBytes)
    (hr : 0 < rows) (hc : 0 < cols) (hld : ld ≤ Word.maxBytes) :
    ((∃ v, ofWindow (Scalar.width α) w rows cols ld = .ok v) ↔
      rows ≤ ld ∧ ld * (cols - 1) + rows ≤ w.size) ∧
    ((∃ fault, ofWindow (Scalar.width α) w rows cols ld = .error (.fault fault)) ↔
      rows ≤ ld ∧ Word.bound ≤ ld * (cols - 1) + rows) ∧
    (∀ error, ofWindow (Scalar.width α) w rows cols ld = .error (.refused error) →
      ∃ x y, error = .dimensionMismatch x y) ∧
    (∀ v, ofWindow (Scalar.width α) w rows cols ld = .ok v → v.rows = rows ∧ v.cols = cols ∧
      ∀ row < rows, ∀ col < cols, ∃ x, v.get? data row col = some x ∧
        data[w.start + (row + col * ld)]? = some x) ∧
    ∀ (u : Update α) (other : Array α) (wo : Window), rows ≤ ld → u.rows = rows → u.cols = cols →
      wo.Within other.size → other.size < Word.bound →
      (u.lda = ld → u.ldb * (cols - 1) + rows ≤ wo.size →
        ((∃ out, u.apply data w wo other = .ok () out) ↔
          ∃ v, ofWindow (Scalar.width α) w rows cols ld = .ok v)) ∧
      (u.ldb = ld → u.lda * (cols - 1) + rows ≤ wo.size →
        ((∃ out, u.apply other wo w data = .ok () out) ↔
          ∃ v, ofWindow (Scalar.width α) w rows cols ld = .ok v) ∧
        ∀ v out, ofWindow (Scalar.width α) w rows cols ld = .ok v →
          u.apply other wo w data = .ok () out → v.Updated u other wo data out) := by
  have hsize : data.size < Word.bound := lt_bound_of_bytes_le hbytes
  have hwbytes : w.size * Scalar.width α ≤ Word.maxBytes :=
    (Nat.mul_le_mul_right _ ((Nat.le_add_left ..).trans hw)).trans hbytes
  have hok := fun v => ofWindow_eq_ok_iff (v := v) Scalar.width_pos hr hc hld hwbytes
  have hends : (∃ v, ofWindow (Scalar.width α) w rows cols ld = .ok v) ↔
      rows ≤ ld ∧ ld * (cols - 1) + rows ≤ w.size := by
    simp only [hok, exists_and_left, exists_eq, and_true]
  refine ⟨hends, ofWindow_eq_fault_iff Scalar.width_pos hr hc hld hwbytes,
    fun error => ofWindow_refused Scalar.width_pos hr hc hld hwbytes, fun v hv => ?_, ?_⟩
  · obtain ⟨⟨hrows, hspan⟩, rfl⟩ := (hok v).mp hv
    refine ⟨rfl, rfl, fun row hrow col hcol => ?_⟩
    obtain ⟨x, hx, -⟩ := Window.read_of_lt hw (inside_of_span_le hspan row hrow col hcol)
    exact ⟨x, by rw [get?_eq_getElem? data hspan hld hrow hcol, hx], hx⟩
  · rintro u other wo hrows rfl rfl hwo hother
    rw [hends, and_iff_right hrows]
    constructor
    · rintro rfl hfits
      rw [exists_apply_iff hr hc hw hwo hsize hother, and_iff_left hfits]
    · rintro rfl hfits
      refine ⟨by rw [exists_apply_iff hr hc hwo hw hother hsize, and_iff_right hfits], ?_⟩
      intro v out hv hout
      obtain ⟨-, rfl⟩ := (hok v).mp hv
      exact updated_of_apply hr hc hwo hw hother hsize hrows hld hout

def paddedCells : Array Float32 := #[9, 1, 3, 9, 2, 4]

def paddedUpdate : Update Float32 where
  rows := 2
  cols := 2
  alpha := 2
  beta := 3
  lda := 2
  ldb := 3
  layoutA := .plain
  layoutB := .plain

/-- The block ends with its window, where the view exists and the kernel ends. One cell less is too
short for both, and columns that are too far apart overflow. -/
theorem paddedCells_addressed :
    (∃ v out, ofWindow (Scalar.width Float32) ⟨1, 5⟩ 2 2 3 = .ok v ∧
      v.get? paddedCells 1 1 = some 4 ∧
      paddedUpdate.apply #[1, 5, 6, 7] (.whole 4) ⟨1, 5⟩ paddedCells = .ok () out ∧
      v.Updated paddedUpdate #[1, 5, 6, 7] (.whole 4) paddedCells out) ∧
    (¬ ∃ v, ofWindow (Scalar.width Float32) ⟨1, 4⟩ 2 2 3 = .ok v) ∧
    (¬ ∃ out, paddedUpdate.apply #[1, 5, 6, 7] (.whole 4) ⟨1, 4⟩ paddedCells = .ok () out) ∧
    ∃ fault, ofWindow (Scalar.width Float32) ⟨1, 5⟩ 2 4 Word.maxBytes =
      .error (.fault fault) := by
  have hwhole : Window.Within (.whole 4) (#[1, 5, 6, 7] : Array Float32).size := Nat.le_refl 4
  obtain ⟨hends, -, -, hcells, hkernel⟩ := views_address_kernel_cells paddedCells ⟨1, 5⟩ 2 2 3
    (Nat.le_refl 6) (by decide) (by decide) (by decide) (by decide)
  obtain ⟨hshort, -, -, -, hstops⟩ := views_address_kernel_cells paddedCells ⟨1, 4⟩ 2 2 3
    (Nat.le_succ 5) (by decide) (by decide) (by decide) (by decide)
  obtain ⟨-, hfault, -⟩ := views_address_kernel_cells paddedCells ⟨1, 5⟩ 2 4 Word.maxBytes
    (Nat.le_refl 6) (by decide) (by decide) (by decide) (by decide)
  have hnone : ¬ ∃ v, ofWindow (Scalar.width Float32) ⟨1, 4⟩ 2 2 3 = .ok v :=
    mt hshort.mp (by decide)
  obtain ⟨-, hupdates⟩ :=
    hkernel paddedUpdate #[1, 5, 6, 7] (.whole 4) (by decide) rfl rfl hwhole (by decide)
  obtain ⟨hrun, hupdated⟩ := hupdates rfl (by decide)
  obtain ⟨-, hshorter⟩ :=
    hstops paddedUpdate #[1, 5, 6, 7] (.whole 4) (by decide) rfl rfl hwhole (by decide)
  obtain ⟨v, hv⟩ := hends.mpr (by decide)
  obtain ⟨out, hout⟩ := hrun.mpr ⟨v, hv⟩
  obtain ⟨x, hx, hdata⟩ := (hcells v hv).2.2 1 (by decide) 1 (by decide)
  cases hdata
  exact ⟨⟨v, out, hv, hx, hout, hupdated v out hv hout⟩, hnone,
    mt (hshorter rfl (by decide)).1.mp hnone, hfault.mpr (by decide)⟩

end View

end BatchAxpby
