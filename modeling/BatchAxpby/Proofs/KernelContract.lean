import BatchAxpby.Proofs.Slots

/-! # The contract of the kernel

The kernel ends if both operands hold the whole block, and only then. When the columns of `B` do
not overlap, every cell of the block is updated from the value it had before, so the sweep that
the layouts choose does not show in the result.
-/

namespace BatchAxpby

theorem inside_iff_span_le {rows cols ld size : ℕ} :
    Inside rows cols ld size ↔ rows = 0 ∨ cols = 0 ∨ ld * (cols - 1) + rows ≤ size := by
  constructor
  · intro h
    rcases Nat.eq_zero_or_pos rows with hr | hr
    · exact .inl hr
    rcases Nat.eq_zero_or_pos cols with hc | hc
    · exact .inr (.inl hc)
    · exact .inr (.inr (span_le_of_inside hr hc h))
  · rintro (rfl | rfl | h)
    · exact fun row hr => absurd hr row.not_lt_zero
    · exact fun row _ col hc => absurd hc col.not_lt_zero
    · exact inside_of_span_le h

namespace Update

variable {α : Type} [Scalar α]

section Windows

variable {u : Update α} {a b : Array α} {wa wb : Window}
  (ha : wa.Within a.size) (hb : wb.Within b.size)
  (hsa : a.size < Word.bound) (hsb : b.size < Word.bound)

include ha hb hsa hsb

theorem apply_eq_ok_iff {out : Array α} : u.apply a wa wb b = .ok () out ↔
    (Inside u.rows u.cols u.lda wa.size ∧ Inside u.rows u.cols u.ldb wb.size) ∧
      out = u.touchAll a (u.touches wa.start wb.start) b := by
  constructor
  · intro h
    obtain ⟨hia, hib⟩ := inside_of_apply_eq_ok h
    rw [apply_eq_ok ha hb hsa hsb hia hib] at h
    cases h
    exact ⟨⟨hia, hib⟩, rfl⟩
  · rintro ⟨⟨hia, hib⟩, rfl⟩
    exact apply_eq_ok ha hb hsa hsb hia hib

theorem exists_apply_eq_ok_iff : (∃ out, u.apply a wa wb b = .ok () out) ↔
    u.rows = 0 ∨ u.cols = 0 ∨
      u.lda * (u.cols - 1) + u.rows ≤ wa.size ∧ u.ldb * (u.cols - 1) + u.rows ≤ wb.size := by
  simp only [apply_eq_ok_iff ha hb hsa hsb, exists_and_left, exists_eq, and_true,
    inside_iff_span_le]
  tauto

end Windows

section Columns

variable (u : Update α) (hld : u.rows ≤ u.ldb) (a b : Array α) (baseA baseB : ℕ)

include hld in
theorem getElem?_touchAll_touches {row col : ℕ} (hr : row < u.rows) (hc : col < u.cols) :
    (u.touchAll a (u.touches baseA baseB) b)[baseB + (row + col * u.ldb)]? =
      b[baseB + (row + col * u.ldb)]?.map (u.newValue a (baseA + (row + col * u.lda))) :=
  u.getElem?_touchAll_of_mem a (u.nodup_targets hld baseA baseB)
    (mem_touches.mpr ⟨row, hr, col, hc, rfl⟩) b

theorem getElem?_touchAll_touches_of_ne {k : ℕ}
    (hk : ∀ row < u.rows, ∀ col < u.cols, k ≠ baseB + (row + col * u.ldb)) :
    (u.touchAll a (u.touches baseA baseB) b)[k]? = b[k]? := by
  apply u.getElem?_touchAll_of_forall_ne a
  intro t ht
  obtain ⟨row, hr, col, hc, rfl⟩ := mem_touches.mp ht
  exact (hk row hr col hc).symm

include hld in
theorem touchAll_touches_of_layouts (layoutA layoutB : Layout) :
    { u with layoutA, layoutB }.touchAll a ({ u with layoutA, layoutB }.touches baseA baseB) b =
      u.touchAll a (u.touches baseA baseB) b := by
  apply Array.ext_getElem?
  intro k
  by_cases hk : ∃ row < u.rows, ∃ col < u.cols, k = baseB + (row + col * u.ldb)
  · obtain ⟨row, hr, col, hc, rfl⟩ := hk
    rw [u.getElem?_touchAll_touches hld a b baseA baseB hr hc]
    exact getElem?_touchAll_touches { u with layoutA, layoutB } hld a b baseA baseB hr hc
  · push Not at hk
    rw [u.getElem?_touchAll_touches_of_ne a b baseA baseB hk]
    exact getElem?_touchAll_touches_of_ne { u with layoutA, layoutB } a b baseA baseB hk

end Columns

/-- The kernel ends exactly if both operands hold the whole block. With columns of `B` that do not
overlap it updates every cell of the block from its old value and no other cell, for any
layouts. -/
theorem apply_contract {u : Update α} {a b : Array α} {wa wb : Window}
    (ha : wa.Within a.size) (hb : wb.Within b.size)
    (hsa : a.size < Word.bound) (hsb : b.size < Word.bound) :
    ((∃ out, u.apply a wa wb b = .ok () out) ↔
      u.rows = 0 ∨ u.cols = 0 ∨
        u.lda * (u.cols - 1) + u.rows ≤ wa.size ∧ u.ldb * (u.cols - 1) + u.rows ≤ wb.size) ∧
    (u.rows ≤ u.ldb → ∀ out, u.apply a wa wb b = .ok () out →
      out.size = b.size ∧
      (∀ row < u.rows, ∀ col < u.cols, ∃ x y,
        a[wa.start + (row + col * u.lda)]? = some x ∧
        b[wb.start + (row + col * u.ldb)]? = some y ∧
        out[wb.start + (row + col * u.ldb)]? = some (Scalar.axpby u.alpha x u.beta y)) ∧
      (∀ k, (∀ row < u.rows, ∀ col < u.cols, k ≠ wb.start + (row + col * u.ldb)) →
        out[k]? = b[k]?) ∧
      ∀ layoutA layoutB, { u with layoutA, layoutB }.apply a wa wb b = .ok () out) := by
  refine ⟨exists_apply_eq_ok_iff ha hb hsa hsb, ?_⟩
  intro hld out hout
  obtain ⟨⟨hia, hib⟩, rfl⟩ := (apply_eq_ok_iff ha hb hsa hsb).mp hout
  refine ⟨u.size_touchAll .., ?_, ?_, ?_⟩
  · intro row hr col hc
    obtain ⟨x, hx, -⟩ := Window.read_of_lt ha (hia row hr col hc)
    obtain ⟨y, hy, -⟩ := Window.read_of_lt hb (hib row hr col hc)
    refine ⟨x, y, hx, hy, ?_⟩
    rw [u.getElem?_touchAll_touches hld a b _ _ hr hc, hy, newValue_of_getElem? u a hx]
    rfl
  · intro k hk
    exact u.getElem?_touchAll_touches_of_ne a b _ _ hk
  · intro layoutA layoutB
    rw [← u.touchAll_touches_of_layouts hld a b _ _ layoutA layoutB]
    exact apply_eq_ok ha hb hsa hsb hia hib

/-- Two columns of `A` that share a cell, updating two columns of `B` with a gap. -/
def overlapping : Update Float32 where
  rows := 2
  cols := 2
  alpha := 2
  beta := 3
  lda := 1
  ldb := 3
  layoutA := .plain
  layoutB := .plain

/-- With one value before the block of `B` and none behind it, both sweeps leave the same cells. -/
theorem overlapping_apply_contract : ∃ out : Array Float32,
    overlapping.apply #[1, 2, 3] (.whole 3) ⟨1, 5⟩ (.replicate 6 1) = .ok () out ∧
    { overlapping with layoutA := .transposed }.apply #[1, 2, 3] (.whole 3) ⟨1, 5⟩
      (.replicate 6 1) = .ok () out ∧
    out[1 + (1 + 1 * 3)]? = some (Scalar.axpby 2 3 3 1) ∧ out[0]? = some 1 ∧ out[3]? = some 1 := by
  have ha : (Window.whole 3).Within (#[1, 2, 3] : Array Float32).size := Nat.le_refl 3
  have hb : Window.Within ⟨1, 5⟩ (Array.replicate 6 (1 : Float32)).size := by simp [Window.Within]
  obtain ⟨hends, hout⟩ :=
    apply_contract (u := overlapping) ha hb (by decide) (by simp [Word.bound])
  obtain ⟨out, hok⟩ := hends.mpr (.inr (.inr (by decide)))
  obtain ⟨-, hcells, hrest, hlayouts⟩ := hout (by decide) out hok
  refine ⟨out, hok, hlayouts .transposed .plain, ?_, ?_, ?_⟩
  · obtain ⟨x, y, hx, hy, h⟩ := hcells 1 (by decide) 1 (by decide)
    cases hx
    cases hy
    exact h
  · exact hrest 0 (by decide)
  · exact hrest 3 (by decide)

end Update

end BatchAxpby
