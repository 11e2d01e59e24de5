import BatchAxpby.Config.Description
import BatchAxpby.Proofs.Engines

/-! # Bounding boxes

A checked description with boxes that are not empty is a checked problem. Its reference updates
the cells of the box of `B`, each once and from the matching cell of the box of `A`, and no
other cell.
-/

namespace BatchAxpby

/-- A box of cells. The end row and the end column are left out. -/
structure Box where
  row : ℕ
  col : ℕ
  endRow : ℕ
  endCol : ℕ
  deriving DecidableEq, Repr

namespace Box

def entries (x : Box) : List ℕ := [x.row, x.col, x.endRow, x.endCol]

def Occupied (x : Box) : Prop := x.row < x.endRow ∧ x.col < x.endCol

def Contains (x : Box) (row col : ℕ) : Prop :=
  (x.row ≤ row ∧ row < x.endRow) ∧ x.col ≤ col ∧ col < x.endCol

instance (x : Box) : Decidable x.Occupied := inferInstanceAs (Decidable (_ ∧ _))

instance (x : Box) (row col : ℕ) : Decidable (x.Contains row col) :=
  inferInstanceAs (Decidable ((_ ∧ _) ∧ _ ∧ _))

end Box

namespace Operand

def cell (o : Operand) (slot row col : ℕ) : ℕ := slot * (o.rows * o.cols) + col * o.rows + row

/-- The box of the operand has a cell and lies inside the storage. -/
structure HasBox (o : Operand) (x : Box) : Prop where
  entries : o.box = x.entries
  occupied : x.Occupied
  endRow_le : x.endRow ≤ o.rows
  endCol_le : x.endCol ≤ o.cols

variable {o : Operand} {x : Box}

/-- The box of the operand lies inside the storage and may have no cell. -/
structure Admits (o : Operand) (x : Box) : Prop where
  entries : o.box = x.entries
  row_le : x.row ≤ x.endRow
  col_le : x.col ≤ x.endCol
  endRow_le : x.endRow ≤ o.rows
  endCol_le : x.endCol ≤ o.cols

theorem admits_of_validate {name : String} (hbox : o.box = x.entries)
    (h : o.validate name = .ok ()) : o.Admits x := by
  simp only [validate, hbox, Box.entries] at h
  split_ifs at h
  exact ⟨hbox, by omega, by omega, by omega, by omega⟩

theorem Admits.hasBox (h : o.Admits x) (hocc : x.Occupied) : o.HasBox x :=
  ⟨h.entries, hocc, h.endRow_le, h.endCol_le⟩

theorem Admits.extent_eq_ok (h : o.Admits x) :
    o.extent = .ok (x.endRow - x.row, x.endCol - x.col) := by
  simp only [extent, entry, h.entries, Box.entries]
  change (do
    let rows ← Word.sub x.endRow x.row
    let cols ← Word.sub x.endCol x.col
    return (rows, cols)) = _
  rw [Word.sub_eq_ok_iff.mpr ⟨h.row_le, rfl⟩, Word.sub_eq_ok_iff.mpr ⟨h.col_le, rfl⟩]
  rfl

theorem row_add_col_lt {row col : ℕ} (hr : row < o.rows) (hc : col < o.cols) :
    col * o.rows + row < o.rows * o.cols := by
  have h : (col + 1) * o.rows ≤ o.cols * o.rows := Nat.mul_le_mul_right _ hc
  rw [Nat.add_mul, Nat.one_mul, Nat.mul_comm o.cols] at h
  omega

theorem cell_lt {slot row col count : ℕ} (hs : slot < count) (hr : row < o.rows)
    (hc : col < o.cols) : o.cell slot row col < o.rows * o.cols * count := by
  have hin := row_add_col_lt hr hc
  have h : (slot + 1) * (o.rows * o.cols) ≤ count * (o.rows * o.cols) :=
    Nat.mul_le_mul_right _ hs
  rw [Nat.add_mul, Nat.one_mul, Nat.mul_comm count] at h
  unfold cell
  omega

theorem cell_inj {slot row col slot' row' col' : ℕ} (hr : row < o.rows) (hc : col < o.cols)
    (hr' : row' < o.rows) (hc' : col' < o.cols)
    (h : o.cell slot row col = o.cell slot' row' col') :
    slot = slot' ∧ row = row' ∧ col = col' := by
  unfold cell at h
  obtain ⟨hin, hslot⟩ := cell_injective (row_add_col_lt hr hc) (row_add_col_lt hr' hc')
    (show col * o.rows + row + slot * (o.rows * o.cols) =
      col' * o.rows + row' + slot' * (o.rows * o.cols) by omega)
  obtain ⟨hrow, hcol⟩ := cell_injective hr hr'
    (show row + col * o.rows = row' + col' * o.rows by omega)
  exact ⟨hslot, hrow, hcol⟩

namespace HasBox

theorem admits (h : o.HasBox x) : o.Admits x :=
  ⟨h.entries, h.occupied.1.le, h.occupied.2.le, h.endRow_le, h.endCol_le⟩

theorem block_le (h : o.HasBox x) :
    o.rows * x.col + x.row + (o.rows * (x.endCol - x.col - 1) + (x.endRow - x.row)) ≤
      o.rows * o.cols := by
  obtain ⟨hr, hc⟩ := h.occupied
  have hrow := h.endRow_le
  have hcols : x.col + (x.endCol - x.col - 1) + 1 = x.endCol := by omega
  have hlast : o.rows * x.col + o.rows * (x.endCol - x.col - 1) + o.rows = o.rows * x.endCol := by
    rw [← Nat.mul_add, ← Nat.mul_succ, Nat.succ_eq_add_one, hcols]
  have hmul : o.rows * x.endCol ≤ o.rows * o.cols := Nat.mul_le_mul_left _ h.endCol_le
  omega

theorem first_eq_ok (h : o.HasBox x) (hlt : o.rows * o.cols < Word.bound) :
    o.first = .ok (o.rows * x.col + x.row) := by
  have hle := h.block_le
  simp only [first, entry, h.entries, Box.entries]
  change Word.mul o.rows x.col >>= (fun y => Word.add y x.row) = _
  rw [Word.mul_eq_ok_iff.mpr ⟨show o.rows * x.col < Word.bound by omega, rfl⟩]
  exact Word.add_eq_ok_iff.mpr ⟨by omega, rfl⟩

theorem cell_lt (h : o.HasBox x) {slot row col count : ℕ} (hs : slot < count)
    (hin : x.Contains row col) : o.cell slot row col < o.rows * o.cols * count :=
  Operand.cell_lt hs (hin.1.2.trans_le h.endRow_le) (hin.2.2.trans_le h.endCol_le)

end HasBox

theorem block_cell (o : Operand) (x : Box) (slot row col : ℕ) :
    o.rows * x.col + x.row + slot * (o.rows * o.cols) + (row + col * o.rows) =
      o.cell slot (row + x.row) (col + x.col) := by
  unfold cell
  rw [Nat.add_mul, Nat.mul_comm o.rows x.col]
  omega

end Operand

namespace Description

variable {α : Type} {d : Description α} {boxA boxB : Box}

/-- Both boxes lie inside their storage and have one shape. -/
structure Boxed (d : Description α) (boxA boxB : Box) : Prop where
  hasBoxA : d.a.HasBox boxA
  hasBoxB : d.b.HasBox boxB
  rows_eq : boxA.endRow - boxA.row = boxB.endRow - boxB.row
  cols_eq : boxA.endCol - boxA.col = boxB.endCol - boxB.col

structure Admitted (d : Description α) (boxA boxB : Box) : Prop where
  admitsA : d.a.Admits boxA
  admitsB : d.b.Admits boxB
  rows_eq : boxA.endRow - boxA.row = boxB.endRow - boxB.row
  cols_eq : boxA.endCol - boxA.col = boxB.endCol - boxB.col

theorem admitted_of_validate [Scalar α] (h : d.validate = .ok ())
    (hboxA : d.a.box = boxA.entries) (hboxB : d.b.box = boxB.entries) :
    d.Admitted boxA boxB := by
  obtain ⟨_, hva, h⟩ := except_bind_eq_ok.mp h
  obtain ⟨_, hvb, h⟩ := except_bind_eq_ok.mp h
  obtain ⟨_, hxa, h⟩ := except_bind_eq_ok.mp h
  obtain ⟨_, hxb, h⟩ := except_bind_eq_ok.mp h
  have hA := Operand.admits_of_validate hboxA (liftError_eq_ok.mp hva)
  have hB := Operand.admits_of_validate hboxB (liftError_eq_ok.mp hvb)
  rw [liftFault_eq_ok, hA.extent_eq_ok] at hxa
  rw [liftFault_eq_ok, hB.extent_eq_ok] at hxb
  cases hxa
  cases hxb
  by_cases heq : (boxA.endRow - boxA.row, boxA.endCol - boxA.col) =
      (boxB.endRow - boxB.row, boxB.endCol - boxB.col)
  · obtain ⟨hrows, hcols⟩ := Prod.mk.inj heq
    exact ⟨hA, hB, hrows, hcols⟩
  · rw [if_pos heq] at h
    exact nomatch h

theorem Admitted.boxed (h : d.Admitted boxA boxB) (hocc : boxB.Occupied) : d.Boxed boxA boxB := by
  obtain ⟨hr, hc⟩ := hocc
  have hrows := h.rows_eq
  have hcols := h.cols_eq
  exact
    { hasBoxA := h.admitsA.hasBox ⟨by omega, by omega⟩
      hasBoxB := h.admitsB.hasBox ⟨hr, hc⟩
      rows_eq := hrows
      cols_eq := hcols }

theorem boxed_of_validate [Scalar α] (h : d.validate = .ok ()) (hboxA : d.a.box = boxA.entries)
    (hboxB : d.b.box = boxB.entries) (hocc : boxB.Occupied) : d.Boxed boxA boxB :=
  (admitted_of_validate h hboxA hboxB).boxed hocc

def boxProblem (d : Description α) (boxA boxB : Box) : Problem α where
  update :=
    { rows := boxA.endRow - boxA.row, cols := boxA.endCol - boxA.col
      alpha := d.alpha, beta := d.beta, lda := d.a.rows, ldb := d.b.rows
      layoutA := layout d.transA, layoutB := layout d.transB }
  slotA := d.a.rows * d.a.cols
  slotB := d.b.rows * d.b.cols
  firstA := d.a.rows * boxA.col + boxA.row
  firstB := d.b.rows * boxB.col + boxB.row

namespace Boxed

theorem problem_eq_ok (h : d.Boxed boxA boxB) (hltA : d.a.rows * d.a.cols < Word.bound)
    (hltB : d.b.rows * d.b.cols < Word.bound) : d.problem = .ok (d.boxProblem boxA boxB) := by
  rw [problem, h.hasBoxA.admits.extent_eq_ok, Operand.size, Operand.size,
    Word.mul_eq_ok_iff.mpr ⟨hltA, rfl⟩, Word.mul_eq_ok_iff.mpr ⟨hltB, rfl⟩,
    h.hasBoxA.first_eq_ok hltA, h.hasBoxB.first_eq_ok hltB]
  rfl

theorem sound (h : d.Boxed boxA boxB) : (d.boxProblem boxA boxB).Sound := by
  obtain ⟨hrA, hcA⟩ := h.hasBoxA.occupied
  have hrowA := h.hasBoxA.endRow_le
  have hrowB := h.hasBoxB.endRow_le
  have hrows := h.rows_eq
  have hB := h.hasBoxB.block_le
  rw [← h.rows_eq, ← h.cols_eq] at hB
  exact
    { rows_pos := Nat.sub_pos_of_lt hrA
      cols_pos := Nat.sub_pos_of_lt hcA
      rows_le_lda := show boxA.endRow - boxA.row ≤ d.a.rows by omega
      rows_le_ldb := show boxA.endRow - boxA.row ≤ d.b.rows by omega
      fitsA := h.hasBoxA.block_le
      fitsB := hB }

theorem contains_source (h : d.Boxed boxA boxB) {row col : ℕ} (hin : boxB.Contains row col) :
    boxA.Contains (row - boxB.row + boxA.row) (col - boxB.col + boxA.col) := by
  obtain ⟨⟨hr, hr'⟩, hc, hc'⟩ := hin
  have hrows := h.rows_eq
  have hcols := h.cols_eq
  exact ⟨⟨by omega, by omega⟩, by omega, by omega⟩

/-- The cells of a slot that are touched are those of the box, each from the matching cell. -/
theorem mem_slotTouches (h : d.Boxed boxA boxB) {slot : ℕ} {t : Touch} :
    t ∈ (d.boxProblem boxA boxB).slotTouches slot ↔
      ∃ row col, boxB.Contains row col ∧
        t = ⟨d.a.cell slot (row - boxB.row + boxA.row) (col - boxB.col + boxA.col),
          d.b.cell slot row col⟩ := by
  have hrows := h.rows_eq
  have hcols := h.cols_eq
  rw [Problem.mem_slotTouches]
  simp only [boxProblem, Operand.block_cell]
  constructor
  · rintro ⟨row, hr, col, hc, rfl⟩
    refine ⟨row + boxB.row, col + boxB.col, ⟨⟨?_, ?_⟩, ?_, ?_⟩, ?_⟩
    · omega
    · omega
    · omega
    · omega
    · rw [Nat.add_sub_cancel, Nat.add_sub_cancel]
  · rintro ⟨row, col, ⟨⟨hr, hr'⟩, hc, hc'⟩, rfl⟩
    refine ⟨row - boxB.row, by omega, col - boxB.col, by omega, ?_⟩
    rw [Nat.sub_add_cancel hr, Nat.sub_add_cancel hc]

variable [Scalar α] {count slot row col : ℕ} {a b : Array α}

theorem getElem?_updated (h : d.Boxed boxA boxB) (hs : slot < count)
    (hin : boxB.Contains row col) (a b : Array α) :
    ((d.boxProblem boxA boxB).updated a count b)[d.b.cell slot row col]? =
      b[d.b.cell slot row col]?.map ((d.boxProblem boxA boxB).update.newValue a
        (d.a.cell slot (row - boxB.row + boxA.row) (col - boxB.col + boxA.col))) :=
  h.sound.getElem?_updated hs (h.mem_slotTouches.mpr ⟨row, col, hin, rfl⟩) a b

theorem getElem?_updated_of_not_contains (h : d.Boxed boxA boxB) (hr : row < d.b.rows)
    (hc : col < d.b.cols) (hout : ¬ boxB.Contains row col) (a b : Array α) :
    ((d.boxProblem boxA boxB).updated a count b)[d.b.cell slot row col]? =
      b[d.b.cell slot row col]? := by
  refine Problem.getElem?_updated_of_forall_ne (fun i _ t ht hcell => hout ?_) a b
  obtain ⟨row', col', hin, rfl⟩ := h.mem_slotTouches.mp ht
  obtain ⟨-, rfl, rfl⟩ := Operand.cell_inj (hin.1.2.trans_le h.hasBoxB.endRow_le)
    (hin.2.2.trans_le h.hasBoxB.endCol_le) hr hc hcell
  exact hin

theorem updated_congr (h : d.Boxed boxA boxB) {a' : Array α}
    (ha : ∀ slot < count, ∀ row col, boxA.Contains row col →
      a'[d.a.cell slot row col]? = a[d.a.cell slot row col]?) (b : Array α) :
    (d.boxProblem boxA boxB).updated a' count b = (d.boxProblem boxA boxB).updated a count b := by
  apply Update.touchAll_congr_source
  intro t ht
  obtain ⟨slot, hs, ht⟩ := List.mem_flatMap.mp ht
  obtain ⟨row, col, hin, rfl⟩ := h.mem_slotTouches.mp ht
  exact ha slot (List.mem_range.mp hs) _ _ (h.contains_source hin)

end Boxed

variable [Scalar α]

/-- The reference of a checked description updates each cell of the box of `B` once, from the
matching cell of the box of `A` in the same slot, and reads and writes nothing else. -/
theorem reference_updates_box (hvalid : d.validate = .ok ())
    (hltA : d.a.rows * d.a.cols < Word.bound) (hltB : d.b.rows * d.b.cols < Word.bound)
    (hboxA : d.a.box = boxA.entries) (hboxB : d.b.box = boxB.entries) (hocc : boxB.Occupied)
    {count : ℕ} {a b : Array α} (hsizeA : a.size = d.a.rows * d.a.cols * count)
    (hsizeB : b.size = d.b.rows * d.b.cols * count) (ha : a.size < Word.bound)
    (hb : b.size < Word.bound) :
    ∃ p out, d.problem = .ok p ∧ p.reference a count b = .ok () out ∧ out.size = b.size ∧
      (∀ slot < count, ∀ row < d.b.rows, ∀ col < d.b.cols, ∃ y,
        b[d.b.cell slot row col]? = some y ∧
        (boxB.Contains row col → ∃ x,
          a[d.a.cell slot (row - boxB.row + boxA.row) (col - boxB.col + boxA.col)]? = some x ∧
          out[d.b.cell slot row col]? = some (Scalar.axpby d.alpha x d.beta y)) ∧
        (¬ boxB.Contains row col → out[d.b.cell slot row col]? = some y)) ∧
      ∀ a' : Array α, a'.size = a.size →
        (∀ slot < count, ∀ row col, boxA.Contains row col →
          a'[d.a.cell slot row col]? = a[d.a.cell slot row col]?) →
        p.reference a' count b = .ok () out := by
  have h := boxed_of_validate hvalid hboxA hboxB hocc
  have hbatch : (d.boxProblem boxA boxB).IsBatch a b count := ⟨h.sound, hsizeA, hsizeB, ha, hb⟩
  refine ⟨_, _, h.problem_eq_ok hltA hltB, hbatch.reference_eq_ok, Problem.size_updated .., ?_, ?_⟩
  · intro slot hs row hr col hc
    have hcell : d.b.cell slot row col < b.size := hsizeB ▸ Operand.cell_lt hs hr hc
    refine ⟨_, Array.getElem?_eq_getElem hcell, fun hin => ?_, fun hout => ?_⟩
    · have hsource : d.a.cell slot (row - boxB.row + boxA.row) (col - boxB.col + boxA.col) <
          a.size := hsizeA ▸ h.hasBoxA.cell_lt hs (h.contains_source hin)
      refine ⟨_, Array.getElem?_eq_getElem hsource, ?_⟩
      rw [h.getElem?_updated hs hin, Array.getElem?_eq_getElem hcell,
        Update.newValue_of_getElem? _ _ (Array.getElem?_eq_getElem hsource)]
      rfl
    · rw [h.getElem?_updated_of_not_contains hr hc hout, Array.getElem?_eq_getElem hcell]
  · intro a' hsize ha'
    have hbatch' : (d.boxProblem boxA boxB).IsBatch a' b count :=
      ⟨h.sound, hsize.trans hsizeA, hsizeB, hsize ▸ ha, hb⟩
    rw [hbatch'.reference_eq_ok, h.updated_congr ha']

def offsetBoxes : Description Float32 where
  a := ⟨3, 4, [1, 2, 3, 4]⟩
  b := ⟨4, 3, [0, 1, 2, 3]⟩
  alpha := 2
  beta := 3
  transA := false
  transB := true

/-- In the second of two slots, the last cell of the box of `B` is updated from the last cell of
the box of `A`, and the cell below it is not. -/
theorem offsetBoxes_reference :
    ∃ p out, offsetBoxes.problem = .ok p ∧
      p.reference (Array.ofFn fun i : Fin 24 => Float32.ofNat i) 2
        (Array.ofFn fun i : Fin 24 => Float32.ofNat (100 + i)) = .ok () out ∧
      out[21]? = some (Scalar.axpby 2 (Float32.ofNat 23) 3 (Float32.ofNat 121)) ∧
      out[22]? = some (Float32.ofNat 122) := by
  obtain ⟨p, out, hp, href, -, hcells, -⟩ :=
    reference_updates_box (d := offsetBoxes) (by decide) (by decide) (by decide)
      (show _ = Box.entries ⟨1, 2, 3, 4⟩ from rfl) (show _ = Box.entries ⟨0, 1, 2, 3⟩ from rfl)
      (by decide)
      (show (Array.ofFn fun i : Fin 24 => Float32.ofNat i).size = 3 * 4 * 2 from Array.size_ofFn)
      (show (Array.ofFn fun i : Fin 24 => Float32.ofNat (100 + i)).size = 4 * 3 * 2
        from Array.size_ofFn) (by rw [Array.size_ofFn]; decide) (by rw [Array.size_ofFn]; decide)
  obtain ⟨y, hy, hin, -⟩ := hcells 1 (by decide) 1 (by decide) 2 (by decide)
  obtain ⟨x, hx, hupdated⟩ := hin (by decide)
  obtain ⟨z, hz, -, hkept⟩ := hcells 1 (by decide) 2 (by decide) 2 (by decide)
  obtain rfl : Float32.ofNat 121 = y := by simpa [Operand.cell, offsetBoxes] using hy
  obtain rfl : Float32.ofNat 23 = x := by simpa [Operand.cell, offsetBoxes] using hx
  obtain rfl : Float32.ofNat 122 = z := by simpa [Operand.cell, offsetBoxes] using hz
  exact ⟨p, out, hp, href, hupdated, hkept (by decide)⟩

end Description

end BatchAxpby
