import Mathlib.Data.List.Nodup
import Mathlib.Data.List.ProdSigma
import Mathlib.Data.Prod.Basic
import BatchAxpby.Proofs.Run
import BatchAxpby.Proofs.Touch
import BatchAxpby.Update.Kernel

/-! # The kernel, cell by cell

Both sweeps of the kernel are one loop over the cells of the block, in an order that the
layouts choose. When all cells lie inside their windows, the kernel touches each of them once
and nothing else.
-/

namespace BatchAxpby

theorem BufferM.result_eq_ok {α β : Type} {work : BufferM α β} {data after : Array α} {x : β}
    (h : work data = .ok x after) : work.result data = .ok after := by
  rw [result, h]

theorem BufferM.eq_ok_of_result {α : Type} {work : BufferM α Unit} {data after : Array α}
    (h : work.result data = .ok after) : work data = .ok () after := by
  unfold result at h
  split at h
  · next hw =>
    cases h
    exact hw
  · exact nomatch h

namespace Window

variable {α : Type}

def Within (w : Window) (size : ℕ) : Prop := w.start + w.size ≤ size

theorem tail_of_le {w : Window} {i : ℕ} (h : i ≤ w.size) :
    w.tail i = .ok ⟨w.start + i, w.size - i⟩ := if_pos h

theorem Within.tail {w : Window} {size i : ℕ} (hw : w.Within size) (hi : i ≤ w.size) :
    Within ⟨w.start + i, w.size - i⟩ size := by
  unfold Within at hw ⊢
  simp only
  omega

theorem tail_whole {size i : ℕ} (h : i ≤ size) :
    (whole size).tail i = .ok ⟨i, size - i⟩ := by
  rw [tail_of_le (w := whole size) h, whole, Nat.zero_add]

theorem within_tail_whole {size i : ℕ} (h : i ≤ size) : Within ⟨i, size - i⟩ size :=
  Nat.le_of_eq (Nat.add_sub_of_le h)

theorem read_of_lt {w : Window} {data : Array α} (hw : w.Within data.size) {i : ℕ}
    (h : i < w.size) : ∃ x, data[w.start + i]? = some x ∧ w.read data i = .ok x := by
  have hi : w.start + i < data.size := by unfold Within at hw; omega
  refine ⟨data[w.start + i], Array.getElem?_eq_getElem hi, ?_⟩
  rw [read, if_pos h, Array.getElem?_eq_getElem hi]

theorem modify_of_lt {w : Window} {data : Array α} (hw : w.Within data.size) {i : ℕ}
    (h : i < w.size) (f : α → α) :
    w.modify i f data = .ok () (data.modify (w.start + i) f) := by
  have hi : w.start + i < data.size := by unfold Within at hw; omega
  rw [modify, if_pos h, dif_pos hi]
  congr 1
  apply Array.ext_getElem?
  intro j
  rw [Array.getElem?_set, Array.getElem?_modify]
  split_ifs with hj
  · subst hj; rw [Array.getElem?_eq_getElem hi]; rfl
  · rfl

theorem tail_eq_ok {w w' : Window} {i : ℕ} (h : w.tail i = .ok w') :
    i ≤ w.size ∧ w' = ⟨w.start + i, w.size - i⟩ := by
  unfold tail at h
  split_ifs at h with hi
  exact ⟨hi, (Except.ok.inj h).symm⟩

theorem lt_of_read_eq_ok {w : Window} {data : Array α} {i : ℕ} {x : α}
    (h : w.read data i = .ok x) : i < w.size := by
  unfold read at h
  split_ifs at h with hi
  exact hi

theorem modify_eq_ok {w : Window} {i : ℕ} {f : α → α} {data data' : Array α}
    (h : w.modify i f data = .ok () data') : i < w.size ∧ data'.size = data.size := by
  unfold modify at h
  split_ifs at h with hi hin
  cases h
  exact ⟨hi, Array.size_set ..⟩

end Window

theorem span_eq {rows cols ld : ℕ} (hr : 0 < rows) (hc : 0 < cols) : span rows cols ld =
    if ld * (cols - 1) + rows < Word.bound then .ok (ld * (cols - 1) + rows)
    else .error .overflow := by
  rw [span, if_neg (by omega), Word.mul]
  by_cases hmul : ld * (cols - 1) < Word.bound
  · rw [if_pos hmul]
    rfl
  · rw [if_neg hmul, if_neg (by omega)]
    rfl

/-- Cells `(row, col)` of a block with columns `ld` apart lie below `size`. -/
def Inside (rows cols ld size : ℕ) : Prop := ∀ row < rows, ∀ col < cols, row + col * ld < size

theorem inside_of_span_le {rows cols ld size : ℕ} (h : ld * (cols - 1) + rows ≤ size) :
    Inside rows cols ld size := by
  intro row hr col hc
  have hm : col * ld ≤ (cols - 1) * ld := Nat.mul_le_mul_right ld (by omega)
  rw [Nat.mul_comm (cols - 1)] at hm
  omega

theorem cells_le_span {rows cols ld : ℕ} (hc : 0 < cols) (hrows : rows ≤ ld) :
    rows * cols ≤ ld * (cols - 1) + rows := by
  have hle : rows * (cols - 1) ≤ ld * (cols - 1) := Nat.mul_le_mul_right _ hrows
  rw [Nat.mul_sub, Nat.mul_one] at hle
  have hone : rows ≤ rows * cols := Nat.le_mul_of_pos_right rows hc
  omega

theorem span_le_of_inside {rows cols ld size : ℕ} (hr : 0 < rows) (hc : 0 < cols)
    (h : Inside rows cols ld size) : ld * (cols - 1) + rows ≤ size := by
  have hlast := h (rows - 1) (by omega) (cols - 1) (by omega)
  rw [Nat.mul_comm] at hlast
  omega

namespace Update

variable {α : Type}

theorem isEmpty_iff {u : Update α} : u.isEmpty = true ↔ u.rows = 0 ∨ u.cols = 0 := by
  simp [isEmpty]

theorem not_isEmpty {u : Update α} (hr : 0 < u.rows) (hc : 0 < u.cols) : ¬ u.isEmpty := by
  simp [isEmpty]
  omega

def ByColumns (u : Update α) : Prop := u.layoutA = .plain ∧ u.layoutB = .plain

instance (u : Update α) : Decidable u.ByColumns := inferInstanceAs (Decidable (_ ∧ _))

/-- The cells `(row, col)` of the block in the order in which the kernel updates them. -/
def order (u : Update α) : List (ℕ × ℕ) :=
  if u.ByColumns then (List.range u.cols ×ˢ List.range u.rows).map Prod.swap
  else List.range u.rows ×ˢ List.range u.cols

theorem mem_order {u : Update α} {c : ℕ × ℕ} : c ∈ u.order ↔ c.1 < u.rows ∧ c.2 < u.cols := by
  obtain ⟨row, col⟩ := c
  unfold order
  split_ifs
  · simp [and_comm]
  · simp

theorem order_eq_nil {u : Update α} (he : u.isEmpty = true) : u.order = [] := by
  apply List.eq_nil_iff_forall_not_mem.mpr
  intro c hc
  have hlt := mem_order.mp hc
  have hempty := isEmpty_iff.mp he
  omega

theorem nodup_order (u : Update α) : u.order.Nodup := by
  unfold order
  split_ifs
  · exact (List.nodup_range.product List.nodup_range).map Prod.swap_injective
  · exact List.nodup_range.product List.nodup_range

variable [Scalar α]

def cell (u : Update α) (a : Array α) (wa wb : Window) (c : ℕ × ℕ) : BufferM α Unit :=
  if u.ByColumns then do
    let columnA ← wa.tail (← Word.mul c.2 u.lda)
    let columnB ← wb.tail (← Word.mul c.2 u.ldb)
    let x ← columnA.read a c.1
    columnB.modify c.1 fun y => Scalar.axpby u.alpha x u.beta y
  else do
    let target ← Word.add c.1 (← Word.mul c.2 u.ldb)
    let source ← Word.add c.1 (← Word.mul c.2 u.lda)
    let x ← wa.read a source
    wb.modify target fun y => Scalar.axpby u.alpha x u.beta y

theorem lift_bind_forM {ε σ β ι : Type} {l : List ι} (hl : l ≠ []) (x : Except ε β)
    (f : β → ι → EStateM ε σ Unit) :
    ((liftM x : EStateM ε σ β) >>= fun v => forM l (f v)) =
      forM l fun i => (liftM x : EStateM ε σ β) >>= fun v => f v i := by
  funext s
  cases x with
  | ok v => rfl
  | error e =>
    obtain ⟨i, l, rfl⟩ := List.exists_cons_of_ne_nil hl
    rfl

theorem columnSweep_eq_forM {u : Update α} (hr : u.rows ≠ 0) (a : Array α) (wa wb : Window) :
    u.columnSweep a wa wb =
      forM (List.range u.cols) fun col => forM (List.range u.rows) fun row => (do
        let columnA ← wa.tail (← Word.mul col u.lda)
        let columnB ← wb.tail (← Word.mul col u.ldb)
        let x ← columnA.read a row
        columnB.modify row fun y => Scalar.axpby u.alpha x u.beta y) := by
  have hl : List.range u.rows ≠ [] := by simpa using hr
  simp only [columnSweep, sweep_eq_forM, lift_bind_forM hl]

theorem apply_of_nonempty {u : Update α} (he : ¬ u.isEmpty) (a : Array α) (wa wb : Window) :
    u.apply a wa wb =
      if u.ByColumns then u.columnSweep a wa wb else u.rowSweep a wa wb := by
  rw [apply, if_neg he]
  cases hA : u.layoutA <;> cases hB : u.layoutB <;> simp [ByColumns, hA, hB]

/-- The kernel is a loop over its cells. -/
theorem apply_eq_forM (u : Update α) (a : Array α) (wa wb : Window) :
    u.apply a wa wb = forM u.order (u.cell a wa wb) := by
  by_cases he : u.isEmpty
  · rw [apply, if_pos he, order_eq_nil he]
    rfl
  · have hr : u.rows ≠ 0 := by rintro h; simp [isEmpty, h] at he
    rw [apply_of_nonempty he]
    unfold order cell
    split_ifs
    · rw [columnSweep_eq_forM hr, List.forM_map, forM_product]
      rfl
    · simp only [rowSweep, sweep_eq_forM, forM_product]

def touches (u : Update α) (baseA baseB : ℕ) : List Touch :=
  u.order.map fun c => ⟨baseA + (c.1 + c.2 * u.lda), baseB + (c.1 + c.2 * u.ldb)⟩

omit [Scalar α] in
theorem mem_touches {u : Update α} {baseA baseB : ℕ} {t : Touch} :
    t ∈ u.touches baseA baseB ↔ ∃ row < u.rows, ∃ col < u.cols,
      t = ⟨baseA + (row + col * u.lda), baseB + (row + col * u.ldb)⟩ := by
  constructor
  · intro ht
    obtain ⟨c, hc, rfl⟩ := List.mem_map.mp ht
    obtain ⟨hr, hc⟩ := mem_order.mp hc
    exact ⟨c.1, hr, c.2, hc, rfl⟩
  · rintro ⟨row, hr, col, hc, rfl⟩
    exact List.mem_map.mpr ⟨(row, col), mem_order.mpr ⟨hr, hc⟩, rfl⟩

theorem read_modify_eq_ok (u : Update α) {a b : Array α} {wa wb : Window} (ha : wa.Within a.size)
    (hb : wb.Within b.size) {i j : ℕ} (hi : i < wa.size) (hj : j < wb.size) :
    ((liftM (wa.read a i) : BufferM α α) >>= fun x =>
        wb.modify j fun y => Scalar.axpby u.alpha x u.beta y) b =
      .ok () (u.touch a b ⟨wa.start + i, wb.start + j⟩) := by
  obtain ⟨x, hx, hread⟩ := Window.read_of_lt ha hi
  rw [lift_bind_of_ok hread, Window.modify_of_lt hb hj, touch, newValue_of_getElem? u a hx]

section Inside

variable {u : Update α} {a b : Array α} {wa wb : Window}
  (ha : wa.Within a.size) (hb : wb.Within b.size)
  (hsa : a.size < Word.bound) (hsb : b.size < Word.bound)

include ha hb hsa hsb

theorem cell_eq_ok {c : ℕ × ℕ} (hca : c.1 + c.2 * u.lda < wa.size)
    (hcb : c.1 + c.2 * u.ldb < wb.size) :
    u.cell a wa wb c b =
      .ok () (u.touch a b ⟨wa.start + (c.1 + c.2 * u.lda), wb.start + (c.1 + c.2 * u.ldb)⟩) := by
  have ha' : wa.start + wa.size ≤ a.size := ha
  have hb' : wb.start + wb.size ≤ b.size := hb
  have hma := Word.mul_eq_ok_iff.mpr ⟨show c.2 * u.lda < Word.bound by omega, rfl⟩
  have hmb := Word.mul_eq_ok_iff.mpr ⟨show c.2 * u.ldb < Word.bound by omega, rfl⟩
  by_cases h : u.ByColumns
  · have hla : c.2 * u.lda ≤ wa.size := by omega
    have hlb : c.2 * u.ldb ≤ wb.size := by omega
    rw [cell, if_pos h, lift_bind_of_ok hma, lift_bind_of_ok (Window.tail_of_le hla),
      lift_bind_of_ok hmb, lift_bind_of_ok (Window.tail_of_le hlb),
      read_modify_eq_ok u (ha.tail hla) (hb.tail hlb)
        (show c.1 < wa.size - c.2 * u.lda by omega) (show c.1 < wb.size - c.2 * u.ldb by omega)]
    simp only [Nat.add_assoc, Nat.add_comm (c.2 * _)]
  · have haa := Word.add_eq_ok_iff.mpr ⟨show c.1 + c.2 * u.lda < Word.bound by omega, rfl⟩
    have hab := Word.add_eq_ok_iff.mpr ⟨show c.1 + c.2 * u.ldb < Word.bound by omega, rfl⟩
    rw [cell, if_neg h, lift_bind_of_ok hmb, lift_bind_of_ok hab, lift_bind_of_ok hma,
      lift_bind_of_ok haa, read_modify_eq_ok u ha hb hca hcb]

theorem apply_eq_ok (hia : Inside u.rows u.cols u.lda wa.size)
    (hib : Inside u.rows u.cols u.ldb wb.size) :
    u.apply a wa wb b = .ok () (u.touchAll a (u.touches wa.start wb.start) b) := by
  rw [apply_eq_forM, touchAll, touches, List.foldl_map]
  refine forM_eq_ok (fun t => t.size = b.size) rfl fun c hc t ht => ⟨?_, ?_⟩
  · obtain ⟨hr, hc⟩ := mem_order.mp hc
    exact cell_eq_ok ha (ht ▸ hb) hsa (ht ▸ hsb) (hia _ hr _ hc) (hib _ hr _ hc)
  · rw [size_touch, ht]

end Inside

theorem cell_eq_ok_imp {u : Update α} {a b b' : Array α} {wa wb : Window} {c : ℕ × ℕ}
    (h : u.cell a wa wb c b = .ok () b') :
    c.1 + c.2 * u.lda < wa.size ∧ c.1 + c.2 * u.ldb < wb.size ∧ b'.size = b.size := by
  unfold cell at h
  split_ifs at h
  -- Down the columns, each operand is cut at its column first.
  · obtain ⟨_, hma, h⟩ := lift_bind_eq_ok.mp h
    obtain ⟨_, hta, h⟩ := lift_bind_eq_ok.mp h
    obtain ⟨_, hmb, h⟩ := lift_bind_eq_ok.mp h
    obtain ⟨_, htb, h⟩ := lift_bind_eq_ok.mp h
    obtain ⟨_, hread, hmodify⟩ := lift_bind_eq_ok.mp h
    obtain ⟨-, rfl⟩ := Word.mul_eq_ok_iff.mp hma
    obtain ⟨-, rfl⟩ := Word.mul_eq_ok_iff.mp hmb
    obtain ⟨hla, rfl⟩ := Window.tail_eq_ok hta
    obtain ⟨hlb, rfl⟩ := Window.tail_eq_ok htb
    have hca : c.1 < wa.size - c.2 * u.lda := Window.lt_of_read_eq_ok hread
    obtain ⟨hcb, hsize⟩ := Window.modify_eq_ok hmodify
    have hcb : c.1 < wb.size - c.2 * u.ldb := hcb
    exact ⟨by omega, by omega, hsize⟩
  -- Along the rows, each cell is found by its index in the operand.
  · obtain ⟨_, hmb, h⟩ := lift_bind_eq_ok.mp h
    obtain ⟨_, hab, h⟩ := lift_bind_eq_ok.mp h
    obtain ⟨_, hma, h⟩ := lift_bind_eq_ok.mp h
    obtain ⟨_, haa, h⟩ := lift_bind_eq_ok.mp h
    obtain ⟨_, hread, hmodify⟩ := lift_bind_eq_ok.mp h
    obtain ⟨-, rfl⟩ := Word.mul_eq_ok_iff.mp hma
    obtain ⟨-, rfl⟩ := Word.mul_eq_ok_iff.mp hmb
    obtain ⟨-, rfl⟩ := Word.add_eq_ok_iff.mp haa
    obtain ⟨-, rfl⟩ := Word.add_eq_ok_iff.mp hab
    exact ⟨Window.lt_of_read_eq_ok hread, Window.modify_eq_ok hmodify⟩

/-- A kernel that ends had all its cells inside both windows. -/
theorem inside_of_apply_eq_ok {u : Update α} {a b b' : Array α} {wa wb : Window}
    (h : u.apply a wa wb b = .ok () b') :
    Inside u.rows u.cols u.lda wa.size ∧ Inside u.rows u.cols u.ldb wb.size := by
  rw [apply_eq_forM] at h
  have hcell : ∀ row < u.rows, ∀ col < u.cols,
      row + col * u.lda < wa.size ∧ row + col * u.ldb < wb.size := by
    intro row hr col hc
    obtain ⟨s, t, hst⟩ := forM_ok_of_mem h (show (row, col) ∈ u.order from mem_order.mpr ⟨hr, hc⟩)
    obtain ⟨ha, hb, -⟩ := cell_eq_ok_imp hst
    exact ⟨ha, hb⟩
  exact ⟨fun row hr col hc => (hcell row hr col hc).1, fun row hr col hc => (hcell row hr col hc).2⟩

theorem size_of_apply_eq_ok {u : Update α} {a b b' : Array α} {wa wb : Window}
    (h : u.apply a wa wb b = .ok () b') : b'.size = b.size := by
  rw [apply_eq_forM] at h
  refine forM_preserves (fun t => t.size = b.size) (fun c _ s t hst hs => ?_) h rfl
  exact (cell_eq_ok_imp hst).2.2.trans hs

theorem forM_eq_touchAll {ι : Type} {u : Update α} {a b : Array α} {l : List ι}
    {task : ι → BufferM α Unit} {f : ι → List Touch}
    (h : ∀ i ∈ l, ∀ t : Array α, t.size = b.size → task i t = .ok () (u.touchAll a (f i) t)) :
    forM l task b = .ok () (u.touchAll a (l.flatMap f) b) := by
  rw [touchAll_flatMap]
  refine forM_eq_ok (fun t => t.size = b.size) rfl fun i hi t ht => ⟨h i hi t ht, ?_⟩
  rw [size_touchAll, ht]

end Update

end BatchAxpby
