import Mathlib.Algebra.Order.Ring.Nat
import BatchAxpby.Problem.Basic
import BatchAxpby.Proofs.Kernel

/-! # Slots

A checked problem keeps the block of every element inside the element's own slot. The blocks
of different slots therefore share no cell, and updating them in any order leaves the same
buffer.
-/

namespace BatchAxpby

theorem lt_bound_of_bytes_le {α : Type} [Scalar α] {len : ℕ}
    (h : len * Scalar.width α ≤ Word.maxBytes) : len < Word.bound := by
  have hword : Word.maxBytes < Word.bound := by decide
  exact ((Nat.le_mul_of_pos_right len Scalar.width_pos).trans h).trans_lt hword

section Blocks

variable {first slot span size count i : ℕ}

structure IsBlock (first slot span size i : ℕ) (w : Window) : Prop where
  start : w.start = first + i * slot
  span : span ≤ w.size
  within : w.Within size

theorem block_end_le (hfit : first + span ≤ slot) (hi : i < count) :
    first + i * slot + span ≤ slot * count := by
  have h : (i + 1) * slot ≤ count * slot := Nat.mul_le_mul_right slot hi
  rw [Nat.add_mul, Nat.one_mul, Nat.mul_comm count] at h
  omega

theorem isBlock_tail (hfit : first + span ≤ slot) (hsize : size = slot * count) (hi : i < count) :
    IsBlock first slot span size i ⟨first + i * slot, size - (first + i * slot)⟩ := by
  have h := block_end_le hfit hi
  refine ⟨rfl, ?_, Window.within_tail_whole (by omega)⟩
  simp only
  omega

/-- Every cell of a block lies in the slot of the block. -/
def KeepsToSlots (first slot rows cols ld : ℕ) : Prop :=
  ∀ i, ∀ row < rows, ∀ col < cols,
    i * slot ≤ first + i * slot + (row + col * ld) ∧
      first + i * slot + (row + col * ld) < (i + 1) * slot

theorem keepsToSlots {rows cols ld : ℕ} (hfit : first + (ld * (cols - 1) + rows) ≤ slot) :
    KeepsToSlots first slot rows cols ld := by
  intro i row hr col hc
  have hin : Inside rows cols ld (slot - first) := inside_of_span_le (by omega)
  have hlt := hin row hr col hc
  rw [Nat.add_mul, Nat.one_mul]
  omega

theorem cell_injective {ld row col row' col' : ℕ} (hr : row < ld) (hr' : row' < ld)
    (h : row + col * ld = row' + col' * ld) : row = row' ∧ col = col' := by
  have hrow : row = row' := by
    simpa [Nat.mod_eq_of_lt hr, Nat.mod_eq_of_lt hr'] using congrArg (· % ld) h
  subst hrow
  exact ⟨rfl, Nat.eq_of_mul_eq_mul_right (by omega) (Nat.add_left_cancel h)⟩

end Blocks

theorem Update.nodup_targets {α : Type} (u : Update α) (hld : u.rows ≤ u.ldb) (baseA baseB : ℕ) :
    ((u.touches baseA baseB).map Touch.target).Nodup := by
  rw [touches, List.map_map]
  refine u.nodup_order.map_on fun c hc d hd hcd => ?_
  have hc := (mem_order.mp hc).1
  have hd := (mem_order.mp hd).1
  obtain ⟨hrow, hcol⟩ := cell_injective (by omega) (by omega) (Nat.add_left_cancel hcd)
  exact Prod.ext hrow hcol

namespace Problem

variable {α : Type} {p : Problem α}

/-- What a check of the problem ensures: columns do not overlap, and a block that is not empty
ends inside its slot. -/
structure Sound (p : Problem α) : Prop where
  rows_pos : 0 < p.update.rows
  cols_pos : 0 < p.update.cols
  rows_le_lda : p.update.rows ≤ p.update.lda
  rows_le_ldb : p.update.rows ≤ p.update.ldb
  fitsA : p.firstA + (p.update.lda * (p.update.cols - 1) + p.update.rows) ≤ p.slotA
  fitsB : p.firstB + (p.update.ldb * (p.update.cols - 1) + p.update.rows) ≤ p.slotB

theorem Sound.slotA_pos (hp : p.Sound) : 0 < p.slotA := by
  have hfit := hp.fitsA
  have hrows := hp.rows_pos
  omega

theorem Sound.slotB_pos (hp : p.Sound) : 0 < p.slotB := by
  have hfit := hp.fitsB
  have hrows := hp.rows_pos
  omega

theorem Sound.firstB_le (hp : p.Sound) : p.firstB ≤ p.slotB :=
  (Nat.le_add_right ..).trans hp.fitsB

theorem span_eq_ok {rows cols ld s : ℕ} (hr : 0 < rows) (hc : 0 < cols)
    (h : span rows cols ld = .ok s) : s = ld * (cols - 1) + rows := by
  rw [span_eq hr hc] at h
  split_ifs at h
  exact (Except.ok.inj h).symm

theorem checkSlot_eq_ok {name : String} {first span slot : ℕ}
    (h : checkSlot name first span slot = .ok ()) : first + span ≤ slot := by
  obtain ⟨x, hx, h⟩ := except_bind_eq_ok.mp h
  obtain ⟨_, rfl⟩ := Word.add_eq_ok_iff.mp (liftFault_eq_ok.mp hx)
  by_contra hn
  rw [if_pos (by omega)] at h
  exact nomatch h

theorem sound_of_validate (hr : 0 < p.update.rows) (hc : 0 < p.update.cols)
    (h : p.validate = .ok ()) : p.Sound := by
  obtain ⟨_, hu, h⟩ := except_bind_eq_ok.mp h
  obtain ⟨sa, hsa, h⟩ := except_bind_eq_ok.mp h
  obtain ⟨sb, hsb, h⟩ := except_bind_eq_ok.mp h
  obtain ⟨_, hca, hcb⟩ := except_bind_eq_ok.mp h
  have hu := liftError_eq_ok.mp hu
  obtain rfl := span_eq_ok hr hc (liftFault_eq_ok.mp hsa)
  obtain rfl := span_eq_ok hr hc (liftFault_eq_ok.mp hsb)
  unfold Update.validate at hu
  split_ifs at hu with hla hlb
  exact ⟨hr, hc, by omega, by omega, checkSlot_eq_ok hca, checkSlot_eq_ok hcb⟩

def slotTouches (p : Problem α) (i : ℕ) : List Touch :=
  p.update.touches (p.firstA + i * p.slotA) (p.firstB + i * p.slotB)

theorem mem_slotTouches {i : ℕ} {t : Touch} : t ∈ p.slotTouches i ↔
    ∃ row < p.update.rows, ∃ col < p.update.cols,
      t = ⟨p.firstA + i * p.slotA + (row + col * p.update.lda),
        p.firstB + i * p.slotB + (row + col * p.update.ldb)⟩ :=
  Update.mem_touches

/-- Blocks that end inside their slots touch cells of their own slots. -/
theorem target_div_slot
    (hfit : p.firstB + (p.update.ldb * (p.update.cols - 1) + p.update.rows) ≤ p.slotB) {i : ℕ}
    {t : Touch} (ht : t ∈ p.slotTouches i) : t.target / p.slotB = i := by
  obtain ⟨row, hr, col, hc, rfl⟩ := mem_slotTouches.mp ht
  obtain ⟨hle, hlt⟩ := keepsToSlots hfit i row hr col hc
  exact Nat.div_eq_of_lt_le hle hlt

theorem Sound.nodup_targets (hp : p.Sound) (count : ℕ) :
    (((List.range count).flatMap p.slotTouches).map Touch.target).Nodup := by
  rw [List.map_flatMap, List.nodup_flatMap]
  constructor
  · intro i _
    exact p.update.nodup_targets hp.rows_le_ldb ..
  · refine List.nodup_range.pairwise_of_forall_ne fun i _ j _ hij k hk hk' => hij ?_
    obtain ⟨s, hs, rfl⟩ := List.mem_map.mp hk
    obtain ⟨t, ht, hst⟩ := List.mem_map.mp hk'
    rw [← target_div_slot hp.fitsB hs, ← hst, target_div_slot hp.fitsB ht]

/-- The buffers `a` and `b` hold `count` elements of a checked problem. -/
structure IsBatch (p : Problem α) (a b : Array α) (count : ℕ) : Prop where
  sound : p.Sound
  sizeA : a.size = p.slotA * count
  sizeB : b.size = p.slotB * count
  sizeA_lt : a.size < Word.bound
  sizeB_lt : b.size < Word.bound

theorem IsBatch.of_size_eq {a b t : Array α} {count : ℕ} (h : p.IsBatch a b count)
    (ht : t.size = b.size) : p.IsBatch a t count :=
  ⟨h.sound, h.sizeA, ht ▸ h.sizeB, h.sizeA_lt, ht ▸ h.sizeB_lt⟩

abbrev IsBlockA (p : Problem α) (size i : ℕ) (w : Window) : Prop :=
  IsBlock p.firstA p.slotA (p.update.lda * (p.update.cols - 1) + p.update.rows) size i w

abbrev IsBlockB (p : Problem α) (size i : ℕ) (w : Window) : Prop :=
  IsBlock p.firstB p.slotB (p.update.ldb * (p.update.cols - 1) + p.update.rows) size i w

variable [Scalar α]

/-- The buffer with the block of every slot updated. -/
def updated (p : Problem α) (a : Array α) (count : ℕ) (b : Array α) : Array α :=
  p.update.touchAll a ((List.range count).flatMap p.slotTouches) b

@[simp] theorem size_updated (a : Array α) (count : ℕ) (b : Array α) :
    (p.updated a count b).size = b.size :=
  Update.size_touchAll ..

/-- A touched cell is updated once, from its source. -/
theorem Sound.getElem?_updated (hp : p.Sound) {count i : ℕ} (hi : i < count) {t : Touch}
    (ht : t ∈ p.slotTouches i) (a b : Array α) :
    (p.updated a count b)[t.target]? = b[t.target]?.map (p.update.newValue a t.source) :=
  p.update.getElem?_touchAll_of_mem a (hp.nodup_targets count)
    (List.mem_flatMap.mpr ⟨i, List.mem_range.mpr hi, ht⟩) b

theorem getElem?_updated_of_forall_ne {count k : ℕ}
    (h : ∀ i < count, ∀ t ∈ p.slotTouches i, t.target ≠ k) (a b : Array α) :
    (p.updated a count b)[k]? = b[k]? := by
  apply p.update.getElem?_touchAll_of_forall_ne a
  intro t ht
  obtain ⟨i, hi, ht⟩ := List.mem_flatMap.mp ht
  exact h i (List.mem_range.mp hi) t ht

/-- The slots can be visited in any order. -/
theorem touchAll_eq_updated
    (hfit : p.firstB + (p.update.ldb * (p.update.cols - 1) + p.update.rows) ≤ p.slotB)
    {count : ℕ} {l : List ℕ} (hl : l.Perm (List.range count)) (a b : Array α) :
    p.update.touchAll a (l.flatMap p.slotTouches) b = p.updated a count b := by
  apply Update.touchAll_flatMap_perm p.update a hl
  intro i _ j _ s hs t ht hst
  rw [← target_div_slot hfit hs, hst, target_div_slot hfit ht]

theorem apply_eq_ok {a b : Array α} (hsa : a.size < Word.bound) (hsb : b.size < Word.bound)
    {i : ℕ} {wa wb : Window} (ha : p.IsBlockA a.size i wa) (hb : p.IsBlockB b.size i wb) :
    p.update.apply a wa wb b = .ok () (p.update.touchAll a (p.slotTouches i) b) := by
  rw [Update.apply_eq_ok ha.within hb.within hsa hsb (inside_of_span_le ha.span)
    (inside_of_span_le hb.span), slotTouches, ha.start, hb.start]

end Problem

end BatchAxpby
