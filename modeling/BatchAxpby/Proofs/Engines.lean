import Mathlib.Data.List.Range
import BatchAxpby.Batch.Engine
import BatchAxpby.Problem.Reference
import BatchAxpby.Proofs.Slots

/-! # Engines and the reference

A placement of a checked problem shows the block of each slot once: a fixed offset lists the
slots from the first to the last, a table from the last to the first. Both engines then touch
the same cells as the reference, the parallel engine in whatever order its tasks run.
-/

namespace BatchAxpby

/-- The slot of element `i` of `count`: a table lists the slots backwards. -/
def Addressing.slotOf (addressing : Addressing) (count i : ℕ) : ℕ :=
  match addressing with
  | .strided => i
  | .indirect => count - 1 - i

theorem Addressing.slotOf_lt (addressing : Addressing) {count i : ℕ} (h : i < count) :
    addressing.slotOf count i < count := by
  cases addressing with
  | strided => exact h
  | indirect => exact show count - 1 - i < count by omega

theorem Addressing.map_slotOf_perm (addressing : Addressing) {count : ℕ} {order : List ℕ}
    (h : order.Perm (List.range count)) :
    (order.map (addressing.slotOf count)).Perm (List.range count) := by
  apply (h.map _).trans
  cases addressing with
  | strided => exact (List.map_id _).symm ▸ List.Perm.refl _
  | indirect =>
    have hr : (List.range count).reverse = (List.range count).map (slotOf .indirect count) := by
      rw [List.range_eq_range', List.reverse_range', ← List.range_eq_range', Nat.zero_add]
      rfl
    exact hr ▸ List.reverse_perm _

def BlocksIn (windows : Array Window) (slotOf : ℕ → ℕ) (first slot span size count : ℕ) : Prop :=
  ∀ i < count, ∃ w, windows[i]? = some w ∧ IsBlock first slot span size (slotOf i) w

/-- A look-up of each of `count` elements finds the block of the slot that `slotOf` gives. -/
def Placement.Finds (placement : Placement) (slotOf : ℕ → ℕ) (first slot span size count : ℕ) :
    Prop :=
  ∀ i < count, ∃ w, placement.resolve i = .ok w ∧ IsBlock first slot span size (slotOf i) w

/-- The placement shows the blocks of `count` elements to a look-up and to the parallel tasks
alike. -/
structure Placement.Shows (placement : Placement) (slotOf : ℕ → ℕ)
    (first slot span size count : ℕ) : Prop where
  finds : placement.Finds slotOf first slot span size count
  pieces : ∃ windows, placement.pieces = .ok windows ∧
    BlocksIn windows slotOf first slot span size count

section Blocks

variable {windows : Array Window} {slotOf : ℕ → ℕ} {first slot span size count : ℕ}

theorem BlocksIn.count_le (h : BlocksIn windows slotOf first slot span size count) :
    count ≤ windows.size := by
  by_contra hlt
  obtain ⟨w, hw, -⟩ := h windows.size (Nat.lt_of_not_le hlt)
  rw [Array.getElem?_size] at hw
  exact nomatch hw

theorem BlocksIn.size_extract (h : BlocksIn windows slotOf first slot span size count) :
    (windows.extract 0 count).size = count := by
  rw [Array.size_extract, min_eq_left h.count_le, Nat.sub_zero]

theorem BlocksIn.extract (h : BlocksIn windows slotOf first slot span size count) :
    BlocksIn (windows.extract 0 count) slotOf first slot span size count := by
  intro i hi
  obtain ⟨w, hw, hb⟩ := h i hi
  have hle := h.count_le
  refine ⟨w, ?_, hb⟩
  rw [Array.getElem?_extract, if_pos (by omega), Nat.zero_add, hw]

theorem BlocksIn.reverse (h : BlocksIn windows slotOf first slot span size count)
    (hnum : windows.size = count) :
    BlocksIn windows.reverse (fun i => slotOf (count - 1 - i)) first slot span size count := by
  intro i hi
  obtain ⟨w, hw, hb⟩ := h (count - 1 - i) (by omega)
  exact ⟨w, by rw [Array.getElem?_reverse (hnum ▸ hi), hnum, hw], hb⟩

theorem BlocksIn.push {w : Window} (h : BlocksIn windows slotOf first slot span size windows.size)
    (hw : IsBlock first slot span size (slotOf windows.size) w) :
    BlocksIn (windows.push w) slotOf first slot span size (windows.size + 1) := by
  intro i hi
  rcases Nat.lt_succ_iff_lt_or_eq.mp hi with hlt | rfl
  · obtain ⟨w', hw', hb⟩ := h i hlt
    exact ⟨w', by rw [Array.getElem?_push_lt hlt, ← hw', Array.getElem?_eq_getElem hlt], hb⟩
  · exact ⟨w, Array.getElem?_push_size, hw⟩

theorem BlocksIn.shows (h : BlocksIn windows slotOf first slot span size count) :
    (Placement.indirect windows).Shows slotOf first slot span size count := by
  refine ⟨fun i hi => ?_, windows, rfl, h⟩
  obtain ⟨w, hw, hb⟩ := h i hi
  exact ⟨w, by rw [Placement.resolve, hw], hb⟩

theorem Placement.Shows.tasks_eq_ok {α : Type} {u : Update α} {targets : Placement}
    (h : targets.Shows slotOf first slot span size count) (he : ¬ u.isEmpty) :
    ∃ windows, Batch.tasks u targets count = .ok windows ∧ windows.size = count ∧
      BlocksIn windows slotOf first slot span size count := by
  obtain ⟨windows, hpieces, hblocks⟩ := h.pieces
  by_cases hcount : count = 0
  · subst hcount
    exact ⟨#[], if_pos (Or.inr rfl), rfl, fun i hi => absurd hi (Nat.not_lt_zero i)⟩
  · refine ⟨windows.extract 0 count, ?_, hblocks.size_extract, hblocks.extract⟩
    rw [Batch.tasks, if_neg (by simp [he, hcount]), hpieces]
    rfl

end Blocks

section Placements

variable {first slot span size count : ℕ} (hend : ∀ i < count, first + i * slot + span ≤ size)

include hend

theorem strided_finds (hbound : size < Word.bound) :
    (Placement.strided ⟨first, size - first⟩ slot).Finds id first slot span size count := by
  intro i hi
  have h := hend i hi
  have hmul := Word.mul_eq_ok_iff.mpr ⟨show i * slot < Word.bound by omega, rfl⟩
  refine ⟨⟨first + i * slot, size - first - i * slot⟩, ?_, ⟨rfl, ?_, ?_⟩⟩
  · rw [Placement.resolve, hmul]
    exact Window.tail_of_le (show i * slot ≤ size - first by omega)
  · simp only
    omega
  · unfold Window.Within
    simp only
    omega

variable (hslot : span ≤ slot) (hspan : 0 < span)

include hslot hspan

theorem chunks_eq_ok : ∃ windows, Window.chunks ⟨first, size - first⟩ slot = .ok windows ∧
    BlocksIn windows id first slot span size count := by
  refine ⟨_, if_neg (by omega), fun i hi => ?_⟩
  have h := hend i hi
  have hlt : i < (size - first + slot - 1) / slot := by
    rw [Nat.lt_iff_add_one_le, Nat.le_div_iff_mul_le (by omega), Nat.add_mul]
    omega
  refine ⟨⟨first + i * slot, min slot (size - first - i * slot)⟩, ?_, ⟨rfl, ?_, ?_⟩⟩
  · rw [Array.getElem?_ofFn, dif_pos hlt]
  · simp only
    omega
  · unfold Window.Within
    simp only
    omega

theorem strided_shows (hbound : size < Word.bound) :
    (Placement.strided ⟨first, size - first⟩ slot).Shows id first slot span size count :=
  ⟨strided_finds hend hbound, chunks_eq_ok hend hslot hspan⟩

end Placements

/-- The placement of a checked operand shows every slot. -/
theorem placement_shows {first slot span size count : ℕ} (hfit : first + span ≤ slot)
    (hspan : 0 < span) (hsize : size = slot * count) (hcount : 0 < count)
    (hbound : size < Word.bound) (addressing : Addressing) :
    ∃ placement, Problem.placement addressing size slot first count = .ok placement ∧
      placement.Shows (addressing.slotOf count) first slot span size count := by
  have hend : ∀ i < count, first + i * slot + span ≤ size := fun i hi =>
    hsize ▸ block_end_le hfit hi
  have htail := Window.tail_whole (show first ≤ size by have := hend 0 hcount; omega)
  have hslot : span ≤ slot := by omega
  cases addressing with
  | strided =>
    refine ⟨.strided ⟨first, size - first⟩ slot, ?_, strided_shows hend hslot hspan hbound⟩
    rw [Problem.placement, htail]
    rfl
  | indirect =>
    obtain ⟨windows, hchunks, hblocks⟩ := chunks_eq_ok hend hslot hspan
    refine ⟨.indirect (windows.extract 0 count).reverse, ?_,
      (hblocks.extract.reverse hblocks.size_extract).shows⟩
    rw [Problem.placement, htail]
    change Placement.reversedChunks ⟨first, size - first⟩ slot count = _
    rw [Placement.reversedChunks, hchunks]
    rfl

namespace Problem

variable {α : Type} [Scalar α] {p : Problem α}

theorem referenceSlot_eq_apply {a : Array α} {sizeB slot : ℕ} (hsa : a.size < Word.bound)
    (hsb : sizeB < Word.bound) (hA : p.firstA + slot * p.slotA ≤ a.size)
    (hB : p.firstB + slot * p.slotB ≤ sizeB) (b : Array α) :
    p.referenceSlot a sizeB slot b =
      p.update.apply a ⟨p.firstA + slot * p.slotA, a.size - (p.firstA + slot * p.slotA)⟩
        ⟨p.firstB + slot * p.slotB, sizeB - (p.firstB + slot * p.slotB)⟩ b := by
  have hmulA := Word.mul_eq_ok_iff.mpr ⟨show slot * p.slotA < Word.bound by omega, rfl⟩
  have hmulB := Word.mul_eq_ok_iff.mpr ⟨show slot * p.slotB < Word.bound by omega, rfl⟩
  have haddA := Word.add_eq_ok_iff.mpr ⟨show p.firstA + slot * p.slotA < Word.bound by omega, rfl⟩
  have haddB := Word.add_eq_ok_iff.mpr ⟨show p.firstB + slot * p.slotB < Word.bound by omega, rfl⟩
  rw [referenceSlot, lift_bind_of_ok hmulA, lift_bind_of_ok haddA,
    lift_bind_of_ok (Window.tail_whole hA), lift_bind_of_ok hmulB, lift_bind_of_ok haddB,
    lift_bind_of_ok (Window.tail_whole hB)]

theorem IsBatch.reference_eq_ok {a b : Array α} {count : ℕ} (h : p.IsBatch a b count) :
    p.reference a count b = .ok () (p.updated a count b) := by
  rw [reference, sweep_eq_forM]
  refine Update.forM_eq_touchAll fun i hi t ht => ?_
  have hi := List.mem_range.mp hi
  have hendA := h.sizeA ▸ block_end_le h.sound.fitsA hi
  have hendB := h.sizeB ▸ block_end_le h.sound.fitsB hi
  rw [referenceSlot_eq_apply h.sizeA_lt h.sizeB_lt (by omega) (by omega)]
  exact apply_eq_ok h.sizeA_lt (ht.symm ▸ h.sizeB_lt) (isBlock_tail h.sound.fitsA h.sizeA hi)
    (ht.symm ▸ isBlock_tail h.sound.fitsB h.sizeB hi)

section Engines

variable {a : Array α} {size count : ℕ} {slotOf : ℕ → ℕ} {sources : Placement}
  (hsa : a.size < Word.bound) (hsb : size < Word.bound)
  (hs : sources.Finds slotOf p.firstA p.slotA
    (p.update.lda * (p.update.cols - 1) + p.update.rows) a.size count)

include hsa hsb hs

theorem sequential_eq_ok {targets : Placement} (ht : targets.Finds slotOf p.firstB p.slotB
      (p.update.ldb * (p.update.cols - 1) + p.update.rows) size count)
    {b : Array α} (hb : b.size = size) :
    Batch.sequential p.update a sources targets count b =
      .ok () (p.update.touchAll a ((List.range count).flatMap (p.slotTouches ∘ slotOf)) b) := by
  subst hb
  rw [Batch.sequential, sweep_eq_forM]
  refine Update.forM_eq_touchAll fun i hi t hsize => ?_
  have hi := List.mem_range.mp hi
  obtain ⟨wa, hwa, hblockA⟩ := hs i hi
  obtain ⟨wb, hwb, hblockB⟩ := ht i hi
  rw [Batch.element, lift_bind_of_ok hwa, lift_bind_of_ok hwb]
  exact apply_eq_ok hsa (hsize.symm ▸ hsb) hblockA (hsize.symm ▸ hblockB)

theorem parallelIn_eq_ok {windows : Array Window} (hw : BlocksIn windows slotOf p.firstB p.slotB
      (p.update.ldb * (p.update.cols - 1) + p.update.rows) size count)
    {order : List ℕ} (horder : ∀ i ∈ order, i < count) {b : Array α} (hb : b.size = size) :
    Batch.parallelIn order p.update a sources windows b =
      .ok () (p.update.touchAll a (order.flatMap (p.slotTouches ∘ slotOf)) b) := by
  subst hb
  rw [Batch.parallelIn, List.forM_eq_forM]
  refine Update.forM_eq_touchAll fun i hi t hsize => ?_
  obtain ⟨wa, hwa, hblockA⟩ := hs i (horder i hi)
  obtain ⟨wb, hwb, hblockB⟩ := hw i (horder i hi)
  rw [Batch.piece, lift_bind_of_ok hwa, hwb]
  exact apply_eq_ok hsa (hsize.symm ▸ hsb) hblockA (hsize.symm ▸ hblockB)

theorem engines_eq_updated {targets : Placement} (ht : targets.Shows slotOf p.firstB p.slotB
      (p.update.ldb * (p.update.cols - 1) + p.update.rows) size count)
    (hfit : p.firstB + (p.update.ldb * (p.update.cols - 1) + p.update.rows) ≤ p.slotB)
    (he : ¬ p.update.isEmpty)
    (hslots : ∀ order : List ℕ, order.Perm (List.range count) →
      (order.map slotOf).Perm (List.range count)) :
    ∃ windows, Batch.tasks p.update targets count = .ok windows ∧ windows.size = count ∧
      ∀ b : Array α, b.size = size →
        Batch.sequential p.update a sources targets count b = .ok () (p.updated a count b) ∧
        Batch.parallel p.update a sources targets count b = .ok () (p.updated a count b) ∧
        ∀ order : List ℕ, order.Perm (List.range count) →
          Batch.parallelIn order p.update a sources windows b = .ok () (p.updated a count b) := by
  obtain ⟨windows, htasks, hnum, hblocks⟩ := ht.tasks_eq_ok he
  refine ⟨windows, htasks, hnum, fun b hb => ?_⟩
  -- Any order of the tasks visits each slot once, and slots have no cell in common.
  have hvisit : ∀ order : List ℕ, order.Perm (List.range count) →
      p.update.touchAll a (order.flatMap (p.slotTouches ∘ slotOf)) b = p.updated a count b := by
    intro order horder
    rw [← touchAll_eq_updated hfit (hslots order horder), List.flatMap_map]
    rfl
  have hparallel : ∀ order : List ℕ, order.Perm (List.range count) →
      Batch.parallelIn order p.update a sources windows b = .ok () (p.updated a count b) := by
    intro order horder
    have hlt : ∀ i ∈ order, i < count := fun i hi => List.mem_range.mp (horder.mem_iff.mp hi)
    rw [parallelIn_eq_ok hsa hsb hs hblocks hlt hb, hvisit order horder]
  refine ⟨?_, ?_, hparallel⟩
  · rw [sequential_eq_ok hsa hsb hs ht.finds hb, hvisit _ (List.Perm.refl _)]
  · rw [Batch.parallel, lift_bind_of_ok htasks]
    exact hparallel _ (hnum ▸ List.Perm.refl _)

end Engines

/-- On the placements of a checked problem both engines update every slot, whatever the order
of the parallel tasks. -/
theorem IsBatch.engines_eq_updated {a b : Array α} {count : ℕ} (h : p.IsBatch a b count)
    (hcount : 0 < count) (addressing : Addressing) :
    ∃ sources targets windows,
      p.placementA addressing a.size count = .ok sources ∧
      p.placementB addressing b.size count = .ok targets ∧
      Batch.tasks p.update targets count = .ok windows ∧ windows.size = count ∧
      ∀ t : Array α, t.size = b.size →
        Batch.sequential p.update a sources targets count t = .ok () (p.updated a count t) ∧
        Batch.parallel p.update a sources targets count t = .ok () (p.updated a count t) ∧
        ∀ order : List ℕ, order.Perm (List.range count) →
          Batch.parallelIn order p.update a sources windows t = .ok () (p.updated a count t) := by
  have hspan : ∀ ld, 0 < ld * (p.update.cols - 1) + p.update.rows := fun ld =>
    Nat.add_pos_right _ h.sound.rows_pos
  obtain ⟨sources, hsources, hs⟩ :=
    placement_shows h.sound.fitsA (hspan _) h.sizeA hcount h.sizeA_lt addressing
  obtain ⟨targets, htargets, ht⟩ :=
    placement_shows h.sound.fitsB (hspan _) h.sizeB hcount h.sizeB_lt addressing
  obtain ⟨windows, htasks, hnum, hengines⟩ :=
    Problem.engines_eq_updated h.sizeA_lt h.sizeB_lt hs.finds ht h.sound.fitsB
      (Update.not_isEmpty h.sound.rows_pos h.sound.cols_pos) fun _ => addressing.map_slotOf_perm
  exact ⟨sources, targets, windows, hsources, htargets, htasks, hnum, hengines⟩

end Problem

end BatchAxpby
