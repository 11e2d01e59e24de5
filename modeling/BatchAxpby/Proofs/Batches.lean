import BatchAxpby.Proofs.Engines

/-! # Batches

The elements of a batch lie a fixed offset apart in their buffers. Sources and targets are looked
up by that offset or through tables: a table of sources lists tails of the buffer, a table of
targets lists chunks. If the sequential engine ends on fixed offsets, every block of the batch
lies inside its buffer. All other ways to run the batch then end too and leave the same buffer.
-/

namespace BatchAxpby

section Tables

variable {offset span size : ℕ}

theorem tails_go_eq_ok (hbound : size < Word.bound) {n : ℕ} {table : Array Window}
    (hend : ∀ i < table.size + n, 0 + i * offset + span ≤ size)
    (htable : BlocksIn table id 0 offset span size table.size) :
    ∃ table', Placement.tails.go (Window.whole size) offset n table = .ok table' ∧
      BlocksIn table' id 0 offset span size (table.size + n) := by
  induction n generalizing table with
  | zero => exact ⟨table, rfl, htable⟩
  | succ n ih =>
    have h := hend table.size (by omega)
    have hle : table.size * offset ≤ size := by omega
    have hmul := Word.mul_eq_ok_iff.mpr ⟨hle.trans_lt hbound, rfl⟩
    have hblock : IsBlock 0 offset span size table.size
        ⟨table.size * offset, size - table.size * offset⟩ := by
      refine ⟨(Nat.zero_add _).symm, ?_, Window.within_tail_whole hle⟩
      simp only
      omega
    have hnum : (table.push ⟨table.size * offset, size - table.size * offset⟩).size =
        table.size + 1 := Array.size_push _
    have hpush := htable.push hblock
    rw [← hnum] at hpush
    obtain ⟨table', hgo, hblocks⟩ :=
      ih (fun i hi => hend i (by rw [Array.size_push] at hi; omega)) hpush
    refine ⟨table', ?_, ?_⟩
    · rw [Placement.tails.go, except_bind_of_ok hmul,
        except_bind_of_ok (Window.tail_whole hle), hgo]
    · rw [Array.size_push, Nat.add_assoc, Nat.add_comm 1] at hblocks
      exact hblocks

/-- A table of tails finds the blocks that end inside the buffer, if it can be addressed. -/
theorem tails_finds {count : ℕ} (hbound : size < Word.bound)
    (hend : ∀ i < count, 0 + i * offset + span ≤ size)
    (htable : count * Placement.entryWidth ≤ Word.maxBytes) :
    ∃ placement, Placement.tails (Window.whole size) offset count = .ok placement ∧
      placement.Finds id 0 offset span size count := by
  have hempty : BlocksIn #[] id 0 offset span size (#[] : Array Window).size :=
    fun i hi => absurd hi (Nat.not_lt_zero i)
  obtain ⟨table, hgo, hblocks⟩ :=
    tails_go_eq_ok hbound (fun i hi => hend i (by simpa using hi)) hempty
  rw [Array.size_empty, Nat.zero_add] at hblocks
  refine ⟨.indirect table, ?_, hblocks.shows.finds⟩
  rw [Placement.tails, if_neg (Nat.not_lt.mpr htable), hgo]
  rfl

theorem firstChunks_shows {count : ℕ} (hend : ∀ i < count, 0 + i * offset + span ≤ size)
    (hslot : span ≤ offset) (hspan : 0 < span) :
    ∃ placement, Placement.firstChunks (Window.whole size) offset count = .ok placement ∧
      placement.Shows id 0 offset span size count := by
  obtain ⟨windows, hchunks, hblocks⟩ := chunks_eq_ok hend hslot hspan
  refine ⟨.indirect (windows.extract 0 count), ?_, hblocks.extract.shows⟩
  rw [Placement.firstChunks, show (Window.whole size).chunks offset = .ok windows from hchunks]
  rfl

end Tables

namespace Batch

variable {α : Type}

def asProblem (u : Update α) (offsetA offsetB : ℕ) : Problem α := ⟨u, offsetA, offsetB, 0, 0⟩

section Blocks

variable {u : Update α} {sizeA sizeB offsetA offsetB count : ℕ}
  (hendA : ∀ i < count, 0 + i * offsetA + (u.lda * (u.cols - 1) + u.rows) ≤ sizeA)
  (hendB : ∀ i < count, 0 + i * offsetB + (u.ldb * (u.cols - 1) + u.rows) ≤ sizeB)

include hendA in
theorem placeSources_finds (hsa : sizeA < Word.bound) {addressing : Addressing}
    (htable : addressing = .indirect → count * Placement.entryWidth ≤ Word.maxBytes) :
    ∃ sources, placeSources addressing sizeA offsetA count = .ok sources ∧
      sources.Finds id 0 offsetA (u.lda * (u.cols - 1) + u.rows) sizeA count := by
  cases addressing with
  | strided => exact ⟨_, rfl, strided_finds hendA hsa⟩
  | indirect => exact tails_finds hsa hendA (htable rfl)

include hendB in
theorem placeTargets_shows (hsb : sizeB < Word.bound) (hr : 0 < u.rows)
    (hspan : u.ldb * (u.cols - 1) + u.rows ≤ offsetB) (addressing : Addressing) :
    ∃ targets, placeTargets addressing sizeB offsetB count = .ok targets ∧
      targets.Shows id 0 offsetB (u.ldb * (u.cols - 1) + u.rows) sizeB count := by
  have hpos : 0 < u.ldb * (u.cols - 1) + u.rows := Nat.add_pos_right _ hr
  cases addressing with
  | strided => exact ⟨_, rfl, strided_shows hendB hspan hpos hsb⟩
  | indirect => exact firstChunks_shows hendB hspan hpos

include hendB in
theorem count_le_size (hr : 0 < u.rows) (hspan : u.ldb * (u.cols - 1) + u.rows ≤ offsetB) :
    count ≤ sizeB := by
  cases count with
  | zero => exact Nat.zero_le _
  | succ n =>
    have hlast := hendB n (Nat.lt_succ_self n)
    have hoffset : n ≤ n * offsetB := Nat.le_mul_of_pos_right n (by omega)
    omega

end Blocks

variable [Scalar α]

/-- Both engines turn `b` into `out`, the parallel one in any order of its tasks. -/
def Leaves (u : Update α) (a : Array α) (sources targets : Placement) (count : ℕ)
    (b out : Array α) : Prop :=
  sequential u a sources targets count b = .ok () out ∧
  parallel u a sources targets count b = .ok () out ∧
  ∃ pieces, tasks u targets count = .ok pieces ∧
    ∀ order : List ℕ, order.Perm (List.range pieces.size) →
      parallelIn order u a sources pieces b = .ok () out

def LeavesPlaced (modeA modeB : Addressing) (u : Update α) (a b : Array α)
    (offsetA offsetB count : ℕ) (out : Array α) : Prop :=
  ∃ sources targets, placeSources modeA a.size offsetA count = .ok sources ∧
    placeTargets modeB b.size offsetB count = .ok targets ∧
    Leaves u a sources targets count b out

section Engines

variable {u : Update α} {a b : Array α} {offsetA offsetB count : ℕ} (hr : 0 < u.rows)
  (hc : 0 < u.cols)

include hr hc

/-- A run of the sequential engine that ends had every block inside its buffer. -/
theorem blocks_end_le {out : Array α}
    (hrun : sequential u a (.strided (.whole a.size) offsetA) (.strided (.whole b.size) offsetB)
      count b = .ok () out) :
    ∀ i < count, 0 + i * offsetA + (u.lda * (u.cols - 1) + u.rows) ≤ a.size ∧
      0 + i * offsetB + (u.ldb * (u.cols - 1) + u.rows) ≤ b.size := by
  intro i hi
  rw [sequential, sweep_eq_forM] at hrun
  obtain ⟨s, t, helement⟩ := forM_ok_of_mem hrun (List.mem_range.mpr hi)
  obtain ⟨wa, hwa, helement⟩ := lift_bind_eq_ok.mp helement
  obtain ⟨wb, hwb, happly⟩ := lift_bind_eq_ok.mp helement
  obtain ⟨_, hmulA, htailA⟩ := except_bind_eq_ok.mp hwa
  obtain ⟨_, hmulB, htailB⟩ := except_bind_eq_ok.mp hwb
  obtain ⟨-, rfl⟩ := Word.mul_eq_ok_iff.mp hmulA
  obtain ⟨-, rfl⟩ := Word.mul_eq_ok_iff.mp hmulB
  obtain ⟨hleA, rfl⟩ := Window.tail_eq_ok htailA
  obtain ⟨hleB, rfl⟩ := Window.tail_eq_ok htailB
  obtain ⟨hinA, hinB⟩ := Update.inside_of_apply_eq_ok happly
  have hspanA := span_le_of_inside hr hc hinA
  have hspanB := span_le_of_inside hr hc hinB
  simp only [Window.whole] at hleA hleB hspanA hspanB
  omega

theorem leaves_updated (hsa : a.size < Word.bound) (hsb : b.size < Word.bound)
    (hspan : u.ldb * (u.cols - 1) + u.rows ≤ offsetB)
    (hend : ∀ i < count, 0 + i * offsetA + (u.lda * (u.cols - 1) + u.rows) ≤ a.size ∧
      0 + i * offsetB + (u.ldb * (u.cols - 1) + u.rows) ≤ b.size)
    {modeA : Addressing}
    (htable : modeA = .indirect → count * Placement.entryWidth ≤ Word.maxBytes)
    (modeB : Addressing) : LeavesPlaced modeA modeB u a b offsetA offsetB count
      ((asProblem u offsetA offsetB).updated a count b) := by
  obtain ⟨sources, hsources, hfinds⟩ :=
    placeSources_finds (fun i hi => (hend i hi).1) hsa htable
  obtain ⟨targets, htargets, hshows⟩ :=
    placeTargets_shows (fun i hi => (hend i hi).2) hsb hr hspan modeB
  obtain ⟨windows, htasks, hnum, hengines⟩ :=
    Problem.engines_eq_updated (p := asProblem u offsetA offsetB) hsa hsb hfinds hshows
      ((Nat.zero_add _).trans_le hspan) (Update.not_isEmpty hr hc)
      fun order horder => by rwa [List.map_id]
  obtain ⟨hseq, hpar, horders⟩ := hengines b rfl
  exact ⟨sources, targets, hsources, htargets, hseq, hpar, windows, htasks,
    fun order horder => horders order (hnum ▸ horder)⟩

omit hr hc in
theorem getElem?_updated_of_blocks_le {k : ℕ}
    (hk : ∀ i < count, i * offsetB + (u.ldb * (u.cols - 1) + u.rows) ≤ k) :
    ((asProblem u offsetA offsetB).updated a count b)[k]? = b[k]? := by
  refine Problem.getElem?_updated_of_forall_ne (fun i hi t ht => ?_) a b
  obtain ⟨row, hrow, col, hcol, rfl⟩ := Problem.mem_slotTouches.mp ht
  have hlast := hk i hi
  have hin : row + col * u.ldb < u.ldb * (u.cols - 1) + u.rows :=
    inside_of_span_le le_rfl row hrow col hcol
  simp only [asProblem]
  omega

end Engines

/-- If the sequential engine ends on fixed offsets at least a block apart, both engines end and
leave the same buffer for every way to look up sources and targets. A table of sources only has to
be addressable. It has at most one entry for each cell of `B`, so it is addressable unless `B` has
more cells than a table can have entries. Nothing past the last block changes. -/
theorem engines_agree_on_placements (u : Update α) (hr : 0 < u.rows) (hc : 0 < u.cols)
    {a b : Array α} (hsa : a.size < Word.bound) (hsb : b.size < Word.bound)
    {offsetA offsetB count : ℕ} (hspan : u.ldb * (u.cols - 1) + u.rows ≤ offsetB)
    {out : Array α}
    (hrun : sequential u a (.strided (.whole a.size) offsetA) (.strided (.whole b.size) offsetB)
      count b = .ok () out) :
    count ≤ b.size ∧ (∀ modeA modeB : Addressing,
      (modeA = .indirect → count * Placement.entryWidth ≤ Word.maxBytes) →
      LeavesPlaced modeA modeB u a b offsetA offsetB count out) ∧
    (b.size * Placement.entryWidth ≤ Word.maxBytes → ∀ modeA modeB : Addressing,
      LeavesPlaced modeA modeB u a b offsetA offsetB count out) ∧
    ∀ k, (∀ i < count, i * offsetB + (u.ldb * (u.cols - 1) + u.rows) ≤ k) → out[k]? = b[k]? := by
  have hend := blocks_end_le hr hc hrun
  have hout : out = (asProblem u offsetA offsetB).updated a count b := by
    obtain ⟨_, _, hsources, htargets, hseq, -⟩ :=
      leaves_updated hr hc hsa hsb hspan hend (nofun : Addressing.strided = .indirect → _) .strided
    cases hsources
    cases htargets
    rw [hseq] at hrun
    cases hrun
    rfl
  subst hout
  have hcount : count ≤ b.size := count_le_size (fun i hi => (hend i hi).2) hr hspan
  refine ⟨hcount, fun modeA modeB htable => leaves_updated hr hc hsa hsb hspan hend htable modeB,
    fun hsize modeA modeB => ?_, fun k hk => getElem?_updated_of_blocks_le hk⟩
  have htable := (Nat.mul_le_mul_right Placement.entryWidth hcount).trans hsize
  exact leaves_updated hr hc hsa hsb hspan hend (fun _ => htable) modeB

/-- Columns of `A` and of `B` that overlap: they are closer together than they are long. -/
def closeColumns : Update Float32 where
  rows := 2
  cols := 2
  alpha := 2
  beta := 3
  lda := 0
  ldb := 1
  layoutA := .plain
  layoutB := .transposed

/-- Two blocks whose columns overlap, the second one at the very end of `B`, through both tables. -/
theorem closeColumns_engines_agree :
    ∃ sources targets, placeSources .indirect 3 1 2 = .ok sources ∧
      placeTargets .indirect 7 4 2 = .ok targets ∧
      Leaves closeColumns #[1, 2, 3] sources targets 2 #[1, 1, 1, 1, 1, 1, 1]
        #[5, 19, 7, 1, 7, 27, 9] := by
  have hresult : (sequential closeColumns #[1, 2, 3] (.strided (.whole 3) 1)
      (.strided (.whole 7) 4) 2).result #[1, 1, 1, 1, 1, 1, 1] = .ok #[5, 19, 7, 1, 7, 27, 9] := by
    decide +kernel
  obtain ⟨-, -, hall, -⟩ := engines_agree_on_placements closeColumns (by decide) (by decide)
    (a := #[1, 2, 3]) (b := #[1, 1, 1, 1, 1, 1, 1]) (by decide) (by decide) (by decide)
    (BufferM.eq_ok_of_result hresult)
  exact hall (by decide) .indirect .indirect

end Batch

end BatchAxpby
