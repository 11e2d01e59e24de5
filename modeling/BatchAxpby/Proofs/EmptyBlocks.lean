import BatchAxpby.Proofs.Mismatches
import BatchAxpby.Proofs.RepeatedLaunches

/-! # Blocks without cells

A block without rows or columns may start anywhere in its slot, and also behind its last cell.
Engines and launches leave `B` as it is. Only the sequential engine looks up every element first,
and no chunk is left for a block behind the last cell of the last slot. A comparison views the
block as a matrix, which without cells may have at most one row and at most one column.
-/

namespace BatchAxpby

namespace Batch

variable {α : Type} [Scalar α] {u : Update α} {a : Array α} {sources targets : Placement}

theorem element_of_isEmpty (he : u.isEmpty = true) {i : ℕ}
    (hs : ∃ w, sources.resolve i = .ok w) (ht : ∃ w, targets.resolve i = .ok w) (b : Array α) :
    element u a sources targets i b = .ok () b := by
  obtain ⟨source, hs⟩ := hs
  obtain ⟨target, ht⟩ := ht
  rw [element, lift_bind_of_ok hs, lift_bind_of_ok ht, Update.apply, if_pos he]
  rfl

theorem sequential_of_isEmpty (he : u.isEmpty = true) {count : ℕ}
    (hs : ∀ i < count, ∃ w, sources.resolve i = .ok w)
    (ht : ∀ i < count, ∃ w, targets.resolve i = .ok w) (b : Array α) :
    sequential u a sources targets count b = .ok () b := by
  rw [sequential, sweep_eq_forM]
  apply forM_eq_self
  intro i hi
  have hi := List.mem_range.mp hi
  exact element_of_isEmpty he (hs i hi) (ht i hi) b

theorem resolve_indirect_of_lt {table : Array Window} {i : ℕ} (h : i < table.size) :
    ∃ w, (Placement.indirect table).resolve i = .ok w := by
  refine ⟨table[i], ?_⟩
  rw [Placement.resolve, Array.getElem?_eq_getElem h]

theorem resolve_indirect_of_le {table : Array Window} {i : ℕ} (h : table.size ≤ i) :
    (Placement.indirect table).resolve i = .error .outOfRange := by
  rw [Placement.resolve, Array.getElem?_eq_none h]

/-- Tables that are too short stop the sequential engine, although there is nothing to update. -/
theorem sequential_indirect_of_isEmpty (he : u.isEmpty = true) (tableA tableB : Array Window)
    (count : ℕ) (b : Array α) :
    sequential u a (.indirect tableA) (.indirect tableB) count b =
      if count ≤ tableA.size ∧ count ≤ tableB.size then .ok () b else .error .outOfRange b := by
  split_ifs with h
  · exact sequential_of_isEmpty he (fun i hi => resolve_indirect_of_lt (by omega))
      (fun i hi => resolve_indirect_of_lt (by omega)) b
  · -- The first element that one of the tables does not list stops the sweep.
    let missing := min tableA.size tableB.size
    have hfirst : sequential u a (.indirect tableA) (.indirect tableB) missing b = .ok () b :=
      sequential_of_isEmpty he (fun i hi => resolve_indirect_of_lt (by omega))
        (fun i hi => resolve_indirect_of_lt (by omega)) b
    have hstop : element u a (.indirect tableA) (.indirect tableB) missing b =
        .error .outOfRange b := by
      rw [element]
      by_cases hA : tableA.size ≤ missing
      · rw [lift_bind_of_error (resolve_indirect_of_le hA)]
      · obtain ⟨source, hs⟩ := resolve_indirect_of_lt (Nat.lt_of_not_le hA)
        have hB : tableB.size ≤ missing := by omega
        rw [lift_bind_of_ok hs, lift_bind_of_error (resolve_indirect_of_le hB)]
    exact sweep_of_stop (show missing < count by omega) hfirst hstop

theorem parallel_of_isEmpty (he : u.isEmpty = true) (count : ℕ) (b : Array α) :
    parallel u a sources targets count b = .ok () b := by
  have htasks : tasks u targets count = .ok #[] := if_pos (.inl he)
  rw [parallel, lift_bind_of_ok htasks]
  rfl

end Batch

section Placements

variable {first slot size count : ℕ} (hfirst : first ≤ slot) (hsize : size = slot * count)
  (hcount : 0 < count)

include hfirst hsize hcount

theorem tail_whole_of_first_le :
    (Window.whole size).tail first = .ok ⟨first, size - first⟩ := by
  have hslot : slot ≤ slot * count := Nat.le_mul_of_pos_right slot hcount
  exact Window.tail_whole (by omega)

theorem placement_strided_resolves (hlt : size < Word.bound) :
    ∃ placement, Problem.placement .strided size slot first count = .ok placement ∧
      ∀ i < count, ∃ w, placement.resolve i = .ok w := by
  have hend : ∀ i < count, first + i * slot + 0 ≤ size := fun i hi =>
    hsize ▸ block_end_le hfirst hi
  refine ⟨.strided ⟨first, size - first⟩ slot, ?_, fun i hi => ?_⟩
  · rw [Problem.placement, tail_whole_of_first_le hfirst hsize hcount]
    rfl
  · obtain ⟨w, hw, -⟩ := strided_finds hend hlt i hi
    exact ⟨w, hw⟩

/-- The chunks behind `first` are one short if they start with the second slot. -/
theorem placement_indirect_size (hslot : 0 < slot) :
    ∃ table, Problem.placement .indirect size slot first count = .ok (.indirect table) ∧
      (count ≤ table.size ↔ first < slot) := by
  have hle : slot ≤ slot * count := Nat.le_mul_of_pos_right slot hcount
  have hchunks : count ≤ (size - first + slot - 1) / slot ↔ first < slot := by
    rw [Nat.le_div_iff_mul_le hslot, Nat.mul_comm, hsize]
    omega
  obtain ⟨windows, hwindows, hnum⟩ : ∃ windows, Window.chunks ⟨first, size - first⟩ slot =
      .ok windows ∧ windows.size = (size - first + slot - 1) / slot :=
    ⟨_, if_neg (by omega), Array.size_ofFn⟩
  refine ⟨(windows.extract 0 count).reverse, ?_, ?_⟩
  · rw [Problem.placement, tail_whole_of_first_le hfirst hsize hcount]
    change Placement.reversedChunks ⟨first, size - first⟩ slot count = _
    rw [Placement.reversedChunks, hwindows]
    rfl
  · rw [Array.size_reverse, Array.size_extract, hnum, ← hchunks]
    omega

end Placements

namespace Problem

variable {α : Type} {p : Problem α} {a b : Array α} {count : ℕ}

/-- The buffers hold the slots of `count` elements, and the blocks in them have no cell. -/
structure IsEmptyBatch (p : Problem α) (a b : Array α) (count : ℕ) : Prop where
  isEmpty : p.update.isEmpty = true
  slotA_pos : 0 < p.slotA
  slotB_pos : 0 < p.slotB
  firstA_le : p.firstA ≤ p.slotA
  firstB_le : p.firstB ≤ p.slotB
  count_pos : 0 < count
  sizeA : a.size = p.slotA * count
  sizeB : b.size = p.slotB * count
  sizeA_lt : a.size < Word.bound
  sizeB_lt : b.size < Word.bound

/-- A table has no entry for the last element: a block starts behind the last cell of its slot. -/
def TableShort (p : Problem α) (addressing : Addressing) : Prop :=
  addressing = .indirect ∧ (p.firstA = p.slotA ∨ p.firstB = p.slotB)

instance (p : Problem α) (addressing : Addressing) : Decidable (p.TableShort addressing) :=
  inferInstanceAs (Decidable (_ ∧ _))

/-- On the host both engines leave every buffer of `size` values alone, but a short table stops
the sequential one. -/
def EnginesKeep [Scalar α] (p : Problem α) (addressing : Addressing) (a : Array α)
    (size count : ℕ) : Prop :=
  ∃ sources targets,
    p.placementA addressing a.size count = .ok sources ∧
    p.placementB addressing size count = .ok targets ∧
    ∀ t : Array α,
      Batch.sequential p.update a sources targets count t =
        (if p.TableShort addressing then .error .outOfRange t else .ok () t) ∧
      Batch.parallel p.update a sources targets count t = .ok () t

/-- A launch of any geometry changes no buffer, or it cannot be counted. -/
def LaunchesKeep [Scalar α] (p : Problem α) (addressing : Addressing) (a : Array α) (count : ℕ)
    (b : Array α) : Prop :=
  ∀ bases, p.bases addressing count = .ok bases →
    ∀ (host : Host) (spec : EmulatorSpec) (g : Geometry), g.check spec.maxGroup = .ok () →
    ∀ (e : Emulator α) (i j active idle : ℕ), i ≠ j → e.Holds i a → e.Holds j b →
      active = min g.lanes count → idle = g.lanes - active →
    (e.stats.Room 1 active idle ∧
      ∃ e', (emulator host spec).launch (.update ⟨p.update, bases, count⟩ i j) g e = .ok () e' ∧
        e.Advances j b 1 active idle e') ∨
    (¬ e.stats.Room 1 active idle ∧
      ∃ e', (emulator host spec).launch (.update ⟨p.update, bases, count⟩ i j) g e =
        .error (.fault .overflow) e')

theorem first_le_of_validate (h : p.validate = .ok ()) :
    p.firstA ≤ p.slotA ∧ p.firstB ≤ p.slotB := by
  obtain ⟨_, -, h⟩ := except_bind_eq_ok.mp h
  obtain ⟨spanA, -, h⟩ := except_bind_eq_ok.mp h
  obtain ⟨spanB, -, h⟩ := except_bind_eq_ok.mp h
  obtain ⟨_, hA, hB⟩ := except_bind_eq_ok.mp h
  exact ⟨(Nat.le_add_right ..).trans (checkSlot_eq_ok hA),
    (Nat.le_add_right ..).trans (checkSlot_eq_ok hB)⟩

namespace IsEmptyBatch

variable (h : p.IsEmptyBatch a b count)

include h

theorem baseA_le {slot : ℕ} (hs : slot < count) : p.firstA + slot * p.slotA ≤ a.size := by
  have hend : p.firstA + slot * p.slotA + 0 ≤ p.slotA * count := block_end_le h.firstA_le hs
  rwa [h.sizeA]

theorem baseB_le {slot : ℕ} (hs : slot < count) : p.firstB + slot * p.slotB ≤ b.size := by
  have hend : p.firstB + slot * p.slotB + 0 ≤ p.slotB * count := block_end_le h.firstB_le hs
  rwa [h.sizeB]

theorem bases_cases (addressing : Addressing) :
    (∃ base, p.bases addressing count = .error (.refused (.wideBase base))) ∨
      ∃ bases, p.bases addressing count = .ok bases :=
  Problem.bases_cases (fun _ hs => (h.baseA_le hs).trans_lt h.sizeA_lt)
    (fun _ hs => (h.baseB_le hs).trans_lt h.sizeB_lt) addressing

variable [Scalar α]

theorem updated_eq (t : Array α) : p.updated a count t = t := by
  have hnil : (List.range count).flatMap p.slotTouches = [] := by
    apply List.flatMap_eq_nil_iff.mpr
    intro i _
    rw [slotTouches, Update.touches, Update.order_eq_nil h.isEmpty, List.map_nil]
  rw [updated, hnil, Update.touchAll_nil]

theorem reference_eq_ok {t : Array α} (ht : t.size = b.size) :
    p.reference a count t = .ok () t := by
  rw [reference, sweep_eq_forM]
  apply forM_eq_self
  intro i hi
  have hi := List.mem_range.mp hi
  rw [referenceSlot_eq_apply h.sizeA_lt (ht ▸ h.sizeB_lt) (h.baseA_le hi) (ht ▸ h.baseB_le hi),
    Update.apply, if_pos h.isEmpty]
  rfl

theorem lane_eq_ok {addressing : Addressing} {bases : Bases}
    (hbases : p.bases addressing count = .ok bases) (lane : ℕ) {t : Array α}
    (ht : t.size = b.size) :
    Lane.update ⟨p.update, bases, count⟩ a lane t = .ok (decide (lane < count)) t := by
  by_cases hl : lane < count
  · obtain ⟨hlists, hat⟩ := bases_eq_ok hbases
    obtain ⟨hbaseA, hbaseB⟩ := hat lane hl
    have hslot := addressing.slotOf_lt hl
    have hA : bases.baseA lane ≤ a.size := hbaseA ▸ h.baseA_le hslot
    have hB : bases.baseB lane ≤ t.size := by
      rw [hbaseB, ht]
      exact h.baseB_le hslot
    have hres := Bases.resolve_eq_ok hlists hl (hA.trans_lt h.sizeA_lt)
      (hB.trans_lt (ht ▸ h.sizeB_lt))
    have happly : p.update.apply a ⟨bases.baseA lane, a.size - bases.baseA lane⟩
        ⟨bases.baseB lane, t.size - bases.baseB lane⟩ t = .ok () t := by
      rw [Update.apply, if_pos h.isEmpty]
      rfl
    rw [decide_eq_true hl]
    exact UpdateArgs.lane_eq_ok hl hres hA hB happly
  · rw [decide_eq_false hl]
    exact UpdateArgs.lane_eq_idle hl

theorem runAll_eq_ok {addressing : Addressing} {bases : Bases}
    (hbases : p.bases addressing count = .ok bases) (lanes : ℕ) {t : Array α}
    (ht : t.size = b.size) :
    Lane.runAll (Lane.update ⟨p.update, bases, count⟩ a) lanes t = .ok (min lanes count) t := by
  rw [Lane.runAll_eq_ok (fun s => s.size = b.size)
    (fun lane s hs => ⟨h.lane_eq_ok hbases lane hs, hs⟩) lanes ht, Lane.countP_range_lt,
    List.foldl_fixed]

theorem computes : p.Computes a b.size count where
  bases_cases := h.bases_cases
  reference_eq_ok t ht := by rw [h.reference_eq_ok ht, h.updated_eq]
  runAll_eq_ok hbases hl t ht := by
    rw [h.runAll_eq_ok hbases _ ht, Nat.min_eq_right hl, h.updated_eq]

theorem launchesKeep (addressing : Addressing) : p.LaunchesKeep addressing a count b := by
  rintro bases hbases host spec g hcheck e i j _ _ hij hA hB rfl rfl
  exact launch_advances hij (h.runAll_eq_ok hbases g.lanes rfl) hcheck hA hB

theorem enginesKeep (addressing : Addressing) : p.EnginesKeep addressing a b.size count := by
  cases addressing with
  | strided =>
    obtain ⟨sources, hsources, hs⟩ :=
      placement_strided_resolves h.firstA_le h.sizeA h.count_pos h.sizeA_lt
    obtain ⟨targets, htargets, ht⟩ :=
      placement_strided_resolves h.firstB_le h.sizeB h.count_pos h.sizeB_lt
    refine ⟨sources, targets, hsources, htargets, fun t => ⟨?_, ?_⟩⟩
    · rw [if_neg (by simp [TableShort])]
      exact Batch.sequential_of_isEmpty h.isEmpty hs ht t
    · exact Batch.parallel_of_isEmpty h.isEmpty count t
  | indirect =>
    obtain ⟨tableA, hsources, hA⟩ :=
      placement_indirect_size h.firstA_le h.sizeA h.count_pos h.slotA_pos
    obtain ⟨tableB, htargets, hB⟩ :=
      placement_indirect_size h.firstB_le h.sizeB h.count_pos h.slotB_pos
    refine ⟨_, _, hsources, htargets, fun t => ⟨?_, ?_⟩⟩
    · have hshort : count ≤ tableA.size ∧ count ≤ tableB.size ↔ ¬ p.TableShort .indirect := by
        have hfirstA := h.firstA_le
        have hfirstB := h.firstB_le
        simp only [TableShort, true_and, hA, hB]
        omega
      rw [Batch.sequential_indirect_of_isEmpty h.isEmpty]
      simp only [hshort, ite_not]
    · exact Batch.parallel_of_isEmpty h.isEmpty count t

end IsEmptyBatch

end Problem

def Update.Viewable {α : Type} (u : Update α) : Prop :=
  u.rows ≤ 1 ∧ u.cols ≤ 1 ∧ u.ldb ≠ Word.maxBytes + 1

/-- Why a block without cells cannot be viewed: columns `2 ^ 63` cells apart have no distance, and
more than one row or column would need cells. -/
inductive Update.Unviewed {α : Type} (u : Update α) : Stop → Prop
  | overflow : u.ldb = Word.maxBytes + 1 → View.extent u.rows u.cols ≤ Word.maxBytes →
      u.Unviewed (.fault .overflow)
  | refused (size : ℕ) (reason : View.Misfit) : 1 < u.rows ∨ 1 < u.cols →
      (u.ldb = Word.maxBytes + 1 → Word.maxBytes < View.extent u.rows u.cols) →
      u.Unviewed (.refused (.viewSize 0 u.rows u.cols u.ldb size reason.text))

theorem Update.Unviewed.not_viewable {α : Type} {u : Update α} {stop : Stop}
    (h : u.Unviewed stop) : ¬ u.Viewable := by
  rintro ⟨hrows, hcols, hne⟩
  cases h with
  | overflow hld _ => exact hne hld
  | refused _ _ hmany _ => omega

namespace View

variable {width rows cols ld : ℕ} {w : Window}

theorem stride_lt (h : ld < Word.bound) : max ld 1 < Word.bound :=
  max_lt h (by decide)

theorem stride_eq_iff : max ld 1 = Word.maxBytes + 1 ↔ ld = Word.maxBytes + 1 := by
  unfold Word.maxBytes
  omega

theorem distance_eq_ok {stride : ℕ} (hpos : 0 < stride) (hlt : stride < Word.bound)
    (hne : stride ≠ Word.maxBytes + 1) : ∃ d, distance stride = .ok d ∧ 0 < d := by
  unfold distance isBackward
  by_cases hback : Word.maxBytes < stride
  · exact ⟨Word.bound - stride, by simp [hback, hne], by omega⟩
  · exact ⟨stride, by simp [hback], hpos⟩

theorem misfit?_of_single (hr : rows ≤ 1) (hc : cols ≤ 1) {stride d : ℕ}
    (hd : distance stride = .ok d) (size : ℕ) (hempty : rows = 0 ∨ cols = 0) :
    misfit? width size rows cols stride = .ok none := by
  have hextent : extent rows cols = 1 := by
    rw [extent, Nat.max_eq_right hr, Nat.max_eq_right hc]
  rw [misfit?, hextent, hd, Nat.sub_eq_zero_of_le hr, Nat.sub_eq_zero_of_le hc]
  simp [hempty, bind, Except.bind, pure, Except.pure]

theorem misfit?_of_many (hmany : 1 < rows ∨ 1 < cols) {stride : ℕ} (hpos : 0 < stride)
    (hlt : stride < Word.bound)
    (hne : stride = Word.maxBytes + 1 → Word.maxBytes < extent rows cols)
    (hempty : rows = 0 ∨ cols = 0) :
    ∃ reason, misfit? width 0 rows cols stride = .ok (some reason) := by
  by_cases hextent : Word.maxBytes < extent rows cols
  · refine ⟨.overflow, ?_⟩
    rw [misfit?, if_pos hextent]
    rfl
  · obtain ⟨d, hd, hdpos⟩ := distance_eq_ok hpos hlt fun h => hextent (hne h)
    have hlast : 0 < rows - 1 + (cols - 1) * d := by
      rcases hmany with h | h
      · omega
      · have := Nat.mul_pos (Nat.sub_pos_of_lt h) hdpos
        omega
    rw [misfit?, if_neg hextent, hd]
    simp only [bind, Except.bind, pure, Except.pure]
    split_ifs
    · exact ⟨_, rfl⟩
    · exact ⟨_, rfl⟩

theorem ofWindow_of_empty (hempty : rows = 0 ∨ cols = 0) :
    ofWindow width w rows cols ld =
      match misfit? width 0 rows cols (max ld 1) with
      | .error fault => .error (.fault fault)
      | .ok (some reason) => .error (.refused (.viewSize 0 rows cols ld w.size reason.text))
      | .ok none => .ok ⟨w, rows, cols, ld⟩ := by
  have hspan : span rows cols ld = .ok 0 := if_pos hempty
  rw [ofWindow, if_neg (by omega), hspan]
  change (liftM (misfit? width (min 0 w.size) rows cols (max ld 1)) :
    Outcome (Option Misfit)) >>= _ = _
  rw [Nat.zero_min]
  cases misfit? width 0 rows cols (max ld 1) with
  | error fault => rfl
  | ok reason? =>
    cases reason? with
    | none => rfl
    | some reason => rfl

end View

namespace Update

variable {α : Type} {u : Update α} (hempty : u.rows = 0 ∨ u.cols = 0)
  (hldb : u.ldb < Word.bound)

include hempty hldb

theorem Viewable.ofWindow_eq_ok (hview : u.Viewable) (width : ℕ) (w : Window) :
    View.ofWindow width w u.rows u.cols u.ldb = .ok ⟨w, u.rows, u.cols, u.ldb⟩ := by
  obtain ⟨hr, hc, hne⟩ := hview
  obtain ⟨d, hd, -⟩ := View.distance_eq_ok (Nat.le_max_right u.ldb 1) (View.stride_lt hldb)
    (mt View.stride_eq_iff.mp hne)
  rw [View.ofWindow_of_empty hempty, View.misfit?_of_single hr hc hd 0 hempty]

theorem ofWindow_eq_error (hview : ¬ u.Viewable) (width : ℕ) (w : Window) :
    ∃ stop, u.Unviewed stop ∧ View.ofWindow width w u.rows u.cols u.ldb = .error stop := by
  rw [View.ofWindow_of_empty hempty]
  by_cases hfar : u.ldb = Word.maxBytes + 1 ∧ View.extent u.rows u.cols ≤ Word.maxBytes
  · obtain ⟨hld, hextent⟩ := hfar
    refine ⟨_, .overflow hld hextent, ?_⟩
    have hdist : View.distance (max u.ldb 1) = .error .overflow := by
      rw [hld]
      rfl
    rw [View.misfit?, if_neg (Nat.not_lt.mpr hextent), hdist]
    rfl
  · have hextent : u.ldb = Word.maxBytes + 1 → Word.maxBytes < View.extent u.rows u.cols := by
      intro hld
      exact Nat.lt_of_not_le fun hle => hfar ⟨hld, hle⟩
    have hmany : 1 < u.rows ∨ 1 < u.cols := by
      by_contra hfew
      push Not at hfew
      refine hview ⟨hfew.1, hfew.2, fun hld => ?_⟩
      have hone : View.extent u.rows u.cols = 1 := by
        rw [View.extent, Nat.max_eq_right hfew.1, Nat.max_eq_right hfew.2]
      exact absurd (hextent hld) (by rw [hone]; decide)
    obtain ⟨reason, hreason⟩ : ∃ reason,
        View.misfit? width 0 u.rows u.cols (max u.ldb 1) = .ok (some reason) :=
      View.misfit?_of_many hmany (Nat.le_max_right u.ldb 1) (View.stride_lt hldb)
        (fun hld => hextent (View.stride_eq_iff.mp hld)) hempty
    exact ⟨_, .refused w.size reason hmany hextent, by rw [hreason]⟩

end Update

namespace Problem.IsEmptyBatch

variable {α : Type} [Scalar α] {p : Problem α} {a b : Array α} {count : ℕ}
  (h : p.IsEmptyBatch a b count) (hldb : p.update.ldb < Word.bound)

include h hldb

theorem slotDiffers_eq_ok (hview : p.update.Viewable) {slot : ℕ} (hs : slot < count) :
    p.slotDiffers b b slot = .ok !(p.slotCells b slot == p.slotCells b slot) := by
  have hempty := Update.isEmpty_iff.mp h.isEmpty
  have hofWindow := Update.Viewable.ofWindow_eq_ok hempty hldb hview (Scalar.width α)
    (p.blockView count slot).window
  rw [slotDiffers_eq_views h.sizeB h.sizeB hs h.firstB_le h.slotB_pos (h.sizeB ▸ h.sizeB_lt),
    except_bind_of_ok hofWindow, except_bind_of_ok hofWindow]
  have hagree : (p.blockView count slot).agree (p.blockView count slot) b b = true := by
    simp only [View.agree, List.all_eq_true, List.mem_range]
    intro row hr col hc
    have hr : row < p.update.rows := hr
    have hc : col < p.update.cols := hc
    omega
  change (if (p.blockView count slot).agree (p.blockView count slot) b b then _ else _) = _
  rw [if_pos hagree]
  rfl

theorem mismatches_eq_ok (hview : p.update.Viewable) :
    p.mismatches b b count = .ok ((List.range count).filter fun slot =>
      !(p.slotCells b slot == p.slotCells b slot)).toArray :=
  collect_eq_ok fun _ hs => h.slotDiffers_eq_ok hldb hview hs

theorem mismatches_self (hview : p.update.Viewable) : ∃ found,
    p.mismatches b b count = .ok found ∧
      (found = #[] ↔ ∀ (i : ℕ) (x : α), b[i]? = some x → (x == x) = true) := by
  refine ⟨_, h.mismatches_eq_ok hldb hview, ?_⟩
  rw [found_eq_empty_iff h.sizeB h.sizeB rfl]
  simp only [unequalAt_self_iff, not_exists, not_and, Bool.not_eq_false]

theorem mismatches_eq_error (hview : ¬ p.update.Viewable) :
    ∃ stop, p.update.Unviewed stop ∧ p.mismatches b b count = .error stop := by
  have hempty := Update.isEmpty_iff.mp h.isEmpty
  obtain ⟨stop, hstop, hofWindow⟩ := Update.ofWindow_eq_error hempty hldb hview (Scalar.width α)
    (p.blockView count 0).window
  refine ⟨stop, hstop, collect_eq_error h.count_pos ?_⟩
  rw [slotDiffers_eq_views h.sizeB h.sizeB h.count_pos h.firstB_le h.slotB_pos
    (h.sizeB ▸ h.sizeB_lt), except_bind_of_error hofWindow]

end Problem.IsEmptyBatch

end BatchAxpby
