import BatchAxpby.Proofs.Lanes

/-! # Schedules of lanes

The lanes of a launch may take turns after every cell. A schedule lists the updates of single
cells in the order in which they happen; each lane keeps its own order. When no two lanes share
a cell of `B`, all schedules end, and they leave the same buffer.
-/

namespace BatchAxpby

/-- The update of one cell `(row, col)` of its block by a lane. -/
structure LaneStep where
  lane : ℕ
  cell : ℕ × ℕ
  deriving DecidableEq, Repr

namespace UpdateArgs

variable {α : Type} (args : UpdateArgs α)

def steps (lane : ℕ) : List LaneStep :=
  if lane < args.count then args.update.order.map (LaneStep.mk lane) else []

/-- Each of the lanes below `lanes` takes all its steps in its own order, and no other lane takes
one. -/
def IsSchedule (lanes : ℕ) (schedule : List LaneStep) : Prop :=
  ∀ lane, schedule.filter (·.lane = lane) = if lane < lanes then args.steps lane else []

def Updates (lane k : ℕ) : Prop :=
  ∃ row < args.update.rows, ∃ col < args.update.cols,
    k = args.bases.baseB lane + (row + col * args.update.ldb)

/-- No two lanes update the same cell of `B`. -/
def Separate : Prop :=
  ∀ i < args.count, ∀ j < args.count, i ≠ j → ∀ k, args.Updates i k → ¬ args.Updates j k

def touchOf (s : LaneStep) : Touch where
  source := args.bases.baseA s.lane + (s.cell.1 + s.cell.2 * args.update.lda)
  target := args.bases.baseB s.lane + (s.cell.1 + s.cell.2 * args.update.ldb)

variable {args} {lanes : ℕ} {schedule schedule' : List LaneStep} {s : LaneStep}

theorem lane_of_mem_steps {lane : ℕ} (h : s ∈ args.steps lane) : s.lane = lane := by
  unfold steps at h
  split_ifs at h
  · obtain ⟨c, -, rfl⟩ := List.mem_map.mp h
    rfl
  · exact absurd h List.not_mem_nil

theorem mem_steps : s ∈ args.steps s.lane ↔
    s.lane < args.count ∧ s.cell.1 < args.update.rows ∧ s.cell.2 < args.update.cols := by
  obtain ⟨lane, cell⟩ := s
  unfold steps
  split_ifs with hl
  · simp [Update.mem_order, hl]
  · simp [hl]

theorem IsSchedule.mem_steps (h : args.IsSchedule lanes schedule) (hs : s ∈ schedule) :
    s ∈ args.steps s.lane := by
  have hmem : s ∈ schedule.filter (·.lane = s.lane) := List.mem_filter.mpr ⟨hs, by simp⟩
  rw [h s.lane] at hmem
  split_ifs at hmem
  · exact hmem
  · exact absurd hmem List.not_mem_nil

theorem map_touchOf_steps (args : UpdateArgs α) (lane : ℕ) :
    (args.steps lane).map args.touchOf = args.touches lane := by
  unfold steps touches
  split_ifs
  · rw [List.map_map]
    rfl
  · rfl

theorem filter_flatMap_steps (args : UpdateArgs α) {order : List ℕ} (hn : order.Nodup) (lane : ℕ) :
    (order.flatMap args.steps).filter (·.lane = lane) =
      if lane ∈ order then args.steps lane else [] := by
  induction order with
  | nil => rfl
  | cons k order ih =>
    obtain ⟨hk, hn⟩ := List.nodup_cons.mp hn
    rw [List.flatMap_cons, List.filter_append, ih hn]
    by_cases hlane : lane = k
    · subst hlane
      have hall : (args.steps lane).filter (·.lane = lane) = args.steps lane :=
        List.filter_eq_self.mpr fun s hs => decide_eq_true (lane_of_mem_steps hs)
      rw [hall, if_neg hk, if_pos List.mem_cons_self, List.append_nil]
    · have hnone : (args.steps k).filter (·.lane = lane) = [] := by
        apply List.filter_eq_nil_iff.mpr
        intro s hs h
        exact hlane ((of_decide_eq_true h).symm.trans (lane_of_mem_steps hs))
      rw [hnone, List.nil_append]
      simp [hlane]

theorem isSchedule_flatMap_steps (args : UpdateArgs α) {order : List ℕ}
    (h : order.Perm (List.range lanes)) : args.IsSchedule lanes (order.flatMap args.steps) := by
  intro lane
  rw [filter_flatMap_steps args (h.nodup_iff.mpr List.nodup_range)]
  simp only [h.mem_iff, List.mem_range]

theorem Separate.lane_eq (hd : args.Separate) {s t : LaneStep} (hs : s ∈ args.steps s.lane)
    (ht : t ∈ args.steps t.lane) (h : (args.touchOf s).target = (args.touchOf t).target) :
    s.lane = t.lane := by
  obtain ⟨hsl, hsr, hsc⟩ := UpdateArgs.mem_steps.mp hs
  obtain ⟨htl, htr, htc⟩ := UpdateArgs.mem_steps.mp ht
  by_contra hne
  exact hd _ hsl _ htl hne _ ⟨_, hsr, _, hsc, rfl⟩ ⟨_, htr, _, htc, h⟩

variable [Scalar α]

/-- All schedules of separate lanes leave the same buffer. -/
theorem IsSchedule.touchAll_eq (hd : args.Separate) (h : args.IsSchedule lanes schedule)
    (h' : args.IsSchedule lanes schedule') (a b : Array α) :
    args.update.touchAll a (schedule.map args.touchOf) b =
      args.update.touchAll a (schedule'.map args.touchOf) b := by
  refine Update.touchAll_map_congr _ _ _ LaneStep.lane (fun s hs t ht hst => ?_) (fun k => ?_) b
  · exact hd.lane_eq (h.mem_steps hs) (h.mem_steps ht) hst
  · rw [h k, h' k]

end UpdateArgs

namespace Lane

variable {α : Type} [Scalar α]

def step (args : UpdateArgs α) (a : Array α) (s : LaneStep) : BufferM α Unit := do
  let base ← args.bases.resolve s.lane
  let blockA ← (Window.whole a.size).tail base.1
  let blockB ← (Window.whole (← get).size).tail base.2
  args.update.cell a blockA blockB s.cell

def runSteps (args : UpdateArgs α) (a : Array α) (schedule : List LaneStep) : BufferM α Unit :=
  forM schedule (step args a)

end Lane

namespace UpdateArgs.Fits

variable {α : Type} [Scalar α] {args : UpdateArgs α} {a b : Array α}

theorem step_eq_ok (h : args.Fits a.size b.size) {s : LaneStep} (hs : s ∈ args.steps s.lane) :
    Lane.step args a s b = .ok () (args.update.touch a b (args.touchOf s)) := by
  obtain ⟨hl, hr, hc⟩ := UpdateArgs.mem_steps.mp hs
  have hA := h.baseA_lt hl
  have hB := h.baseB_lt hl
  have hres := Bases.resolve_eq_ok h.lists hl (hA.trans h.sizeA_lt) (hB.trans h.sizeB_lt)
  rw [Lane.step, lift_bind_of_ok hres, lift_bind_of_ok (Window.tail_whole hA.le)]
  change ((liftM ((Window.whole b.size).tail (args.bases.baseB s.lane)) : BufferM α Window) >>= _) b
    = _
  rw [lift_bind_of_ok (Window.tail_whole hB.le)]
  exact Update.cell_eq_ok (Window.within_tail_whole hA.le) (Window.within_tail_whole hB.le)
    h.sizeA_lt h.sizeB_lt (Nat.lt_sub_iff_add_lt'.mpr (h.insideA _ hl _ hr _ hc))
    (Nat.lt_sub_iff_add_lt'.mpr (h.insideB _ hl _ hr _ hc))

theorem runSteps_eq_ok (h : args.Fits a.size b.size) {schedule : List LaneStep}
    (hs : ∀ s ∈ schedule, s ∈ args.steps s.lane) :
    Lane.runSteps args a schedule b =
      .ok () (args.update.touchAll a (schedule.map args.touchOf) b) := by
  rw [Update.touchAll, List.foldl_map]
  refine forM_eq_ok (fun t => t.size = b.size) rfl fun s hmem t ht => ⟨?_, ?_⟩
  · exact step_eq_ok (ht ▸ h) (hs s hmem)
  · rw [Update.size_touch, ht]

theorem update_eq_steps (h : args.Fits a.size b.size) (lane : ℕ) :
    Lane.update args a lane b =
      (Lane.runSteps args a (args.steps lane) >>= fun _ =>
        pure (decide (lane < args.count))) b := by
  have hmem : ∀ s ∈ args.steps lane, s ∈ args.steps s.lane := fun s hs =>
    (lane_of_mem_steps hs).symm ▸ hs
  rw [h.update_eq_ok, bind_of_ok (h.runSteps_eq_ok hmem), map_touchOf_steps]
  rfl

theorem forM_update_eq_ok (h : args.Fits a.size b.size) (order : List ℕ) :
    forM order (fun lane => discard (Lane.update args a lane)) b =
      .ok () (args.update.touchAll a (order.flatMap args.touches) b) := by
  refine Update.forM_eq_touchAll fun lane _ t ht => ?_
  change (Lane.update args a lane >>= fun _ => pure ()) t = _
  rw [bind_of_ok (Fits.update_eq_ok (ht.symm ▸ h) lane)]
  rfl

end UpdateArgs.Fits

/-- When no two lanes share a cell of `B`, every schedule of single cells ends in the buffer that
the lanes leave when they run whole, in order or permuted. Lanes past the last element neither
read nor write. -/
theorem Lane.schedules_agree {α : Type} [Scalar α] {args : UpdateArgs α} {a b : Array α}
    (hfits : args.Fits a.size b.size) (hseparate : args.Separate) {lanes : ℕ}
    (hlanes : args.count ≤ lanes) :
    ∃ out : Array α,
      (∀ schedule, args.IsSchedule lanes schedule →
        Lane.runSteps args a schedule b = .ok () out) ∧
      Lane.runAll (Lane.update args a) lanes b = .ok args.count out ∧
      (∀ order : List ℕ, order.Perm (List.range lanes) →
        forM order (fun lane => discard (Lane.update args a lane)) b = .ok () out) ∧
      (∀ lane < args.count, ∀ t : Array α, t.size = b.size →
        Lane.update args a lane t =
          (Lane.runSteps args a (args.update.order.map (LaneStep.mk lane)) >>=
            fun _ => pure true) t) ∧
      ∀ lane, args.count ≤ lane → ∀ a' t : Array α, Lane.update args a' lane t = .ok false t := by
  have hwhole := args.isSchedule_flatMap_steps (List.Perm.refl (List.range lanes))
  have htouches : ∀ order : List ℕ,
      (order.flatMap args.steps).map args.touchOf = order.flatMap args.touches := fun order => by
    rw [List.map_flatMap]
    exact List.flatMap_congr fun lane _ => args.map_touchOf_steps lane
  refine ⟨args.update.touchAll a ((List.range lanes).flatMap args.touches) b, ?_, ?_, ?_, ?_, ?_⟩
  · intro schedule hs
    rw [hfits.runSteps_eq_ok fun s => hs.mem_steps, hs.touchAll_eq hseparate hwhole, htouches]
  · rw [hfits.runAll_eq_ok, Nat.min_eq_right hlanes]
  · intro order hp
    rw [hfits.forM_update_eq_ok, ← htouches, ← htouches,
      (args.isSchedule_flatMap_steps hp).touchAll_eq hseparate hwhole]
  · intro lane hl t ht
    rw [UpdateArgs.Fits.update_eq_steps (ht.symm ▸ hfits), decide_eq_true hl, UpdateArgs.steps,
      if_pos hl]
  · intro lane hl a' t
    rw [Lane.update, if_pos hl]

/-- Two elements of one row each, whose blocks of `B` lie inside one another. -/
def interlaced : UpdateArgs Float32 where
  update :=
    { rows := 1, cols := 2, alpha := 2, beta := 3, lda := 1, ldb := 4,
      layoutA := .plain, layoutB := .plain }
  bases := .indirect #[0, 2] #[1, 0]
  count := 2

/-- The two lanes of `interlaced`, taking turns, end where three lanes run in order end. -/
theorem interlaced_schedules_agree :
    ∃ out, Lane.runSteps interlaced #[1, 2, 3, 4]
        [⟨1, (0, 0)⟩, ⟨0, (0, 0)⟩, ⟨0, (0, 1)⟩, ⟨1, (0, 1)⟩] (Array.replicate 6 5) = .ok () out ∧
      Lane.runAll (Lane.update interlaced #[1, 2, 3, 4]) 3 (Array.replicate 6 5) =
        .ok 2 out := by
  have hfits : interlaced.Fits (#[1, 2, 3, 4] : Array Float32).size
      (Array.replicate 6 (5 : Float32)).size :=
    { rows_pos := by decide
      cols_pos := by decide
      lists := ⟨by decide, by decide⟩
      insideA := by decide
      insideB := by decide
      sizeA_lt := by decide
      sizeB_lt := by decide }
  have hseparate : interlaced.Separate := by
    rintro i hi j hj hij k ⟨row, hr, col, hc, rfl⟩ ⟨row', hr', col', hc', h⟩
    have hbase : ∀ lane < 2, interlaced.bases.baseB lane = 1 - lane := by decide
    rw [hbase i hi, hbase j hj] at h
    simp only [interlaced] at hi hj hr hc hr' hc' h
    omega
  have hschedule : interlaced.IsSchedule 3
      [⟨1, (0, 0)⟩, ⟨0, (0, 0)⟩, ⟨0, (0, 1)⟩, ⟨1, (0, 1)⟩] := by
    rintro (_ | _ | lane)
    · decide
    · decide
    · have hidle : ¬ lane + 1 + 1 < interlaced.count := by simp [interlaced]
      simp [UpdateArgs.steps, hidle]
  obtain ⟨out, hsteps, hrun, -⟩ :=
    Lane.schedules_agree hfits hseparate (show interlaced.count ≤ 3 by decide)
  exact ⟨out, hsteps _ hschedule, hrun⟩

end BatchAxpby
