import BatchAxpby.Proofs.EmptyBlocks
import BatchAxpby.Proofs.ValidatedRun

/-! # Runs over blocks without cells

A run over blocks without cells updates nothing, so its comparison finds nothing. It gets that far
if the blocks can be viewed, and the sequential engine only if no table is short.
-/

namespace BatchAxpby.Accumulate

variable {α : Type}

/-- How a run that compares blocks without cells ends if no earlier step stops it. -/
inductive EmptyVerdict (u : Update α) : Outcome Result → Prop
  | clean {r : Result} : u.Viewable → r.mismatches = some #[] → EmptyVerdict u (.ok r)
  | stopped {stop : Stop} : u.Unviewed stop → EmptyVerdict u (.error stop)

variable {u : Update α} {outcome : Outcome Result}

theorem EmptyVerdict.clean_of_viewable (h : EmptyVerdict u outcome) (hview : u.Viewable) :
    ∃ r, outcome = .ok r ∧ r.mismatches = some #[] := by
  cases h with
  | clean _ hnone => exact ⟨_, rfl, hnone⟩
  | stopped hstop => exact absurd hview hstop.not_viewable

theorem EmptyVerdict.stopped_of_not_viewable (h : EmptyVerdict u outcome)
    (hview : ¬ u.Viewable) :
    ∃ stop, u.Unviewed stop ∧ outcome = .error stop := by
  cases h with
  | clean hv _ => exact absurd hv hview
  | stopped hstop => exact ⟨_, hstop, rfl⟩

variable [Scalar α] {host : Host} {p : Problem α} {settings : Settings} {count : ℕ}
  {a b : Array α}

theorem Seeded.isEmptyBatch (h : Seeded host p settings count a b)
    (hempty : p.update.rows = 0 ∨ p.update.cols = 0) (hvalid : p.validate = .ok ())
    (hslotA : 0 < p.slotA) (hslotB : 0 < p.slotB) : p.IsEmptyBatch a b count where
  isEmpty := Update.isEmpty_iff.mpr hempty
  slotA_pos := hslotA
  slotB_pos := hslotB
  firstA_le := (Problem.first_le_of_validate hvalid).1
  firstB_le := (Problem.first_le_of_validate hvalid).2
  count_pos := h.count_pos
  sizeA := h.sizeA
  sizeB := h.sizeB
  sizeA_lt := by
    rw [h.sizeA]
    exact lt_bound_of_bytes_le h.bytesA_le
  sizeB_lt := by
    rw [h.sizeB]
    exact lt_bound_of_bytes_le h.bytesB_le

theorem figures_verdict (he : p.update.isEmpty = true) (hview : p.update.Viewable)
    (surface : Surface) (device : Option String) (elapsed : Float) :
    EmptyVerdict p.update
      (liftM (figures surface device p settings count elapsed (some #[])) : Outcome Result) := by
  have hcells : p.update.rows * p.update.cols = 0 :=
    Nat.mul_eq_zero.mpr (Update.isEmpty_iff.mp he)
  have hfits : ¬ FiguresOverflow p := by
    rw [FiguresOverflow, hcells, Nat.zero_mul]
    decide
  obtain ⟨r, hr, hnone⟩ := figures_eq_ok hfits surface device elapsed (some #[])
  rw [hr]
  exact .clean hview hnone

section Runs

variable [LawfulScalar α] (h : Seeded host p settings count a b)
  (hbatch : p.IsEmptyBatch a b count) (hldb : p.update.ldb < Word.bound)

include h hbatch hldb

theorem Seeded.emptyComparison_cases :
    (p.update.Viewable ∧ p.mismatches b b count = .ok #[]) ∨
      ∃ stop, p.update.Unviewed stop ∧ p.mismatches b b count = .error stop := by
  by_cases hview : p.update.Viewable
  · obtain ⟨found, hm, hfound⟩ := hbatch.mismatches_self hldb hview
    have hnone : found = #[] := by
      apply hfound.mpr
      intro i x hx
      rw [h.b_eq] at hx
      obtain ⟨word, k, rfl⟩ := Random.exists_eq_draw hx
      exact LawfulScalar.draw_beq_self word k
    exact .inl ⟨hview, hnone ▸ hm⟩
  · exact .inr (hbatch.mismatches_eq_error hldb hview)

variable (hvalid : p.validate = .ok ()) (hvalidates : settings.validates = true) (elapsed : Float)

include hvalid hvalidates

theorem Seeded.runOnHost_verdict {surface : Surface} (hsurface : surface ≠ .device)
    (hfound : ¬ (surface = .sequential ∧ p.TableShort settings.addressing)) :
    EmptyVerdict p.update (runOnHost host surface p settings elapsed) := by
  have hengine : EngineUpdates surface p settings.addressing a b.size count := by
    obtain ⟨sources, targets, hsources, htargets, hkeep⟩ := hbatch.enginesKeep settings.addressing
    cases surface with
    | sequential =>
      refine ⟨_, sources, targets, rfl, hsources, htargets, fun t _ => ?_⟩
      rw [(hkeep t).1, if_neg fun hshort => hfound ⟨rfl, hshort⟩, hbatch.updated_eq]
    | parallel =>
      refine ⟨_, sources, targets, rfl, hsources, htargets, fun t _ => ?_⟩
      rw [(hkeep t).2, hbatch.updated_eq]
    | device => exact absurd rfl hsurface
  have hreference := hbatch.computes.reference_eq_ok b rfl
  rw [h.runOnHost_eq_of_engine hengine hreference hvalid, if_pos hvalidates, hbatch.updated_eq]
  rcases h.emptyComparison_cases hbatch hldb with ⟨hview, hm⟩ | ⟨stop, hstop, hm⟩
  · rw [hm]
    exact figures_verdict hbatch.isEmpty hview surface none elapsed
  · rw [hm]
    exact .stopped hstop

omit [LawfulScalar α] hldb in
theorem Seeded.runOnHost_eq_outOfRange (hshort : p.TableShort settings.addressing) :
    runOnHost host .sequential p settings elapsed = .error (.fault .outOfRange) := by
  obtain ⟨sources, targets, hsources, htargets, hkeep⟩ := hbatch.enginesKeep settings.addressing
  have hreference := hbatch.computes.reference_eq_ok b rfl
  -- The pass that is to be compared looks for the element that the table lacks.
  have hpass : BufferM.result
      (HostRun.pass ⟨Batch.sequential, p.update, a, b, count, sources, targets, none⟩) b =
        .error .outOfRange := by
    have hstop := (hkeep b).1
    rw [if_pos hshort] at hstop
    change BufferM.result (Batch.sequential p.update a sources targets count) b = _
    rw [BufferM.result, hstop]
  have hengine : engine (α := α) .sequential = .ok Batch.sequential := rfl
  rw [runOnHost, prepareHost, outcome_bind_of_error_ok hengine, except_bind_of_ok hvalid,
    except_bind_of_ok h.plan_eq, except_bind_of_ok h.operands_eq]
  simp only
  rw [outcome_bind_of_fault_ok hsources, outcome_bind_of_fault_ok htargets, if_pos hvalidates,
    outcome_bind_of_fault_ok (BufferM.result_eq_ok hreference), hpass]
  rfl

theorem Seeded.runOnDevice_verdict {spec : EmulatorSpec} {e : Emulator α}
    (hcap : e.ledger.capacity < Word.bound) :
    (∃ error, DeviceRefused host spec p settings e error ∧
      (runOnDevice (emulator host spec) host p settings elapsed).outcome e =
        .error (.refused error)) ∨
    (∀ error, ¬ DeviceRefused host spec p settings e error) ∧
      ∃ g, Geometry.cover count settings.blockSize = .ok g ∧
        (CountersOverflow settings count g e.stats ∧
            (runOnDevice (emulator host spec) host p settings elapsed).outcome e =
              .error (.fault .overflow) ∨
          EmptyVerdict p.update
            ((runOnDevice (emulator host spec) host p settings elapsed).outcome e)) := by
  rcases h.runOnDevice_cases hbatch.computes hbatch.slotA_pos hbatch.slotB_pos hvalid hvalidates
    hcap elapsed with ⟨error, hrefused, -, hout⟩ | ⟨g, hcover, hpasses, hout⟩
  · exact .inl ⟨error, hrefused, hout⟩
  · refine .inr ⟨hpasses, g, hcover, ?_⟩
    rw [hbatch.updated_eq] at hout
    rcases h.emptyComparison_cases hbatch hldb with ⟨hview, hm⟩ | ⟨stop, hstop, hm⟩
    · rw [hm] at hout
      rcases hout with hfull | ⟨-, hout⟩
      · exact .inl hfull
      · rw [hout]
        exact .inr (figures_verdict hbatch.isEmpty hview ..)
    · rw [hm] at hout
      rcases hout with hout | hfull
      · rw [hout]
        exact .inr (.stopped hstop)
      · exact .inl hfull

end Runs

/-- Every engine and every launch leaves `B` alone when the blocks have no cell, unless a table
lacks the element that the sequential engine looks up. The comparison of `B` with itself ends if
and only if the blocks have at most one row and one column and a column distance. A run that
compares is then clean, on a device unless it is refused or its launches cannot be counted. -/
theorem empty_blocks_change_nothing [LawfulScalar α] (p : Problem α)
    (hempty : p.update.rows = 0 ∨ p.update.cols = 0) (hldb : p.update.ldb < Word.bound)
    (hvalid : p.validate = .ok ()) (hslotA : 1 ≤ p.slotA) (hslotB : 1 ≤ p.slotB) :
    (∀ (count : ℕ) (a b : Array α), 1 ≤ count → a.size = p.slotA * count →
        b.size = p.slotB * count → a.size < Word.bound → b.size < Word.bound →
      (∀ addressing, p.EnginesKeep addressing a b.size count ∧
        p.LaunchesKeep addressing a count b) ∧
      (p.update.Viewable → ∃ found, p.mismatches b b count = .ok found ∧
        (found = #[] ↔ ∀ (i : ℕ) (x : α), b[i]? = some x → (x == x) = true)) ∧
      (¬ p.update.Viewable → ∃ stop, p.update.Unviewed stop ∧
        p.mismatches b b count = .error stop)) ∧
    (∀ (settings : Settings) (host : Host) (elapsed : Float) (count : ℕ) (a b : Array α),
        settings.validates = true → plan p settings = .ok count →
        operands host p count = .ok (a, b) →
      (p.TableShort settings.addressing →
        runOnHost host .sequential p settings elapsed = .error (.fault .outOfRange)) ∧
      (∀ surface ≠ Surface.device, ¬ (surface = .sequential ∧ p.TableShort settings.addressing) →
        EmptyVerdict p.update (runOnHost host surface p settings elapsed)) ∧
      ∀ (spec : EmulatorSpec) (e : Emulator α), e.ledger.capacity < Word.bound →
        (∃ error, DeviceRefused host spec p settings e error ∧
          (runOnDevice (emulator host spec) host p settings elapsed).outcome e =
            .error (.refused error)) ∨
        (∀ error, ¬ DeviceRefused host spec p settings e error) ∧
          ∃ g, Geometry.cover count settings.blockSize = .ok g ∧
            (CountersOverflow settings count g e.stats ∧
                (runOnDevice (emulator host spec) host p settings elapsed).outcome e =
                  .error (.fault .overflow) ∨
              EmptyVerdict p.update
                ((runOnDevice (emulator host spec) host p settings elapsed).outcome e))) := by
  obtain ⟨hfirstA, hfirstB⟩ := Problem.first_le_of_validate hvalid
  constructor
  · intro count a b hcount hsizeA hsizeB hltA hltB
    have h : p.IsEmptyBatch a b count :=
      ⟨Update.isEmpty_iff.mpr hempty, hslotA, hslotB, hfirstA, hfirstB, hcount, hsizeA, hsizeB,
        hltA, hltB⟩
    refine ⟨?_, h.mismatches_self hldb, h.mismatches_eq_error hldb⟩
    exact fun addressing => ⟨h.enginesKeep addressing, h.launchesKeep addressing⟩
  · intro settings host elapsed count a b hvalidates hplan hops
    have h := seeded_of_operands hplan hops
    have hbatch := h.isEmptyBatch hempty hvalid hslotA hslotB
    refine ⟨?_, ?_, ?_⟩
    · intro hshort
      exact h.runOnHost_eq_outOfRange hbatch hvalid hvalidates elapsed hshort
    · intro surface hsurface hfound
      exact h.runOnHost_verdict hbatch hldb hvalid hvalidates elapsed hsurface hfound
    · intro spec e hcap
      exact h.runOnDevice_verdict hbatch hldb hvalid hvalidates elapsed hcap

def noColumns (rows : ℕ) : Problem Float32 where
  update :=
    { rows, cols := 0, alpha := 2, beta := 3, lda := rows, ldb := rows,
      layoutA := .plain, layoutB := .transposed }
  slotA := 2
  slotB := 2
  firstA := 0
  firstB := 2

theorem plan_noColumns : ∀ rows ∈ [1, 2], plan (noColumns rows) smallRun = .ok 4 := by
  decide

/-- With tables, a run over blocks of one row is clean in parallel, but its sequential engine looks
for an element that no table lists. Blocks of two rows are launched and cannot be compared. -/
theorem noColumns_change_nothing :
    (∃ r, runOnHost Host.standard .parallel (noColumns 1) smallRun 0 = .ok r ∧
      r.mismatches = some #[]) ∧
    runOnHost Host.standard .sequential (noColumns 1) smallRun 0 = .error (.fault .outOfRange) ∧
    (noColumns 2).LaunchesKeep .indirect #[1, 2] 1 #[3, 4] ∧
    ∃ size reason, runOnHost Host.standard .parallel (noColumns 2) smallRun 0 =
      .error (.refused (.viewSize 0 2 0 2 size reason)) := by
  obtain ⟨-, hruns⟩ := empty_blocks_change_nothing (noColumns 1) (.inr rfl) (by decide) rfl
    (by decide) (by decide)
  obtain ⟨hshort, hhost, -⟩ := hruns smallRun Host.standard 0 4 _ _ rfl
    (plan_noColumns 1 (by decide)) rfl
  obtain ⟨hbatches, hwide⟩ := empty_blocks_change_nothing (noColumns 2) (.inr rfl) (by decide) rfl
    (by decide) (by decide)
  obtain ⟨-, hwide, -⟩ := hwide smallRun Host.standard 0 4 _ _ rfl
    (plan_noColumns 2 (by decide)) rfl
  refine ⟨?_, hshort ⟨rfl, .inr rfl⟩, ?_, ?_⟩
  · exact (hhost .parallel nofun nofun).clean_of_viewable ⟨by decide, by decide, by decide⟩
  · obtain ⟨hkeep, -⟩ := hbatches 1 #[1, 2] #[3, 4] (by decide) rfl rfl (by decide) (by decide)
    exact (hkeep .indirect).2
  · have hview : ¬ (noColumns 2).update.Viewable := fun h => absurd h.1 (by decide)
    obtain ⟨stop, hstop, hout⟩ := (hwide .parallel nofun nofun).stopped_of_not_viewable hview
    cases hstop with
    | overflow hld _ => exact absurd hld (by decide)
    | refused size reason _ _ => exact ⟨size, reason.text, hout⟩

end BatchAxpby.Accumulate
