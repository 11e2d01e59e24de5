import BatchAxpby.Proofs.ValidatedRun

/-! # Faults of a run

Past the checks and the sizing of a problem a run has nowhere to fault but in the comparison with
the reference. The comparison views each block, and the view has no distance between columns when
the leading dimension is `2 ^ 63`. This holds for every surface, as long as the host cannot hold
more than `2 ^ 50` bytes and the device can count the launches.
-/

namespace BatchAxpby

theorem Host.le_of_reserve {host : Host} {width len most : ℕ}
    (hhost : ∀ bytes, host.admits bytes = true → bytes ≤ most)
    (h : host.reserve width len = .ok ()) : len * width ≤ most := by
  have hshort := reserve_eq_ok_iff.mp h
  unfold shortage? at hshort
  split_ifs at hshort with _ hadmits
  exact hhost _ hadmits

namespace Accumulate

variable {α : Type} [Scalar α] {host : Host} {spec : EmulatorSpec} {p : Problem α}
  {settings : Settings} {count : ℕ} {a b : Array α} {e : Emulator α}

/-- The blocks of operands that the host can hold are too small for their bytes to overflow. -/
theorem Seeded.not_figuresOverflow (h : Seeded host p settings count a b) (hp : p.Sound)
    (hhost : ∀ bytes, host.admits bytes = true → bytes ≤ 2 ^ 50) : ¬ FiguresOverflow p := by
  have hcells : p.update.rows * p.update.cols ≤ p.slotB :=
    (cells_le_span hp.cols_pos hp.rows_le_ldb).trans ((Nat.le_add_left ..).trans hp.fitsB)
  have hbytes : p.update.rows * p.update.cols * Scalar.width α ≤ 2 ^ 50 := calc
    p.update.rows * p.update.cols * Scalar.width α
      ≤ p.slotB * Scalar.width α := Nat.mul_le_mul_right _ hcells
    _ ≤ p.slotB * count * Scalar.width α :=
      Nat.mul_le_mul_right _ (Nat.le_mul_of_pos_right _ h.count_pos)
    _ ≤ 2 ^ 50 := Host.le_of_reserve hhost h.reserve_eq
  have hword : 2 ^ 50 * 3 < Word.bound := by decide
  rw [FiguresOverflow, Nat.mul_right_comm]
  omega

theorem Seeded.comparison_cases (h : Seeded host p settings count a b) (hp : p.Sound) :
    (p.update.ldb = Word.maxBytes + 1 ∧
      p.mismatches (p.updated a count b) (p.updated a count b) count = .error (.fault .overflow)) ∨
    (p.update.ldb ≠ Word.maxBytes + 1 ∧ ∃ found,
      p.mismatches (p.updated a count b) (p.updated a count b) count = .ok found) := by
  have hsize : (p.updated a count b).size = p.slotB * count :=
    (p.size_updated a count b).trans h.sizeB
  exact p.mismatches_cases hp hsize hsize h.bytesB_le h.count_pos

theorem lift_figures_ne_fault (hf : ¬ FiguresOverflow p) (surface : Surface)
    (device : Option String) (elapsed : Float) (found : Option (Array ℕ)) (fault : Fault) :
    (liftM (figures surface device p settings count elapsed found) : Outcome Result) ≠
      .error (.fault fault) := by
  obtain ⟨r, hr, -⟩ := figures_eq_ok hf surface device elapsed found
  rw [hr]
  nofun

theorem Seeded.runOnHost_fault_iff (h : Seeded host p settings count a b) (hp : p.Sound)
    (hvalid : p.validate = .ok ()) (hf : ¬ FiguresOverflow p) {surface : Surface}
    (hsurface : surface ≠ .device) (elapsed : Float) (fault : Fault) :
    runOnHost host surface p settings elapsed = .error (.fault fault) ↔
      fault = .overflow ∧ settings.validates = true ∧ p.update.ldb = Word.maxBytes + 1 := by
  rw [h.runOnHost_eq hp hvalid hsurface]
  cases hvalidates : settings.validates with
  | false =>
    refine iff_of_false ?_ fun hrun => Bool.false_ne_true hrun.2.1
    exact lift_figures_ne_fault hf surface none elapsed none fault
  | true =>
    rcases h.comparison_cases hp with ⟨hld, hm⟩ | ⟨hne, found, hm⟩
    · rw [hm]
      refine ⟨fun hrun => ?_, fun hrun => ?_⟩
      · cases hrun
        exact ⟨rfl, rfl, hld⟩
      · rw [hrun.1]
        rfl
    · rw [hm]
      refine iff_of_false ?_ fun hrun => hne hrun.2.2
      exact lift_figures_ne_fault hf surface none elapsed (some found) fault

theorem runOnHost_fault_iff (hr : 0 < p.update.rows) (hc : 0 < p.update.cols)
    (hvalid : p.validate = .ok ()) (hplan : plan p settings = .ok count)
    (hhost : ∀ bytes, host.admits bytes = true → bytes ≤ 2 ^ 50) (surface : Surface)
    (elapsed : Float) (fault : Fault) :
    runOnHost host surface p settings elapsed = .error (.fault fault) ↔
      fault = .overflow ∧ surface ≠ .device ∧ settings.validates = true ∧
        p.update.ldb = Word.maxBytes + 1 ∧ ∃ a b, operands host p count = .ok (a, b) := by
  have hp := Problem.sound_of_validate hr hc hvalid
  by_cases hsurface : surface = .device
  · subst hsurface
    exact iff_of_false nofun fun hrun => hrun.2.1 rfl
  rcases seeded_or_exhausted hplan with ⟨bytes, reason, hops⟩ | ⟨a, b, h⟩
  · rw [runOnHost_eq_refused (Or.inr ⟨count, hplan, hops⟩) hvalid hsurface]
    refine iff_of_false nofun ?_
    rintro ⟨-, -, -, -, a, b, hroom⟩
    cases hops.symm.trans hroom
  · rw [h.runOnHost_fault_iff hp hvalid (h.not_figuresOverflow hp hhost) hsurface]
    have hops : ∃ a b, operands host p count = .ok (a, b) := ⟨a, b, h.operands_eq⟩
    simp only [ne_eq, hsurface, hops, not_false_eq_true, true_and, and_true]

theorem bind_cases_of_unvalidated (h : p.IsBatch a b count)
    (hvalidates : settings.validates = false) (batch : DeviceBatch) (e : Emulator α) :
    (∃ error, bind (emulator host spec) host p settings count a b batch e =
      .error (.refused error) e) ∨
    ∃ bases g, p.bases settings.addressing count = .ok bases ∧
      Geometry.cover count settings.blockSize = .ok g ∧
      bind (emulator host spec) host p settings count a b batch e =
        .ok ⟨batch, .update ⟨p.update, bases, count⟩ batch.a batch.b, g, count, none⟩ e := by
  rcases h.bases_cases settings.addressing with ⟨base, hbases⟩ | ⟨bases, hbases⟩
  · exact Or.inl ⟨_, lift_bind_of_error hbases _ e⟩
  · rcases Geometry.cover_cases count settings.blockSize with hcover | ⟨g, hcover⟩
    · refine Or.inl ⟨.emptyBlock, ?_⟩
      rw [bind, lift_bind_of_ok hbases, hcover]
      rfl
    · refine Or.inr ⟨bases, g, hbases, hcover, ?_⟩
      rw [bind, lift_bind_of_ok hbases, hcover, hvalidates]
      rfl

theorem launches_cases_of_room (run : DeviceRun α) {bases : Bases} (h : p.IsBatch a b run.count)
    (hbases : p.bases settings.addressing run.count = .ok bases)
    (hkernel : run.kernel = .update ⟨p.update, bases, run.count⟩ run.batch.a run.batch.b)
    (hcover : Geometry.cover run.count settings.blockSize = .ok run.geometry)
    (hne : run.batch.a ≠ run.batch.b) (hsize : run.batch.sizeB = b.size)
    (hA : e.Holds run.batch.a a) (hB : e.Holds run.batch.b b) {n : ℕ}
    (hroom : e.stats.Room n (n * run.count) (n * run.idle)) :
    (∃ error e', run.launches (emulator host spec) n e = .error (.refused error) e') ∨
      ∃ e', run.launches (emulator host spec) n e = .ok () e' := by
  rcases run.geometry.check_cases spec.maxGroup with ⟨reason, hcheck⟩ | hcheck
  -- A geometry is refused at the first launch, if there is one.
  · cases n with
    | zero => exact Or.inr ⟨e, rfl⟩
    | succ n =>
      have hlaunch : Emulator.launch spec.maxGroup run.kernel run.geometry e = _ :=
        Emulator.launch_eq_refused hcheck e
      exact Or.inl ⟨_, e, bind_of_error (sweepFrom_succ_of_error hlaunch)⟩
  · have hrun : run.Bound spec p settings a b bases e :=
      ⟨hbases, hkernel, hcover, hcheck, hne, hsize, hA, hB⟩
    have hready : e.stats.Room 0 0 0 := hroom.mono (Nat.zero_le _) (Nat.zero_le _) (Nat.zero_le _)
    rcases hrun.launches_cases h.computes hready n with ⟨-, hl⟩ | ⟨hfull, -⟩
    · exact Or.inr hl
    · exact absurd hroom hfull

theorem Seeded.outcome_of_unvalidated (h : Seeded host p settings count a b) (hp : p.Sound)
    (hvalid : p.validate = .ok ()) (hvalidates : settings.validates = false)
    (hcap : e.ledger.capacity < Word.bound)
    (hroom : ∀ g, Geometry.cover count settings.blockSize = .ok g → e.stats.Room settings.repeats
      (settings.repeats * count) (settings.repeats * (g.lanes - count)))
    (elapsed : Float) :
    (∃ error, (runOnDevice (emulator host spec) host p settings elapsed).outcome e =
      .error (.refused error)) ∨
    (runOnDevice (emulator host spec) host p settings elapsed).outcome e =
      liftM (figures .device (some DeviceKind.emulated.text) p settings count elapsed none) := by
  have hbatch := h.isBatch hp
  rcases h.upload_cases hp.slotA_pos hp.slotB_pos hcap with ⟨bytes, reason, e₁, hupload⟩ | hupload
  · exact Or.inl ⟨_, outcome_of_prepare_error elapsed (h.prepareDevice_eq_error hvalid hupload)⟩
  · have hprepare := h.prepareDevice_eq_bind hvalid hupload
    rcases bind_cases_of_unvalidated hbatch hvalidates
      ⟨e.buffers.size, e.buffers.size + 1, a.size, b.size⟩ (e.withBatch a b) with
      ⟨error, hbind⟩ | ⟨bases, g, hbases, hcover, hbind⟩
    · exact Or.inl ⟨error,
        outcome_of_prepare_error elapsed (hprepare.trans (DeviceM.orUndo_of_error hbind _))⟩
    · have hprepared := hprepare.trans (DeviceM.orUndo_of_ok hbind _)
      have hne : e.buffers.size ≠ e.buffers.size + 1 := by omega
      rcases launches_cases_of_room (e := e.withBatch a b)
        ⟨⟨e.buffers.size, e.buffers.size + 1, a.size, b.size⟩,
          .update ⟨p.update, bases, count⟩ e.buffers.size (e.buffers.size + 1), g, count, none⟩
        hbatch hbases rfl hcover hne rfl (e.withBatch_holdsA a b) (e.withBatch_holdsB a b)
        (hroom g hcover) with ⟨error, e₁, hl⟩ | ⟨e₁, hl⟩
      · exact Or.inl ⟨error, outcome_of_launches_error elapsed hprepared hl⟩
      · have hout := outcome_of_launches_ok elapsed hprepared hl
        exact Or.inr hout

def CountersFit (settings : Settings) (count : ℕ) (stats : LaunchStats) : Prop :=
  ∀ g, Geometry.cover count settings.blockSize = .ok g →
    ∀ counter ∈ [stats.launches, stats.active, stats.idle],
      counter + (settings.repeats + 1) * g.lanes < Word.bound

theorem CountersFit.room {stats : LaunchStats} (h : CountersFit settings count stats)
    {g : Geometry} (hcover : Geometry.cover count settings.blockSize = .ok g) :
    stats.Room (settings.repeats + 1) ((settings.repeats + 1) * count)
      ((settings.repeats + 1) * (g.lanes - count)) := by
  have hlanes := Geometry.lanes_le_of_cover hcover
  have hpos := Geometry.lanes_pos_of_cover hcover
  have hl := h g hcover stats.launches (by simp)
  have ha := h g hcover stats.active (by simp)
  have hi := h g hcover stats.idle (by simp)
  refine ⟨?_, ?_, ?_⟩
  · exact (Nat.add_le_add_left (Nat.le_mul_of_pos_right _ hpos) _).trans_lt hl
  · exact (Nat.add_le_add_left (Nat.mul_le_mul_left _ hlanes) _).trans_lt ha
  · exact (Nat.add_le_add_left (Nat.mul_le_mul_left _ (Nat.sub_le ..)) _).trans_lt hi

theorem Seeded.runOnDevice_fault_iff (h : Seeded host p settings count a b) (hp : p.Sound)
    (hvalid : p.validate = .ok ()) (hf : ¬ FiguresOverflow p)
    (hcap : e.ledger.capacity < Word.bound) (hfit : CountersFit settings count e.stats)
    (elapsed : Float) (fault : Fault) :
    (runOnDevice (emulator host spec) host p settings elapsed).outcome e = .error (.fault fault) ↔
      fault = .overflow ∧ settings.validates = true ∧ p.update.ldb = Word.maxBytes + 1 ∧
        ∀ error, ¬ DeviceRefused host spec p settings e error := by
  cases hvalidates : settings.validates with
  | false =>
    refine iff_of_false ?_ fun hrun => Bool.false_ne_true hrun.2.1
    have hroom : ∀ g, Geometry.cover count settings.blockSize = .ok g →
        e.stats.Room settings.repeats (settings.repeats * count)
          (settings.repeats * (g.lanes - count)) := fun g hcover =>
      (hfit.room hcover).mono (Nat.le_succ _) (Nat.mul_le_mul_right _ (Nat.le_succ _))
        (Nat.mul_le_mul_right _ (Nat.le_succ _))
    rcases h.outcome_of_unvalidated hp hvalid hvalidates hcap hroom elapsed with
      ⟨error, hout⟩ | hout
    · rw [hout]
      nofun
    · rw [hout]
      exact lift_figures_ne_fault hf .device _ elapsed none fault
  | true =>
    rcases h.runOnDevice_cases (h.isBatch hp).computes hp.slotA_pos hp.slotB_pos hvalid hvalidates
      hcap elapsed with ⟨error, hrefused, -, hout⟩ | ⟨g, hcover, hpasses, hout⟩
    · rw [hout]
      exact iff_of_false nofun fun hrun => hrun.2.2.2 error hrefused
    -- No step refuses, so what is left to stop the run is the comparison.
    · rcases h.comparison_cases hp with ⟨hld, hm⟩ | ⟨hne, found, hm⟩
      · rw [hm] at hout
        rw [hout.elim id And.right]
        refine ⟨fun hrun => ?_, fun hrun => by rw [hrun.1]⟩
        cases hrun
        exact ⟨rfl, rfl, hld, hpasses⟩
      · rw [hm] at hout
        refine iff_of_false ?_ fun hrun => hne hrun.2.2.1
        rcases hout with ⟨hfull, -⟩ | ⟨-, hout⟩
        · exact absurd (hfit.room hcover) hfull
        · rw [hout]
          exact lift_figures_ne_fault hf .device _ elapsed (some found) fault

theorem runOnDevice_fault_iff (hr : 0 < p.update.rows) (hc : 0 < p.update.cols)
    (hvalid : p.validate = .ok ()) (hplan : plan p settings = .ok count)
    (hhost : ∀ bytes, host.admits bytes = true → bytes ≤ 2 ^ 50)
    (hcap : e.ledger.capacity < Word.bound) (hfit : CountersFit settings count e.stats)
    (elapsed : Float) (fault : Fault) :
    (runOnDevice (emulator host spec) host p settings elapsed).outcome e = .error (.fault fault) ↔
      fault = .overflow ∧ settings.validates = true ∧ p.update.ldb = Word.maxBytes + 1 ∧
        ∀ error, ¬ DeviceRefused host spec p settings e error := by
  have hp := Problem.sound_of_validate hr hc hvalid
  rcases seeded_or_exhausted hplan with ⟨bytes, reason, hops⟩ | ⟨a, b, h⟩
  · have hrefused : StorageRefused host p settings (.hostExhausted bytes reason) :=
      Or.inr ⟨count, hplan, hops⟩
    rw [outcome_of_prepare_error elapsed (prepareDevice_eq_refused hrefused hvalid e)]
    exact iff_of_false nofun fun hrun => hrun.2.2.2 _ (Or.inl hrefused)
  · exact h.runOnDevice_fault_iff hp hvalid (h.not_figuresOverflow hp hhost) hcap hfit elapsed fault

/-- A run of a checked problem that sizing admits faults only where it compares a pass with the
reference, only if that comparison is reached, and only if the leading dimension of `B` is
`2 ^ 63`. -/
theorem run_faults_only_in_comparison (p : Problem α) (settings : Settings)
    (hr : 0 < p.update.rows) (hc : 0 < p.update.cols) (hvalid : p.validate = .ok ())
    (hplan : plan p settings = .ok count) (host : Host)
    (hhost : ∀ bytes, host.admits bytes = true → bytes ≤ 2 ^ 50) (elapsed : Float)
    (fault : Fault) :
    (∀ surface, runOnHost host surface p settings elapsed = .error (.fault fault) ↔
      fault = .overflow ∧ surface ≠ .device ∧ settings.validates = true ∧
        p.update.ldb = Word.maxBytes + 1 ∧ ∃ a b, operands host p count = .ok (a, b)) ∧
    ∀ (spec : EmulatorSpec) (e : Emulator α), e.ledger.capacity < Word.bound →
      CountersFit settings count e.stats →
      ((runOnDevice (emulator host spec) host p settings elapsed).outcome e =
          .error (.fault fault) ↔
        fault = .overflow ∧ settings.validates = true ∧ p.update.ldb = Word.maxBytes + 1 ∧
          ∀ error, ¬ DeviceRefused host spec p settings e error) :=
  ⟨fun surface => runOnHost_fault_iff hr hc hvalid hplan hhost surface elapsed fault,
    fun _ _ hcap hfit => runOnDevice_fault_iff hr hc hvalid hplan hhost hcap hfit elapsed fault⟩

theorem countersFit_smallRun : CountersFit smallRun 2 {} := by
  intro g hcover counter hcounter
  cases hcover
  revert counter
  decide

/-- Runs over two columns fault on no surface, unless they are compared and the column distance
overflows. -/
theorem column_runs_fault :
    (∀ surface fault,
      runOnHost Host.standard surface (column 2) smallRun 0 ≠ .error (.fault fault)) ∧
    (∀ fault, (runOnDevice (emulator Host.standard {}) Host.standard (column 2) smallRun 0).outcome
      (Emulator.start {}) ≠ .error (.fault fault)) ∧
    runOnHost Host.standard .parallel (column (Word.maxBytes + 1)) smallRun 0 =
      .error (.fault .overflow) ∧
    ∀ surface fault, runOnHost Host.standard surface (column (Word.maxBytes + 1))
      { smallRun with validates := false } 0 ≠ .error (.fault fault) := by
  have hhost : ∀ bytes, Host.standard.admits bytes = true → bytes ≤ 2 ^ 50 := by
    intro bytes h
    exact of_decide_eq_true h
  have hnear := run_faults_only_in_comparison (column 2) smallRun (by decide) (by decide)
    (by decide) (plan_column 2 (by decide)) Host.standard hhost 0
  have hfar := run_faults_only_in_comparison (column (Word.maxBytes + 1)) smallRun (by decide)
    (by decide) (by decide) (plan_column _ (by decide)) Host.standard hhost 0
  have hsilent := run_faults_only_in_comparison (column (Word.maxBytes + 1))
    { smallRun with validates := false } (by decide) (by decide) (by decide)
    (plan_column _ (by decide)) Host.standard hhost 0
  refine ⟨fun surface fault h => ?_, fun fault h => ?_, ?_, fun surface fault h => ?_⟩
  · obtain ⟨-, -, -, hld, -⟩ := ((hnear fault).1 surface).mp h
    exact absurd hld (by decide)
  · obtain ⟨-, -, hld, -⟩ :=
      ((hnear fault).2 {} (Emulator.start {}) (by decide) countersFit_smallRun).mp h
    exact absurd hld (by decide)
  · exact ((hfar .overflow).1 .parallel).mpr ⟨rfl, nofun, rfl, rfl, _, _, rfl⟩
  · obtain ⟨-, -, hvalidates, -⟩ := ((hsilent fault).1 surface).mp h
    exact Bool.false_ne_true hvalidates

end Accumulate

end BatchAxpby
