import BatchAxpby.Proofs.DeviceRun

/-! # Accounts of a device run

A run on an emulated device takes two buffers, holds them through all its launches and gives them
back however it ends. A run that is refused has counted nothing. A run that ends has counted each
of its launches, with one active lane for each element.
-/

namespace BatchAxpby

namespace Emulator

variable {α : Type} [Scalar α] {e e' : Emulator α} {a t : Array α} {args : UpdateArgs α}
  {g : Geometry} {limit : ℕ}

def counted (e : Emulator α) (launches active idle : ℕ) : Emulator α :=
  { e with stats := e.stats.plus launches active idle }

omit [Scalar α] in
theorem counted_counted (e : Emulator α) (n x y : ℕ) : (e.counted 1 x y).counted n (n * x) (n * y) =
    e.counted (n + 1) ((n + 1) * x) ((n + 1) * y) := by
  simp only [counted, LaunchStats.plus_plus, Nat.add_mul, Nat.one_mul, Nat.add_comm]

theorem launch_withBatch (hlanes : args.count ≤ g.lanes)
    (h : launch limit (.update args e.buffers.size (e.buffers.size + 1)) g (e.withBatch a t) =
      .ok () e') :
    g.check limit = .ok () ∧ ∃ t', t'.size = t.size ∧
      e' = (e.counted 1 args.count (g.lanes - args.count)).withBatch a t' := by
  obtain ⟨hcheck, active, e₁, hrun, -, rfl⟩ := launch_eq_ok_imp h
  obtain ⟨rfl, data, t', hholds, hsize, rfl⟩ := runLanes_update_imp hrun
  rw [← hholds.cells_eq, (e.withBatch_holdsB a t).cells_eq] at hsize
  refine ⟨hcheck, t', hsize, ?_⟩
  rw [withBatch_withCellsB e hsize, Nat.min_eq_right hlanes]
  rfl

theorem sweep_launch_withBatch (hlanes : args.count ≤ g.lanes) {n start : ℕ}
    (h : sweepFrom (fun _ => launch limit (.update args e.buffers.size (e.buffers.size + 1)) g)
      n start (e.withBatch a t) = .ok () e') :
    ∃ t', t'.size = t.size ∧ e' =
      (e.counted n (n * args.count) (n * (g.lanes - args.count))).withBatch a t' := by
  induction n generalizing e t start with
  | zero =>
    cases h
    refine ⟨t, rfl, ?_⟩
    rw [Nat.zero_mul, Nat.zero_mul]
    rfl
  | succ n ih =>
    obtain ⟨e₁, hlaunch, hrest⟩ := sweepFrom_succ_eq_ok h
    obtain ⟨-, t₁, hsize₁, rfl⟩ := launch_withBatch hlanes hlaunch
    obtain ⟨t', hsize, rfl⟩ := ih (e := e.counted 1 args.count _) hrest
    exact ⟨t', hsize.trans hsize₁, by rw [counted_counted]⟩

theorem sweep_launch_refused {kernel : Kernel α} {n start : ℕ} {error : Error}
    (h : sweepFrom (fun _ => launch limit kernel g) n start e = .error (.refused error) e') :
    g.check limit = .error error ∧ e' = e := by
  induction n generalizing e start with
  | zero => exact nomatch h
  | succ n ih =>
    cases hlaunch : launch limit kernel g e with
    | error stop e₁ =>
      rw [sweepFrom_succ_of_error hlaunch] at h
      cases h
      exact launch_eq_refused_imp hlaunch
    | ok v e₁ =>
      rw [sweepFrom_succ_of_ok hlaunch] at h
      obtain ⟨hcheck, -⟩ := ih h
      cases (launch_eq_ok_imp hlaunch).1.symm.trans hcheck

end Emulator

namespace Accumulate

variable {α : Type} [Scalar α] {host : Host} {spec : EmulatorSpec} {p : Problem α}
  {settings : Settings} {count : ℕ} {a b : Array α} {e e' : Emulator α}

/-- The operands of a prepared run stand behind the buffers of the device, and a launch for the
comparison is counted. -/
structure DeviceRun.Prepared (run : DeviceRun α) (spec : EmulatorSpec) (p : Problem α)
    (settings : Settings) (a b : Array α) (e e' : Emulator α) : Prop where
  batch_eq : run.batch = ⟨e.buffers.size, e.buffers.size + 1, a.size, b.size⟩
  kernel_eq : ∃ bases, run.kernel =
    .update ⟨p.update, bases, run.count⟩ e.buffers.size (e.buffers.size + 1)
  cover_eq : Geometry.cover run.count settings.blockSize = .ok run.geometry
  check_eq : settings.validates = true → run.geometry.check spec.maxGroup = .ok ()
  state_eq : ∃ t, t.size = b.size ∧ e' = (e.counted settings.validates.toNat
    (settings.validates.toNat * run.count) (settings.validates.toNat * run.idle)).withBatch a t

theorem compareLaunch_eq_ok_imp {run run' : DeviceRun α}
    (h : compareLaunch (emulator host spec) host p a b run e = .ok run' e') :
    Emulator.launch spec.maxGroup run.kernel run.geometry e = .ok () e' ∧
      ∃ found, run' = { run with mismatches := some found } := by
  obtain ⟨_, e₁, hlaunch, h⟩ := bind_eq_ok.mp h
  obtain ⟨_, e₂, hsync, h⟩ := bind_eq_ok.mp h
  cases hsync
  obtain ⟨_, hreserve, h⟩ := lift_bind_eq_ok.mp h
  obtain ⟨actual, e₂, hdownload, h⟩ := bind_eq_ok.mp h
  obtain ⟨expected, hexpected, h⟩ := device_bind_fault_eq_ok.mp h
  obtain ⟨found, hfound, h⟩ := lift_bind_eq_ok.mp h
  rcases Emulator.downloadBatch_cases host spec run.batch b.size e₁ with
    ⟨data, hdata⟩ | ⟨error, hdata⟩
  · cases hdata.symm.trans hdownload
    cases h
    exact ⟨hlaunch, found, rfl⟩
  · cases hdata.symm.trans hdownload

theorem bind_eq_ok_imp {run : DeviceRun α}
    (h : bind (emulator host spec) host p settings count a b
      ⟨e.buffers.size, e.buffers.size + 1, a.size, b.size⟩ (e.withBatch a b) = .ok run e') :
    run.count = count ∧ run.Prepared spec p settings a b e e' := by
  obtain ⟨bases, -, h⟩ := lift_bind_eq_ok.mp h
  obtain ⟨_, _, hprepare, h⟩ := bind_eq_ok.mp h
  cases hprepare
  obtain ⟨g, hcover, h⟩ := device_bind_error_eq_ok.mp h
  cases hvalidates : settings.validates with
  | true =>
    rw [if_pos hvalidates] at h
    obtain ⟨hlaunch, found, rfl⟩ := compareLaunch_eq_ok_imp h
    obtain ⟨hcheck, t, hsize, rfl⟩ :=
      Emulator.launch_withBatch (Geometry.lanes_le_of_cover hcover) hlaunch
    refine ⟨rfl, rfl, ⟨bases, rfl⟩, hcover, fun _ => hcheck, t, hsize, ?_⟩
    rw [hvalidates, Bool.toNat_true, Nat.one_mul, Nat.one_mul]
    rfl
  | false =>
    rw [if_neg (by rw [hvalidates]; exact Bool.false_ne_true)] at h
    cases h
    refine ⟨rfl, rfl, ⟨bases, rfl⟩, hcover, fun htrue => ?_, b, rfl, ?_⟩
    · exact nomatch hvalidates.symm.trans htrue
    rw [hvalidates, Bool.toNat_false, Nat.zero_mul, Nat.zero_mul]
    rfl

theorem prepareDevice_eq_ok_imp {run : DeviceRun α}
    (h : prepareDevice (emulator host spec) host p settings e = .ok run e') :
    ∃ a b, Seeded host p settings run.count a b ∧
      DeviceBatch.upload (emulator host spec) a b e = .ok run.batch (e.withBatch a b) ∧
      run.Prepared spec p settings a b e e' := by
  obtain ⟨_, -, h⟩ := lift_bind_eq_ok.mp h
  obtain ⟨count, hplan, h⟩ := lift_bind_eq_ok.mp h
  obtain ⟨⟨a, b⟩, hops, h⟩ := lift_bind_eq_ok.mp h
  obtain ⟨batch, e₁, hupload, h⟩ := bind_eq_ok.mp h
  rcases Emulator.uploadBatch_cases host spec a b e with ⟨hnew, -⟩ | ⟨stop, e', hnew, -⟩
  · cases hnew.symm.trans hupload
    obtain ⟨rfl, hprepared⟩ := bind_eq_ok_imp (DeviceM.orUndo_eq_ok h)
    refine ⟨a, b, seeded_of_operands hplan hops, ?_, hprepared⟩
    rw [hprepared.batch_eq]
    exact hupload
  · cases hnew.symm.trans hupload

theorem Seeded.mismatches_ne_refused (h : Seeded host p settings count a b) (hp : p.Sound)
    {t u : Array α} (ht : t.size = b.size) (hu : u.size = b.size) (error : Error) :
    p.mismatches t u count ≠ .error (.refused error) := by
  rw [h.sizeB] at ht hu
  rcases p.mismatches_cases hp ht hu h.bytesB_le h.count_pos with ⟨-, hm⟩ | ⟨-, found, hm⟩
  · rw [hm]
    nofun
  · rw [hm]
    nofun

theorem Seeded.compareLaunch_refused {run : DeviceRun α}
    (h : Seeded host p settings run.count a b) (hp : p.Sound) {bases : Bases} {error : Error}
    (hbatch : run.batch = ⟨e.buffers.size, e.buffers.size + 1, a.size, b.size⟩)
    (hkernel : run.kernel =
      .update ⟨p.update, bases, run.count⟩ e.buffers.size (e.buffers.size + 1))
    (hcover : Geometry.cover run.count settings.blockSize = .ok run.geometry)
    (hcompare : compareLaunch (emulator host spec) host p a b run (e.withBatch a b) =
      .error (.refused error) e') : e' = e.withBatch a b := by
  rcases bind_eq_error hcompare with hlaunch | ⟨_, e₁, hlaunch, hrest⟩
  · exact (Emulator.launch_eq_refused_imp hlaunch).2
  · exfalso
    -- Past its launch a comparison refuses nothing: the host had room for a buffer like `B` before,
    -- and the reference ends.
    rw [hkernel] at hlaunch
    obtain ⟨-, t, hsize, rfl⟩ :=
      Emulator.launch_withBatch (Geometry.lanes_le_of_cover hcover) hlaunch
    rcases bind_eq_error hrest with hsync | ⟨_, e₂, hsync, hrest⟩
    · exact nomatch hsync
    · cases hsync
      rcases lift_bind_eq_error hrest with ⟨hreserve, -⟩ | ⟨_, -, hrest⟩
      · rw [h.sizeB, h.reserve_eq] at hreserve
        exact nomatch hreserve
      · have hdownload : run.batch.download (emulator host spec) t.size
            ((e.counted 1 run.count run.idle).withBatch a t) = .ok t _ :=
          Emulator.downloadBatch_eq_ok host spec
            (by rw [hbatch]; exact Emulator.withBatch_holdsB _ a t)
            (by rw [hbatch]; exact hsize.symm)
        rw [hsize] at hdownload
        rcases bind_eq_error hrest with hfail | ⟨actual, e₂, hgot, hrest⟩
        · cases hdownload.symm.trans hfail
        · cases hdownload.symm.trans hgot
          obtain ⟨expected, hexpected, hrest⟩ := device_bind_fault_eq_refused hrest
          have hreference := BufferM.result_eq_ok (h.isBatch hp).reference_eq_ok
          cases hreference.symm.trans hexpected
          rcases lift_bind_eq_error hrest with ⟨hfound, -⟩ | ⟨found, -, hrest⟩
          · exact h.mismatches_ne_refused hp hsize (p.size_updated a run.count b) error hfound
          · exact nomatch hrest

theorem Seeded.bind_refused (h : Seeded host p settings count a b) (hp : p.Sound) {error : Error}
    (hbind : bind (emulator host spec) host p settings count a b
      ⟨e.buffers.size, e.buffers.size + 1, a.size, b.size⟩ (e.withBatch a b) =
        .error (.refused error) e') : e' = e.withBatch a b := by
  rcases lift_bind_eq_error hbind with ⟨-, rfl⟩ | ⟨bases, -, hbind⟩
  · rfl
  · rcases bind_eq_error hbind with hprepare | ⟨_, _, hprepare, hbind⟩
    · exact nomatch hprepare
    · cases hprepare
      rcases device_bind_error_eq_refused hbind with ⟨-, rfl⟩ | ⟨g, hcover, hbind⟩
      · rfl
      · split_ifs at hbind
        · exact compareLaunch_refused h hp rfl rfl hcover hbind
        · exact nomatch hbind

/-- A run that is refused before its timed launches leaves nothing on the device. -/
theorem prepareDevice_refused (hr : 0 < p.update.rows) (hc : 0 < p.update.cols) {error : Error}
    (h : prepareDevice (emulator host spec) host p settings e = .error (.refused error) e') :
    e.Restores e' := by
  rcases lift_bind_eq_error h with ⟨-, rfl⟩ | ⟨_, hvalid, h⟩
  · exact .refl _
  · have hp := Problem.sound_of_validate hr hc hvalid
    rcases lift_bind_eq_error h with ⟨-, rfl⟩ | ⟨count, hplan, h⟩
    · exact .refl _
    · rcases lift_bind_eq_error h with ⟨-, rfl⟩ | ⟨⟨a, b⟩, hops, h⟩
      · exact .refl _
      · have hseeded := seeded_of_operands hplan hops
        rcases Emulator.uploadBatch_cases host spec a b e with
          ⟨hupload, -⟩ | ⟨stop, e₁, hupload, hrestores, -⟩
        · obtain ⟨e₁, hbind, rfl⟩ :=
            DeviceM.orUndo_eq_error ((bind_of_ok hupload).symm.trans h)
          rw [hseeded.bind_refused hp hbind]
          exact e.restores_free_withBatch a b
        · cases (bind_of_error hupload).symm.trans h
          exact hrestores

namespace DeviceRun.Prepared

variable {run : DeviceRun α} {e₁ : Emulator α} (h : run.Prepared spec p settings a b e e₁)

include h

theorem launches_refused {n : ℕ} {error : Error}
    (hl : run.launches (emulator host spec) n e₁ = .error (.refused error) e') :
    settings.validates = false ∧ e' = e₁ := by
  rcases bind_eq_error hl with hsweep | ⟨_, _, -, hsync⟩
  · obtain ⟨hcheck, rfl⟩ := Emulator.sweep_launch_refused hsweep
    refine ⟨Bool.eq_false_iff.mpr fun hvalidates => ?_, rfl⟩
    cases (h.check_eq hvalidates).symm.trans hcheck
  · exact nomatch hsync

theorem launches_eq_ok_imp {n : ℕ}
    (hl : run.launches (emulator host spec) n e₁ = .ok () e') :
    ∃ t, t.size = b.size ∧ e' = (e.counted (n + settings.validates.toNat)
      ((n + settings.validates.toNat) * run.count)
      ((n + settings.validates.toNat) * run.idle)).withBatch a t := by
  obtain ⟨_, _, hsweep, hsync⟩ := bind_eq_ok.mp hl
  cases hsync
  obtain ⟨bases, hkernel⟩ := h.kernel_eq
  obtain ⟨t₁, hsize₁, rfl⟩ := h.state_eq
  rw [hkernel] at hsweep
  obtain ⟨t, hsize, rfl⟩ := Emulator.sweep_launch_withBatch
    (e := e.counted _ _ _) (Geometry.lanes_le_of_cover h.cover_eq) hsweep
  refine ⟨t, hsize.trans hsize₁, ?_⟩
  simp only [Emulator.counted, LaunchStats.plus_plus, Nat.add_mul, Nat.add_comm]
  rfl

theorem restores_free (host : Host) (t : Array α) (n active idle : ℕ) :
    (e.counted n active idle).Restores
      (run.batch.free (emulator host spec) ((e.counted n active idle).withBatch a t)) := by
  rw [h.batch_eq]
  exact Emulator.restores_free_withBatch (e.counted n active idle) a t

end DeviceRun.Prepared

theorem runOnDevice_refused (hr : 0 < p.update.rows) (hc : 0 < p.update.cols) {elapsed : Float}
    {error : Error}
    (h : runOnDevice (emulator host spec) host p settings elapsed e = .error (.refused error) e') :
    e.Restores e' := by
  rcases bind_eq_error h with hprepare | ⟨run, e₁, hprepare, h⟩
  · exact prepareDevice_refused hr hc hprepare
  · obtain ⟨a, b, -, -, hprepared⟩ := prepareDevice_eq_ok_imp hprepare
    obtain ⟨e₂, htimed, rfl⟩ := DeviceM.andFinally_eq_error h
    rcases bind_eq_error htimed with hlaunches | ⟨_, e₃, -, hfigures⟩
    · obtain ⟨hvalidates, rfl⟩ := hprepared.launches_refused hlaunches
      obtain ⟨t, -, rfl⟩ := hprepared.state_eq
      rw [hvalidates, Bool.toNat_false, Nat.zero_mul, Nat.zero_mul]
      exact hprepared.restores_free host t 0 0 0
    · exact absurd hfigures device_lift_fault_ne_refused

theorem figures_eq_ok_imp {surface : Surface} {device : Option String} {elapsed : Float}
    {found : Option (Array ℕ)} {r : Result}
    (h : figures surface device p settings count elapsed found = .ok r) : r.count = count := by
  obtain ⟨_, -, h⟩ := except_bind_eq_ok.mp h
  obtain ⟨_, -, h⟩ := except_bind_eq_ok.mp h
  obtain ⟨_, -, h⟩ := except_bind_eq_ok.mp h
  obtain ⟨_, -, h⟩ := except_bind_eq_ok.mp h
  cases h
  rfl

theorem DeviceRun.launches_eq_ok_of_le {run : DeviceRun α} {n k : ℕ}
    (h : run.launches (emulator host spec) n e = .ok () e') (hk : k ≤ n) :
    ∃ e₁, run.launches (emulator host spec) k e = .ok () e₁ := by
  obtain ⟨_, _, hsweep, -⟩ := bind_eq_ok.mp h
  obtain ⟨e₁, hshort⟩ := sweepFrom_eq_ok_of_le hsweep hk
  exact ⟨e₁, bind_of_ok hshort⟩

/-- A prepared run holds its operands through all its launches. -/
theorem DeviceRun.Prepared.inUse_eq {run : DeviceRun α} {e₁ : Emulator α} {n : ℕ}
    (h : run.Prepared spec p settings a b e e₁)
    (hl : run.launches (emulator host spec) n e₁ = .ok () e') :
    e'.ledger.inUse = e.ledger.inUse + (a.size + b.size) * Scalar.width α := by
  obtain ⟨t, hsize, rfl⟩ := h.launches_eq_ok_imp hl
  rw [← hsize]
  rfl

def launchCount (settings : Settings) : ℕ := settings.repeats + settings.validates.toNat

/-- From the upload to the last launch, the device has `bytes` more bytes in use than in `e`. -/
def HeldThroughout (host : Host) (spec : EmulatorSpec) (p : Problem α) (settings : Settings)
    (e : Emulator α) (bytes : ℕ) : Prop :=
  ∃ count a b batch e₁ run e₂, plan p settings = .ok count ∧ operands host p count = .ok (a, b) ∧
    DeviceBatch.upload (emulator host spec) a b e = .ok batch e₁ ∧
    e₁.ledger.inUse = e.ledger.inUse + bytes ∧
    prepareDevice (emulator host spec) host p settings e = .ok run e₂ ∧
    ∀ n ≤ settings.repeats, ∃ e₃, run.launches (emulator host spec) n e₂ = .ok () e₃ ∧
      e₃.ledger.inUse = e.ledger.inUse + bytes

/-- A run on an emulated device that is refused leaves the device as it was. A run that ends
leaves it with all its launches counted, an active lane for each element and less than one group
of idle lanes. Meanwhile it holds the bytes of its operands, which fit the budget. -/
theorem runOnDevice_keeps_accounts (p : Problem α) (hr : 0 < p.update.rows)
    (hc : 0 < p.update.cols) (settings : Settings) (host : Host) (spec : EmulatorSpec)
    (elapsed : Float) (e e' : Emulator α) :
    (∀ error, runOnDevice (emulator host spec) host p settings elapsed e =
      .error (.refused error) e' → e.Restores e') ∧
    ∀ r, runOnDevice (emulator host spec) host p settings elapsed e = .ok r e' →
      ∃ g, Geometry.cover r.count settings.blockSize = .ok g ∧ r.count ≤ g.lanes ∧
        g.lanes - r.count < g.block ∧
        (e.counted (launchCount settings) (launchCount settings * r.count)
          (launchCount settings * (g.lanes - r.count))).Restores e' ∧
        HeldThroughout host spec p settings e ((p.slotA + p.slotB) * r.count * Scalar.width α) ∧
        (p.slotA + p.slotB) * r.count * Scalar.width α ≤ Budget.bytes settings.gigabytes := by
  refine ⟨fun error h => runOnDevice_refused hr hc h, fun r h => ?_⟩
  obtain ⟨run, e₁, hprepare, h⟩ := bind_eq_ok.mp h
  obtain ⟨a, b, hseeded, hupload, hprepared⟩ := prepareDevice_eq_ok_imp hprepare
  obtain ⟨e₂, htimed, rfl⟩ := DeviceM.andFinally_eq_ok h
  obtain ⟨_, e₃, hlaunches, hfigures⟩ := bind_eq_ok.mp htimed
  obtain ⟨hreport, rfl⟩ := device_lift_fault_eq_ok hfigures
  rw [figures_eq_ok_imp hreport]
  have hbytes : (a.size + b.size) * Scalar.width α =
      (p.slotA + p.slotB) * run.count * Scalar.width α := by
    rw [hseeded.sizeA, hseeded.sizeB, ← Nat.add_mul]
  refine ⟨run.geometry, hprepared.cover_eq, Geometry.lanes_le_of_cover hprepared.cover_eq,
    Geometry.idle_lt_of_cover hprepared.cover_eq hseeded.count_pos, ?_, ?_, ?_⟩
  · obtain ⟨t, -, rfl⟩ := hprepared.launches_eq_ok_imp hlaunches
    exact hprepared.restores_free host t _ _ _
  · rw [← hbytes]
    refine ⟨run.count, a, b, run.batch, e.withBatch a b, run, e₁, hseeded.plan_eq,
      hseeded.operands_eq, hupload, rfl, hprepare, fun n hn => ?_⟩
    obtain ⟨e₃, hshort⟩ := DeviceRun.launches_eq_ok_of_le hlaunches hn
    exact ⟨e₃, hshort, hprepared.inUse_eq hshort⟩
  · rw [Nat.mul_right_comm]
    exact (plan_eq_ok hseeded.plan_eq).2

def rowPair : Problem Float32 where
  update :=
    { rows := 1, cols := 2, alpha := 2, beta := 0.5, lda := 1, ldb := 2,
      layoutA := .plain, layoutB := .plain }
  slotA := 2
  slotB := 3
  firstA := 0
  firstB := 0

def rowPairRun : Settings where
  gigabytes := 64 / 1073741824
  repeats := 2
  addressing := .indirect
  blockSize := 2
  validates := true

def usedDevice (capacity : ℕ) : Emulator Float32 :=
  ⟨⟨capacity, 8⟩, #[{ cells := #[1, 2] }], ⟨4, 9, 3⟩⟩

/-- With room for 60 more bytes the run ends and counts three launches of three active lanes and
an idle one. With room for 32 the second operand is refused. -/
theorem usedDevice_keeps_accounts :
    (∃ r e', runOnDevice (emulator Host.standard {}) Host.standard rowPair rowPairRun 0
        (usedDevice 68) = .ok r e' ∧ ((usedDevice 68).counted 3 9 3).Restores e' ∧
      HeldThroughout Host.standard {} rowPair rowPairRun (usedDevice 68) 60) ∧
    ∃ error e', runOnDevice (emulator Host.standard {}) Host.standard rowPair rowPairRun 0
      (usedDevice 40) = .error (.refused error) e' ∧ (usedDevice 40).Restores e' := by
  have hends : ((runOnDevice (emulator Host.standard {}) Host.standard rowPair rowPairRun 0).outcome
      (usedDevice 68)).map Result.count = .ok 3 := by
    decide +kernel
  have hrefused : ((runOnDevice (emulator Host.standard {}) Host.standard rowPair rowPairRun
      0).outcome (usedDevice 40)).map Result.count =
      .error (.refused (.deviceExhausted 36 8 40)) := by
    decide +kernel
  constructor
  · cases hrun : runOnDevice (emulator Host.standard {}) Host.standard rowPair rowPairRun 0
        (usedDevice 68) with
    | error stop e' =>
      rw [DeviceM.outcome_of_error hrun] at hends
      exact nomatch hends
    | ok r e' =>
      rw [DeviceM.outcome_of_ok hrun] at hends
      have hcount : r.count = 3 := Except.ok.inj hends
      obtain ⟨-, hok⟩ := runOnDevice_keeps_accounts rowPair (by decide) (by decide) rowPairRun
        Host.standard {} 0 (usedDevice 68) e'
      obtain ⟨g, hcover, -, -, hrestores, hheld, -⟩ := hok r hrun
      rw [hcount] at hcover hrestores hheld
      cases hcover
      exact ⟨r, e', rfl, hrestores, hheld⟩
  · cases hrun : runOnDevice (emulator Host.standard {}) Host.standard rowPair rowPairRun 0
        (usedDevice 40) with
    | ok r e' =>
      rw [DeviceM.outcome_of_ok hrun] at hrefused
      exact nomatch hrefused
    | error stop e' =>
      rw [DeviceM.outcome_of_error hrun] at hrefused
      cases hrefused
      obtain ⟨herror, -⟩ := runOnDevice_keeps_accounts rowPair (by decide) (by decide) rowPairRun
        Host.standard {} 0 (usedDevice 40) e'
      exact ⟨_, e', rfl, herror _ hrun⟩

end Accumulate

end BatchAxpby
