import BatchAxpby.Proofs.Comparison
import BatchAxpby.Proofs.Sizing
import BatchAxpby.Proofs.Storage

/-! # Runs on an emulated device

A run uploads its operands, launches and downloads. Each of these steps can refuse for want of
memory or because of the launch geometry. Past them a run goes on until the counters of the
device are full.
-/

namespace BatchAxpby

section Launches

variable {α : Type} [Scalar α] {p : Problem α} {a : Array α} {size count : ℕ}
  {addressing : Addressing} {bases : Bases} {i j : ℕ} {g : Geometry} {limit block : ℕ}
  (h : p.Computes a size count) (hbases : p.bases addressing count = .ok bases) (hij : i ≠ j)
  (hcover : Geometry.cover count block = .ok g) (hcheck : g.check limit = .ok ())

include h hbases hij hcover hcheck

theorem sweep_launch_cases {e : Emulator α} {t : Array α} (ht : t.size = size)
    (hA : e.Holds i a) (hB : e.Holds j t) (hstats : e.stats.Room 0 0 0) (n start : ℕ) :
    e.stats.Room n (n * count) (n * (g.lanes - count)) ∧
        (∃ e', sweepFrom (fun _ => Emulator.launch limit (.update ⟨p.update, bases, count⟩ i j) g)
          n start e = .ok () e') ∨
      ¬ e.stats.Room n (n * count) (n * (g.lanes - count)) ∧
        ∃ e', sweepFrom (fun _ => Emulator.launch limit (.update ⟨p.update, bases, count⟩ i j) g)
          n start e = .error (.fault .overflow) e' := by
  induction n generalizing e t start with
  | zero => exact Or.inl ⟨by simpa using hstats, e, rfl⟩
  | succ n ih =>
    by_cases hroom : e.stats.Room 1 count (g.lanes - count)
    -- The launch keeps both operands in their places, so the next one starts like this one.
    · have hlaunch := h.launch_eq_ok ht hbases hij hA hB hcover hcheck hroom
      have hsize := (p.size_updated a count t).trans ht
      have hstats' : (e.stats.plus 1 count (g.lanes - count)).Room 0 0 0 :=
        LaunchStats.room_plus.mpr hroom
      rw [sweepFrom_succ_of_ok hlaunch, LaunchStats.room_succ]
      exact ih hsize (hA.launched_of_ne hij.symm ..) (hB.launched ..) hstats' (start + 1)
    · have hlaunch := h.launch_eq_overflow ht hbases hij hA hB hcover hcheck hroom
      rw [sweepFrom_succ_of_error hlaunch]
      exact Or.inr ⟨fun hmore => hroom hmore.of_succ, _, rfl⟩

end Launches

namespace Accumulate

variable {α : Type} [Scalar α] {host : Host} {spec : EmulatorSpec} {p : Problem α}
  {settings : Settings} {count : ℕ} {a b : Array α} {bases : Bases} {g : Geometry}

/-- The kernel of the run updates the buffer that holds `t` from the one that holds `a`, with a
geometry that covers the batch and passes the check. -/
structure DeviceRun.Bound (run : DeviceRun α) (spec : EmulatorSpec) (p : Problem α)
    (settings : Settings) (a t : Array α) (bases : Bases) (e : Emulator α) : Prop where
  bases_eq : p.bases settings.addressing run.count = .ok bases
  kernel_eq : run.kernel = .update ⟨p.update, bases, run.count⟩ run.batch.a run.batch.b
  cover_eq : Geometry.cover run.count settings.blockSize = .ok run.geometry
  check_eq : run.geometry.check spec.maxGroup = .ok ()
  ne : run.batch.a ≠ run.batch.b
  sizeB : run.batch.sizeB = t.size
  holdsA : e.Holds run.batch.a a
  holdsB : e.Holds run.batch.b t

def DeviceRun.idle (run : DeviceRun α) : ℕ := run.geometry.lanes - run.count

theorem DeviceRun.Bound.launches_cases {run : DeviceRun α} {t : Array α} {e : Emulator α}
    (hrun : run.Bound spec p settings a t bases e) (h : p.Computes a t.size run.count)
    (hstats : e.stats.Room 0 0 0) (n : ℕ) :
    e.stats.Room n (n * run.count) (n * run.idle) ∧
        (∃ e', run.launches (emulator host spec) n e = .ok () e') ∨
      ¬ e.stats.Room n (n * run.count) (n * run.idle) ∧
        ∃ e', run.launches (emulator host spec) n e = .error (.fault .overflow) e' := by
  have hsweep := sweep_launch_cases h hrun.bases_eq hrun.ne hrun.cover_eq hrun.check_eq rfl
    hrun.holdsA hrun.holdsB hstats n 0
  unfold launches
  rw [hrun.kernel_eq]
  rcases hsweep with ⟨hroom, e', hok⟩ | ⟨hroom, e', hstop⟩
  · exact Or.inl ⟨hroom, e', bind_of_ok hok⟩
  · exact Or.inr ⟨hroom, e', bind_of_error hstop⟩

theorem DeviceRun.Bound.compareLaunch_eq {run : DeviceRun α} {e : Emulator α}
    (hrun : run.Bound spec p settings a b bases e) (h : p.Computes a b.size run.count)
    (hreserve : host.reserve (Scalar.width α) b.size = .ok ())
    (hroom : e.stats.Room 1 run.count run.idle) :
    compareLaunch (emulator host spec) host p a b run e =
      match p.mismatches (p.updated a run.count b) (p.updated a run.count b) run.count with
      | .ok found => .ok { run with mismatches := some found }
          (e.launched run.batch.b (p.updated a run.count b) run.count run.idle)
      | .error stop =>
          .error stop (e.launched run.batch.b (p.updated a run.count b) run.count run.idle) := by
  have hlaunch : (emulator host spec).launch run.kernel run.geometry e =
      .ok () (e.launched run.batch.b (p.updated a run.count b) run.count run.idle) := by
    rw [hrun.kernel_eq]
    exact h.launch_eq_ok rfl hrun.bases_eq hrun.ne hrun.holdsA hrun.holdsB hrun.cover_eq
      hrun.check_eq hroom
  have hdownload : run.batch.download (emulator host spec) b.size
      (e.launched run.batch.b (p.updated a run.count b) run.count run.idle) =
        .ok (p.updated a run.count b)
          (e.launched run.batch.b (p.updated a run.count b) run.count run.idle) := by
    have hget := Emulator.downloadBatch_eq_ok host spec
      (hrun.holdsB.launched (p.updated a run.count b) run.count run.idle)
      (hrun.sizeB.trans (p.size_updated a run.count b).symm)
    rwa [p.size_updated] at hget
  -- The reference computes what was downloaded, so the comparison is of two equal buffers.
  rw [compareLaunch, bind_of_ok hlaunch]
  change ((liftM (host.reserve (Scalar.width α) b.size) : DeviceM (Emulator α) Unit) >>= _)
    (e.launched run.batch.b (p.updated a run.count b) run.count run.idle) = _
  rw [lift_bind_of_ok hreserve, bind_of_ok hdownload,
    device_bind_of_fault_ok (BufferM.result_eq_ok (h.reference_eq_ok b rfl))]
  cases p.mismatches (p.updated a run.count b) (p.updated a run.count b) run.count <;> rfl

theorem DeviceRun.Bound.compareLaunch_eq_overflow {run : DeviceRun α} {e : Emulator α}
    (hrun : run.Bound spec p settings a b bases e) (h : p.Computes a b.size run.count)
    (hroom : ¬ e.stats.Room 1 run.count run.idle) :
    ∃ e', compareLaunch (emulator host spec) host p a b run e = .error (.fault .overflow) e' := by
  have hlaunch := h.launch_eq_overflow rfl hrun.bases_eq hrun.ne hrun.holdsA hrun.holdsB
    hrun.cover_eq hrun.check_eq hroom
  rw [compareLaunch, hrun.kernel_eq]
  exact ⟨_, bind_of_error hlaunch⟩

theorem bind_eq_compareLaunch (hvalidates : settings.validates = true)
    (hbases : p.bases settings.addressing count = .ok bases)
    (hcover : Geometry.cover count settings.blockSize = .ok g) (batch : DeviceBatch)
    (e : Emulator α) :
    bind (emulator host spec) host p settings count a b batch e =
      compareLaunch (emulator host spec) host p a b
        ⟨batch, .update ⟨p.update, bases, count⟩ batch.a batch.b, g, count, none⟩ e := by
  rw [bind, lift_bind_of_ok hbases]
  change ((liftM (Geometry.cover count settings.blockSize) : DeviceM (Emulator α) Geometry) >>= _)
    e = _
  rw [device_bind_of_error_ok hcover, if_pos hvalidates]

theorem Seeded.prepareDevice_eq_bind (h : Seeded host p settings count a b)
    (hvalid : p.validate = .ok ()) {batch : DeviceBatch} {e e₁ : Emulator α}
    (hupload : DeviceBatch.upload (emulator host spec) a b e = .ok batch e₁) :
    prepareDevice (emulator host spec) host p settings e =
      (bind (emulator host spec) host p settings count a b batch).orUndo
        (batch.free (emulator host spec)) e₁ := by
  rw [prepareDevice, lift_bind_of_ok hvalid, lift_bind_of_ok h.plan_eq,
    lift_bind_of_ok h.operands_eq]
  exact bind_of_ok hupload

theorem Seeded.prepareDevice_eq_error (h : Seeded host p settings count a b)
    (hvalid : p.validate = .ok ()) {stop : Stop} {e e₁ : Emulator α}
    (hupload : DeviceBatch.upload (emulator host spec) a b e = .error stop e₁) :
    prepareDevice (emulator host spec) host p settings e = .error stop e₁ := by
  rw [prepareDevice, lift_bind_of_ok hvalid, lift_bind_of_ok h.plan_eq,
    lift_bind_of_ok h.operands_eq]
  exact bind_of_error hupload

theorem prepareDevice_eq_refused {error : Error} (h : StorageRefused host p settings error)
    (hvalid : p.validate = .ok ()) (e : Emulator α) :
    prepareDevice (emulator host spec) host p settings e = .error (.refused error) e := by
  rw [prepareDevice, lift_bind_of_ok hvalid]
  rcases h with hplan | ⟨count, hplan, hops⟩
  · rw [lift_bind_of_error hplan]
  · rw [lift_bind_of_ok hplan, lift_bind_of_error hops]

def BindingRefused (spec : EmulatorSpec) (p : Problem α) (settings : Settings) (count : ℕ)
    (error : Error) : Prop :=
  p.bases settings.addressing count = .error (.refused error) ∨
    Geometry.cover count settings.blockSize = .error error ∨
    ∃ g, Geometry.cover count settings.blockSize = .ok g ∧ g.check spec.maxGroup = .error error

/-- A step of the run refuses: sizing or seeding, the upload, the tables or the geometry. -/
def DeviceRefused (host : Host) (spec : EmulatorSpec) (p : Problem α) (settings : Settings)
    (e : Emulator α) (error : Error) : Prop :=
  StorageRefused host p settings error ∨
    ∃ count a b, plan p settings = .ok count ∧ operands host p count = .ok (a, b) ∧
      ((∃ e', DeviceBatch.upload (emulator host spec) a b e = .error (.refused error) e') ∨
        BindingRefused spec p settings count error)

def CountersOverflow (settings : Settings) (count : ℕ) (g : Geometry) (stats : LaunchStats) :
    Prop :=
  ¬ stats.Room (settings.repeats + 1) ((settings.repeats + 1) * count)
    ((settings.repeats + 1) * (g.lanes - count))

/-- How a run with uploaded operands goes on: it stops at a first launch that cannot be counted
or in the comparison, or its kernel is bound and the first launch is counted. -/
def BindingEnds (spec : EmulatorSpec) (p : Problem α) (settings : Settings) (count : ℕ)
    (a b : Array α) (stats : LaunchStats) (g : Geometry)
    (result : EStateM.Result Stop (Emulator α) (DeviceRun α)) : Prop :=
  (¬ stats.Room 1 count (g.lanes - count) ∧
      ∃ e', result = .error (.fault .overflow) e') ∨
    stats.Room 1 count (g.lanes - count) ∧
      match p.mismatches (p.updated a count b) (p.updated a count b) count with
      | .error stop => ∃ e', result = .error stop e'
      | .ok found => ∃ run e' bases, result = .ok run e' ∧
          run.Bound spec p settings a (p.updated a count b) bases e' ∧
          run.count = count ∧ run.geometry = g ∧ run.mismatches = some found ∧
          e'.stats = stats.plus 1 count (g.lanes - count)

omit [Scalar α] in
theorem not_bindingRefused
    (hbases : p.bases settings.addressing count = .ok bases)
    (hcover : Geometry.cover count settings.blockSize = .ok g)
    (hcheck : g.check spec.maxGroup = .ok ()) (error : Error) :
    ¬ BindingRefused spec p settings count error := by
  rintro (h | h | ⟨g', h, h'⟩)
  · cases hbases.symm.trans h
  · cases hcover.symm.trans h
  · cases hcover.symm.trans h
    cases hcheck.symm.trans h'

theorem bind_cases (h : p.Computes a b.size count)
    (hreserve : host.reserve (Scalar.width α) b.size = .ok ())
    (hvalidates : settings.validates = true) (batch : DeviceBatch) (hne : batch.a ≠ batch.b)
    (hsize : batch.sizeB = b.size) {e : Emulator α} (hA : e.Holds batch.a a)
    (hB : e.Holds batch.b b) :
    (∃ error, BindingRefused spec p settings count error ∧
        (∀ x y, error ≠ .dimensionMismatch x y) ∧
        bind (emulator host spec) host p settings count a b batch e = .error (.refused error) e) ∨
      ∃ g, Geometry.cover count settings.blockSize = .ok g ∧
        (∀ error, ¬ BindingRefused spec p settings count error) ∧
        BindingEnds spec p settings count a b e.stats g
          (bind (emulator host spec) host p settings count a b batch e) := by
  rcases h.bases_cases settings.addressing with ⟨base, hbases⟩ | ⟨bases, hbases⟩
  · exact Or.inl ⟨_, Or.inl hbases, fun _ _ => nofun, lift_bind_of_error hbases _ e⟩
  · rcases Geometry.cover_cases count settings.blockSize with hcover | ⟨g, hcover⟩
    · refine Or.inl ⟨_, Or.inr (Or.inl hcover), fun _ _ => nofun, ?_⟩
      rw [bind, lift_bind_of_ok hbases, hcover]
      rfl
    · rw [bind_eq_compareLaunch hvalidates hbases hcover]
      rcases g.check_cases spec.maxGroup with ⟨reason, hcheck⟩ | hcheck
      · exact Or.inl ⟨_, Or.inr (Or.inr ⟨g, hcover, hcheck⟩), fun _ _ => nofun,
          bind_of_error (Emulator.launch_eq_refused hcheck e)⟩
      · have hrun : DeviceRun.Bound
            ⟨batch, .update ⟨p.update, bases, count⟩ batch.a batch.b, g, count, none⟩
            spec p settings a b bases e :=
          ⟨hbases, rfl, hcover, hcheck, hne, hsize, hA, hB⟩
        refine Or.inr ⟨g, hcover, not_bindingRefused hbases hcover hcheck, ?_⟩
        by_cases hroom : e.stats.Room 1 count (g.lanes - count)
        · refine Or.inr ⟨hroom, ?_⟩
          rw [hrun.compareLaunch_eq h hreserve hroom]
          simp only
          cases p.mismatches (p.updated a count b) (p.updated a count b) count with
          | error stop => exact ⟨_, rfl⟩
          | ok found =>
            exact ⟨_, _, bases, rfl, ⟨hbases, rfl, hcover, hcheck, hne,
              hsize.trans (p.size_updated a count b).symm, hA.launched_of_ne hne.symm ..,
              hB.launched ..⟩, rfl, rfl, rfl, rfl⟩
        · exact Or.inl ⟨hroom, hrun.compareLaunch_eq_overflow h hroom⟩

theorem Seeded.not_deviceRefused (h : Seeded host p settings count a b) {batch : DeviceBatch}
    {e e₁ : Emulator α} (hupload : DeviceBatch.upload (emulator host spec) a b e = .ok batch e₁)
    (hbinding : ∀ error, ¬ BindingRefused spec p settings count error) (error : Error) :
    ¬ DeviceRefused host spec p settings e error := by
  rintro (hstorage | ⟨count', a', b', hplan, hops, hrest⟩)
  · exact h.not_storageRefused error hstorage
  · cases h.plan_eq.symm.trans hplan
    cases h.operands_eq.symm.trans hops
    rcases hrest with ⟨e', hrefused⟩ | hrefused
    · cases hupload.symm.trans hrefused
    · exact hbinding error hrefused

theorem Seeded.upload_cases (h : Seeded host p settings count a b) (hslotA : 0 < p.slotA)
    (hslotB : 0 < p.slotB) {e : Emulator α} (hcap : e.ledger.capacity < Word.bound) :
    (∃ bytes reason e', DeviceBatch.upload (emulator host spec) a b e =
      .error (.refused (.resourceExhausted bytes reason)) e') ∨
    DeviceBatch.upload (emulator host spec) a b e =
      .ok ⟨e.buffers.size, e.buffers.size + 1, a.size, b.size⟩ (e.withBatch a b) := by
  have hword : Word.maxBytes < Word.bound := by decide
  have hposA : 0 < a.size * Scalar.width α := by
    rw [h.sizeA]
    exact Nat.mul_pos (Nat.mul_pos hslotA h.count_pos) Scalar.width_pos
  have hposB : 0 < b.size * Scalar.width α := by
    rw [h.sizeB]
    exact Nat.mul_pos (Nat.mul_pos hslotB h.count_pos) Scalar.width_pos
  have hltA : a.size * Scalar.width α < Word.bound := by
    rw [h.sizeA]; exact h.bytesA_le.trans_lt hword
  have hltB : b.size * Scalar.width α < Word.bound := by
    rw [h.sizeB]; exact h.bytesB_le.trans_lt hword
  rcases Emulator.uploadBatch_cases host spec a b e with
    ⟨hupload, -⟩ | ⟨stop, e', hupload, -, hshort⟩
  · exact Or.inr hupload
  · have hrefused : ∃ bytes reason, stop = .refused (.resourceExhausted bytes reason) := by
      rcases hshort with hshort | hshort
      · exact hshort.refused hposA hltA hcap
      · exact hshort.refused hposB hltB hcap
    obtain ⟨bytes, reason, rfl⟩ := hrefused
    exact Or.inl ⟨bytes, reason, e', hupload⟩

section Outcome

variable {e e₁ e₂ : Emulator α} {stop : Stop} {run : DeviceRun α} (elapsed : Float)

theorem outcome_of_prepare_error
    (h : prepareDevice (emulator host spec) host p settings e = .error stop e₁) :
    (runOnDevice (emulator host spec) host p settings elapsed).outcome e = .error stop :=
  DeviceM.outcome_of_error (bind_of_error h)

variable (h : prepareDevice (emulator host spec) host p settings e = .ok run e₁)

include h

theorem outcome_of_launches_error
    (hl : run.launches (emulator host spec) settings.repeats e₁ = .error stop e₂) :
    (runOnDevice (emulator host spec) host p settings elapsed).outcome e = .error stop :=
  DeviceM.outcome_of_error
    ((bind_of_ok h).trans (DeviceM.andFinally_of_error (bind_of_error hl) _))

theorem outcome_of_launches_ok
    (hl : run.launches (emulator host spec) settings.repeats e₁ = .ok () e₂) :
    (runOnDevice (emulator host spec) host p settings elapsed).outcome e =
      liftM (figures .device (some DeviceKind.emulated.text) p settings run.count elapsed
        run.mismatches) := by
  have htimed : ((run.launches (emulator host spec) settings.repeats >>= fun _ =>
      liftM (figures .device (some DeviceKind.emulated.text) p settings run.count elapsed
        run.mismatches)) : DeviceM (Emulator α) Result) e₁ =
      (liftM (figures .device (some DeviceKind.emulated.text) p settings run.count elapsed
        run.mismatches) : DeviceM (Emulator α) Result) e₂ := bind_of_ok hl
  cases hf : figures .device (some DeviceKind.emulated.text) p settings run.count elapsed
      run.mismatches with
  | ok r =>
    have hend := htimed.trans (show _ = EStateM.Result.ok r e₂ by rw [hf]; rfl)
    exact DeviceM.outcome_of_ok ((bind_of_ok h).trans (DeviceM.andFinally_of_ok hend _))
  | error fault =>
    have hend := htimed.trans (show _ = EStateM.Result.error (.fault fault) e₂ by rw [hf]; rfl)
    exact DeviceM.outcome_of_error ((bind_of_ok h).trans (DeviceM.andFinally_of_error hend _))

end Outcome

theorem DeviceRun.Bound.outcome_cases {run : DeviceRun α} {e e₁ : Emulator α}
    (hrun : run.Bound spec p settings a (p.updated a run.count b) bases e₁) (elapsed : Float)
    (hprepared : prepareDevice (emulator host spec) host p settings e = .ok run e₁)
    (h : p.Computes a b.size run.count) (hroom : e.stats.Room 1 run.count run.idle)
    (hstats : e₁.stats = e.stats.plus 1 run.count run.idle) :
    (CountersOverflow settings run.count run.geometry e.stats ∧
      (runOnDevice (emulator host spec) host p settings elapsed).outcome e =
        .error (.fault .overflow)) ∨
    ¬ CountersOverflow settings run.count run.geometry e.stats ∧
      (runOnDevice (emulator host spec) host p settings elapsed).outcome e =
        liftM (figures .device (some DeviceKind.emulated.text) p settings run.count elapsed
          run.mismatches) := by
  have hready : e₁.stats.Room 0 0 0 := by
    rw [hstats]
    exact LaunchStats.room_plus.mpr hroom
  have hsize := p.size_updated a run.count b
  rcases hrun.launches_cases (hsize.symm ▸ h) hready settings.repeats with
    ⟨hmore, e₂, hl⟩ | ⟨hmore, e₂, hl⟩
  · rw [hstats] at hmore
    exact Or.inr ⟨fun hfull => hfull (LaunchStats.room_succ.mpr hmore),
      outcome_of_launches_ok elapsed hprepared hl⟩
  · rw [hstats] at hmore
    exact Or.inl ⟨fun hmany => hmore (LaunchStats.room_succ.mp hmany),
      outcome_of_launches_error elapsed hprepared hl⟩

/-- Past sizing and seeding, a run that compares is refused by a later step, or it ends in its
figures unless the comparison stops or the counters overflow. -/
theorem Seeded.runOnDevice_cases (h : Seeded host p settings count a b)
    (hcomputes : p.Computes a b.size count) (hslotA : 0 < p.slotA) (hslotB : 0 < p.slotB)
    (hvalid : p.validate = .ok ()) (hvalidates : settings.validates = true) {e : Emulator α}
    (hcap : e.ledger.capacity < Word.bound) (elapsed : Float) :
    (∃ error, DeviceRefused host spec p settings e error ∧
        (∀ x y, error ≠ .dimensionMismatch x y) ∧
        (runOnDevice (emulator host spec) host p settings elapsed).outcome e =
          .error (.refused error)) ∨
      ∃ g, Geometry.cover count settings.blockSize = .ok g ∧
        (∀ error, ¬ DeviceRefused host spec p settings e error) ∧
        match p.mismatches (p.updated a count b) (p.updated a count b) count with
        | .error stop =>
          (runOnDevice (emulator host spec) host p settings elapsed).outcome e = .error stop ∨
          CountersOverflow settings count g e.stats ∧
            (runOnDevice (emulator host spec) host p settings elapsed).outcome e =
              .error (.fault .overflow)
        | .ok found =>
          (CountersOverflow settings count g e.stats ∧
            (runOnDevice (emulator host spec) host p settings elapsed).outcome e =
              .error (.fault .overflow)) ∨
          ¬ CountersOverflow settings count g e.stats ∧
            (runOnDevice (emulator host spec) host p settings elapsed).outcome e =
              liftM (figures .device (some DeviceKind.emulated.text) p settings count elapsed
                (some found)) := by
  rcases h.upload_cases hslotA hslotB hcap with ⟨bytes, reason, e₁, hupload⟩ | hupload
  · refine Or.inl ⟨_, Or.inr ⟨count, a, b, h.plan_eq, h.operands_eq, Or.inl ⟨e₁, hupload⟩⟩,
      fun _ _ => nofun, outcome_of_prepare_error elapsed (h.prepareDevice_eq_error hvalid hupload)⟩
  · have hprepare := h.prepareDevice_eq_bind hvalid hupload
    have hne : e.buffers.size ≠ e.buffers.size + 1 := by omega
    rcases bind_cases hcomputes (h.sizeB ▸ h.reserve_eq) hvalidates
      ⟨e.buffers.size, e.buffers.size + 1, a.size, b.size⟩ hne rfl
      (e.withBatch_holdsA a b) (e.withBatch_holdsB a b) with
      ⟨error, hrefused, hkind, hbind⟩ | ⟨g, hcover, hbinding, hends⟩
    · rw [DeviceM.orUndo_of_error hbind] at hprepare
      exact Or.inl ⟨error, Or.inr ⟨count, a, b, h.plan_eq, h.operands_eq, Or.inr hrefused⟩, hkind,
        outcome_of_prepare_error elapsed hprepare⟩
    · refine Or.inr ⟨g, hcover, h.not_deviceRefused hupload hbinding, ?_⟩
      rcases hends with ⟨hroom, e₂, hbind⟩ | ⟨hroom, hends⟩
      · have hout := outcome_of_prepare_error elapsed
          (hprepare.trans (DeviceM.orUndo_of_error hbind _))
        have hfull : CountersOverflow settings count g e.stats := fun hmore => hroom hmore.of_succ
        cases p.mismatches (p.updated a count b) (p.updated a count b) count with
        | error stop => exact Or.inr ⟨hfull, hout⟩
        | ok found => exact Or.inl ⟨hfull, hout⟩
      · cases hm : p.mismatches (p.updated a count b) (p.updated a count b) count with
        | error stop =>
          rw [hm] at hends
          obtain ⟨e₂, hbind⟩ := hends
          exact Or.inl (outcome_of_prepare_error elapsed
            (hprepare.trans (DeviceM.orUndo_of_error hbind _)))
        | ok found =>
          rw [hm] at hends
          obtain ⟨run, e₂, bases, hbind, hrun, rfl, rfl, hfound, hstats'⟩ := hends
          have hprepared := hprepare.trans (DeviceM.orUndo_of_ok hbind _)
          have hout := hrun.outcome_cases elapsed hprepared hcomputes hroom hstats'
          rw [hfound] at hout
          exact hout

end Accumulate

end BatchAxpby
