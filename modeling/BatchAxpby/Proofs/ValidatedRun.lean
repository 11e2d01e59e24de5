import BatchAxpby.Proofs.Comparison
import BatchAxpby.Proofs.DeviceRun
import BatchAxpby.Proofs.HostRun
import BatchAxpby.Proofs.Numbers

/-! # Validated runs

A validated run compares its first pass with the reference. Both leave the same buffer, and every
cell of it equals itself, so the comparison finds no slot that differs. It does not get that far
for one leading dimension: the distance of two columns is a signed word, and `2 ^ 63` has none.
-/

namespace BatchAxpby

variable {α : Type} [Scalar α]

theorem Random.exists_eq_draw {seed : UInt64} {len k : ℕ} {x : α}
    (h : (draws seed len)[k]? = some x) : ∃ word i, x = Scalar.draw word i := by
  obtain ⟨hk, rfl⟩ := Array.getElem?_eq_some_iff.mp h
  exact ⟨_, _, Array.getElem_ofFn ..⟩

namespace Problem

variable {p : Problem α} {count : ℕ}

theorem Sound.updated_cases (hp : p.Sound) {a b : Array α} {k : ℕ} {z : α}
    (h : (p.updated a count b)[k]? = some z) : ∃ y, b[k]? = some y ∧
      (z = y ∨ ∃ (j : ℕ) (x : α), a[j]? = some x ∧
        z = Scalar.axpby p.update.alpha x p.update.beta y) := by
  by_cases htouched : ∃ i < count, ∃ t ∈ p.slotTouches i, t.target = k
  · obtain ⟨i, hi, t, ht, rfl⟩ := htouched
    rw [hp.getElem?_updated hi ht, Option.map_eq_some_iff] at h
    obtain ⟨y, hy, rfl⟩ := h
    refine ⟨y, hy, ?_⟩
    cases hx : a[t.source]? with
    | none =>
      refine Or.inl ?_
      rw [Update.newValue, hx]
    | some x =>
      refine Or.inr ⟨t.source, x, hx, ?_⟩
      rw [Update.newValue_of_getElem? _ _ hx]
  · have hkeep : ∀ i < count, ∀ t ∈ p.slotTouches i, t.target ≠ k := by
      intro i hi t ht heq
      exact htouched ⟨i, hi, t, ht, heq⟩
    rw [getElem?_updated_of_forall_ne hkeep] at h
    exact ⟨z, h, Or.inl rfl⟩

theorem Sound.mismatches_self (hp : p.Sound) {b : Array α} (hsize : b.size = p.slotB * count)
    (hbytes : p.slotB * count * Scalar.width α ≤ Word.maxBytes)
    (hne : p.update.ldb ≠ Word.maxBytes + 1)
    (hself : ∀ (k : ℕ) (z : α), b[k]? = some z → (z == z) = true) :
    p.mismatches b b count = .ok #[] := by
  have hslots : ∀ slot ∈ List.range count,
      ¬ (!(p.slotCells b slot == p.slotCells b slot)) = true := by
    intro slot hslot
    have hcells : (p.slotCells b slot == p.slotCells b slot) = true := by
      rw [slotCells_beq_iff hsize hsize (List.mem_range.mp hslot)]
      intro i _
      cases hz : b[slot * p.slotB + i]? with
      | none => rfl
      | some z => exact hself _ z hz
    rw [hcells]
    exact Bool.false_ne_true
  rw [mismatches_eq_ok hp hsize hsize hbytes hne, List.filter_eq_nil_iff.mpr hslots]

end Problem

namespace Accumulate

variable {host : Host} {p : Problem α} {settings : Settings} {count : ℕ} {a b : Array α}

section Comparison

variable [LawfulScalar α] (h : Seeded host p settings count a b) (hp : p.Sound)
  (halpha : Scalar.isFinite p.update.alpha = true) (hbeta : Scalar.isFinite p.update.beta = true)

include h hp halpha hbeta

theorem Seeded.updated_beq_self {k : ℕ} {z : α} (hz : (p.updated a count b)[k]? = some z) :
    (z == z) = true := by
  obtain ⟨y, hy, hcell⟩ := hp.updated_cases hz
  rw [h.b_eq] at hy
  obtain ⟨word, i, rfl⟩ := Random.exists_eq_draw hy
  rcases hcell with rfl | ⟨j, x, hx, rfl⟩
  · exact LawfulScalar.draw_beq_self word i
  · rw [h.a_eq] at hx
    obtain ⟨word', i', rfl⟩ := Random.exists_eq_draw hx
    exact LawfulScalar.axpby_beq_self _ _ halpha hbeta ..

/-- The comparison of a seeded run finds nothing, or its views have no column distance. -/
theorem Seeded.mismatches_cases :
    (p.update.ldb = Word.maxBytes + 1 ∧
      p.mismatches (p.updated a count b) (p.updated a count b) count = .error (.fault .overflow)) ∨
    (p.update.ldb ≠ Word.maxBytes + 1 ∧
      p.mismatches (p.updated a count b) (p.updated a count b) count = .ok #[]) := by
  have hsize : (p.updated a count b).size = p.slotB * count :=
    (p.size_updated a count b).trans h.sizeB
  by_cases hld : p.update.ldb = Word.maxBytes + 1
  · exact Or.inl ⟨hld, p.mismatches_eq_overflow hp hsize hsize h.bytesB_le h.count_pos hld⟩
  · exact Or.inr ⟨hld, hp.mismatches_self hsize h.bytesB_le hld fun _ _ hz =>
      h.updated_beq_self hp halpha hbeta hz⟩

end Comparison

/-- How a validated run ends: a step refuses for a reason other than a mismatch of dimensions, a
word overflows, or the run reports that no slot differs. -/
inductive Settles (Refused : Error → Prop) (Overflows : Prop) : Outcome Result → Prop
  | refused {error : Error} : Refused error → (∀ x y, error ≠ .dimensionMismatch x y) →
      Settles Refused Overflows (.error (.refused error))
  | overflow : Overflows → Settles Refused Overflows (.error (.fault .overflow))
  | clean {r : Result} : ¬ Overflows → r.mismatches = some #[] → Settles Refused Overflows (.ok r)

namespace Settles

variable {Refused : Error → Prop} {Overflows : Prop} {outcome : Outcome Result}
  (h : Settles Refused Overflows outcome) (hrefused : ∀ error, ¬ Refused error)

include h hrefused

theorem clean_of_not (ho : ¬ Overflows) : ∃ r, outcome = .ok r ∧ r.mismatches = some #[] := by
  cases h with
  | refused hr _ => exact absurd hr (hrefused _)
  | overflow h => exact absurd h ho
  | clean _ hr => exact ⟨_, rfl, hr⟩

theorem overflow_of (ho : Overflows) : outcome = .error (.fault .overflow) := by
  cases h with
  | refused hr _ => exact absurd hr (hrefused _)
  | overflow _ => rfl
  | clean hno _ => exact absurd ho hno

end Settles

theorem figures_settles {Refused : Error → Prop} {Overflows : Prop}
    (h : Overflows ↔ FiguresOverflow p) (surface : Surface) (device : Option String)
    (elapsed : Float) : Settles Refused Overflows
      (liftM (figures surface device p settings count elapsed (some #[])) : Outcome Result) := by
  by_cases hf : FiguresOverflow p
  · rw [figures_eq_overflow hf]
    exact .overflow (h.mpr hf)
  · obtain ⟨r, hr, hfound⟩ := figures_eq_ok hf surface device elapsed (some #[])
    rw [hr]
    exact .clean (mt h.mp hf) hfound

section Settles

variable [LawfulScalar α] (h : Seeded host p settings count a b) (hp : p.Sound)
  (halpha : Scalar.isFinite p.update.alpha = true) (hbeta : Scalar.isFinite p.update.beta = true)
  (hvalid : p.validate = .ok ()) (hvalidates : settings.validates = true) (elapsed : Float)

include h hp halpha hbeta hvalid hvalidates

theorem Seeded.runOnHost_settles {surface : Surface} (hsurface : surface ≠ .device) :
    Settles (StorageRefused host p settings)
      (p.update.ldb = Word.maxBytes + 1 ∨ FiguresOverflow p)
      (runOnHost host surface p settings elapsed) := by
  rw [h.runOnHost_eq hp hvalid hsurface, if_pos hvalidates]
  rcases h.mismatches_cases hp halpha hbeta with ⟨hld, hm⟩ | ⟨hne, hm⟩
  · rw [hm]
    exact .overflow (Or.inl hld)
  · rw [hm]
    exact figures_settles (or_iff_right hne) surface none elapsed

theorem Seeded.runOnDevice_settles (spec : EmulatorSpec) {e : Emulator α}
    (hcap : e.ledger.capacity < Word.bound) :
    Settles (DeviceRefused host spec p settings e)
      (p.update.ldb = Word.maxBytes + 1 ∨ FiguresOverflow p ∨
        ∃ count g, plan p settings = .ok count ∧
          Geometry.cover count settings.blockSize = .ok g ∧
          CountersOverflow settings count g e.stats)
      ((runOnDevice (emulator host spec) host p settings elapsed).outcome e) := by
  rcases h.runOnDevice_cases (h.isBatch hp).computes hp.slotA_pos hp.slotB_pos hvalid hvalidates
    hcap elapsed with
    ⟨error, hrefused, hkind, hout⟩ | ⟨g, hcover, -, hout⟩
  · rw [hout]
    exact .refused hrefused hkind
  · rcases h.mismatches_cases hp halpha hbeta with ⟨hld, hm⟩ | ⟨hne, hm⟩
    · rw [hm] at hout
      rw [hout.elim id And.right]
      exact .overflow (Or.inl hld)
    · rw [hm] at hout
      rcases hout with ⟨hfull, hout⟩ | ⟨hroom, hout⟩
      · rw [hout]
        exact .overflow (Or.inr (Or.inr ⟨count, g, h.plan_eq, hcover, hfull⟩))
      · have hcount : ¬ ∃ count g, plan p settings = .ok count ∧
            Geometry.cover count settings.blockSize = .ok g ∧
            CountersOverflow settings count g e.stats := by
          rintro ⟨count', g', hplan, hcover', hfull⟩
          cases h.plan_eq.symm.trans hplan
          cases hcover.symm.trans hcover'
          exact hroom hfull
        rw [hout]
        exact figures_settles (by rw [or_iff_right hne, or_iff_left hcount]) ..

end Settles

/-- A validated run on the host overflows if its views have no column distance or the bytes of a
block are too many, a run on the emulator also if its launches are too many to count. Every other
run that sizing, allocation, the tables and the geometry admit reports that no slot differs. -/
theorem validated_run_settles [LawfulScalar α] (p : Problem α) (settings : Settings)
    (hr : 0 < p.update.rows) (hc : 0 < p.update.cols)
    (halpha : Scalar.isFinite p.update.alpha = true)
    (hbeta : Scalar.isFinite p.update.beta = true) (hvalid : p.validate = .ok ())
    (hvalidates : settings.validates = true)
    (hsizing : ∀ fault, plan p settings ≠ .error (.fault fault)) (host : Host) (elapsed : Float) :
    (∀ surface ≠ Surface.device,
      Settles (StorageRefused host p settings)
        (p.update.ldb = Word.maxBytes + 1 ∨ FiguresOverflow p)
        (runOnHost host surface p settings elapsed)) ∧
    ∀ (spec : EmulatorSpec) (e : Emulator α), e.ledger.capacity < Word.bound →
      Settles (DeviceRefused host spec p settings e)
        (p.update.ldb = Word.maxBytes + 1 ∨ FiguresOverflow p ∨
          ∃ count g, plan p settings = .ok count ∧
            Geometry.cover count settings.blockSize = .ok g ∧
            CountersOverflow settings count g e.stats)
        ((runOnDevice (emulator host spec) host p settings elapsed).outcome e) := by
  have hp := Problem.sound_of_validate hr hc hvalid
  rcases seeded_or_refused hsizing with ⟨error, hrefused, hkind⟩ | ⟨count, a, b, h⟩
  · constructor
    · intro surface hsurface
      rw [runOnHost_eq_refused hrefused hvalid hsurface]
      exact .refused hrefused hkind
    · intro spec e _
      rw [outcome_of_prepare_error elapsed (prepareDevice_eq_refused hrefused hvalid e)]
      exact .refused (Or.inl hrefused) hkind
  · constructor
    · intro surface hsurface
      exact h.runOnHost_settles hp halpha hbeta hvalid hvalidates elapsed hsurface
    · intro spec e hcap
      exact h.runOnDevice_settles hp halpha hbeta hvalid hvalidates elapsed spec hcap

def column (ldb : ℕ) : Problem Float32 where
  update :=
    { rows := 2, cols := 1, alpha := 2, beta := 0.5, lda := 3, ldb,
      layoutA := .plain, layoutB := .plain }
  slotA := 4
  slotB := 3
  firstA := 1
  firstB := 1

def smallRun : Settings where
  gigabytes := 64 / 1073741824
  repeats := 2
  addressing := .indirect
  blockSize := 4
  validates := true

theorem plan_column : ∀ ldb ∈ [2, Word.maxBytes + 1], plan (column ldb) smallRun = .ok 2 := by
  decide

theorem not_storageRefused_column : ∀ ldb ∈ [2, Word.maxBytes + 1], ∀ error,
    ¬ StorageRefused Host.standard (column ldb) smallRun error := by
  rintro ldb hldb error (h | ⟨count, h, hops⟩)
  · cases (plan_column ldb hldb).symm.trans h
  · cases (plan_column ldb hldb).symm.trans h
    exact nomatch hops

theorem not_deviceRefused_column (error : Error) :
    ¬ DeviceRefused Host.standard {} (column 2) smallRun (Emulator.start {}) error := by
  rintro (h | ⟨count, a, b, h, hops, hrest⟩)
  · exact not_storageRefused_column 2 (by decide) error h
  · cases (plan_column 2 (by decide)).symm.trans h
    rcases hrest with ⟨e', hupload⟩ | hbases | hcover | ⟨g, hcover, hcheck⟩
    · cases hops
      exact nomatch hupload
    · exact nomatch hbases
    · exact nomatch hcover
    · cases hcover
      exact nomatch hcheck

/-- Runs over two columns are clean on the host and on a new device, unless the column distance
overflows. -/
theorem column_runs_settle :
    (∃ r, runOnHost Host.standard .parallel (column 2) smallRun 0 = .ok r ∧
      r.mismatches = some #[]) ∧
    (∃ r, (runOnDevice (emulator Host.standard {}) Host.standard (column 2) smallRun 0).outcome
      (Emulator.start {}) = .ok r ∧ r.mismatches = some #[]) ∧
    runOnHost Host.standard .parallel (column (Word.maxBytes + 1)) smallRun 0 =
      .error (.fault .overflow) := by
  have hsizing : ∀ ldb ∈ [2, Word.maxBytes + 1], ∀ fault,
      plan (column ldb) smallRun ≠ .error (.fault fault) := by
    intro ldb hldb fault h
    cases (plan_column ldb hldb).symm.trans h
  have hfigures : ¬ FiguresOverflow (column 2) := show ¬ Word.bound ≤ 2 * 1 * 3 * 4 by decide
  obtain ⟨hhost, hdevice⟩ := validated_run_settles (column 2) smallRun (by decide) (by decide)
    (by decide) (by decide) (by decide) rfl (hsizing 2 (by decide)) Host.standard 0
  obtain ⟨hfar, -⟩ := validated_run_settles (column (Word.maxBytes + 1)) smallRun (by decide)
    (by decide) (by decide) (by decide) (by decide) rfl (hsizing _ (by decide)) Host.standard 0
  refine ⟨(hhost .parallel nofun).clean_of_not (not_storageRefused_column 2 (by decide)) ?_,
    (hdevice {} (Emulator.start {}) (by decide)).clean_of_not not_deviceRefused_column ?_,
    (hfar .parallel nofun).overflow_of (not_storageRefused_column _ (by decide)) (Or.inl rfl)⟩
  · rintro (h | h)
    · exact absurd h (by decide)
    · exact hfigures h
  · rintro (h | h | ⟨count, g, h, hcover, hfull⟩)
    · exact absurd h (by decide)
    · exact hfigures h
    · cases (plan_column 2 (by decide)).symm.trans h
      cases hcover
      exact hfull ⟨by decide, by decide, by decide⟩

end Accumulate

end BatchAxpby
