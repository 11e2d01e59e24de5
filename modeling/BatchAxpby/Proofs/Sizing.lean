import BatchAxpby.Bench.Accumulate
import BatchAxpby.Proofs.Slots

/-! # Sizes of a run

A run takes as many elements as its budget holds and seeds both operands. Both steps can refuse,
and each for one reason only. Past them the buffers hold a batch, all sizes fit a word, and all
bytes can be addressed. The figures at the end overflow only for blocks whose bytes, counted
three times, leave the word range.
-/

namespace BatchAxpby

theorem Word.mul_cases (x y : ℕ) :
    mul x y = .ok (x * y) ∧ x * y < bound ∨ mul x y = .error .overflow := by
  by_cases h : x * y < bound
  · exact Or.inl ⟨if_pos h, h⟩
  · exact Or.inr (if_neg h)

theorem Update.cells_eq_ok {α : Type} {u : Update α} (h : u.rows * u.cols * 3 < Word.bound) :
    u.cells = .ok (u.rows * u.cols) :=
  Word.mul_eq_ok_iff.mpr ⟨by omega, rfl⟩

theorem Flops.perCell_le (f : Flops) : f.perCell ≤ 3 := by
  obtain ⟨scaleA, scaleB, add⟩ := f
  revert scaleA scaleB add
  decide

theorem Flops.total_eq_ok {α : Type} {u : Update α} (h : u.rows * u.cols * 3 < Word.bound)
    (f : Flops) (count repeats : ℕ) : ∃ x, f.total u count repeats = .ok x := by
  have hle := Nat.mul_le_mul_right (u.rows * u.cols) f.perCell_le
  have hmul := Word.mul_eq_ok_iff.mpr
    ⟨show f.perCell * (u.rows * u.cols) < Word.bound by omega, rfl⟩
  rw [Flops.total, Flops.perElement, except_bind_of_ok (Update.cells_eq_ok h),
    except_bind_of_ok hmul]
  exact ⟨_, rfl⟩

theorem Host.reserve_eq_ok_iff {host : Host} {width len : ℕ} :
    host.reserve width len = .ok () ↔ host.shortage? (len * width) = none := by
  unfold reserve
  cases host.shortage? (len * width) with
  | none => exact ⟨fun _ => rfl, fun _ => rfl⟩
  | some reason =>
    refine ⟨fun h => ?_, nofun⟩
    obtain ⟨_, -, h⟩ := except_bind_eq_ok.mp h
    exact nomatch h

theorem Host.reserve_cases {host : Host} {width len : ℕ} (hlt : len * width < Word.bound) :
    host.reserve width len = .ok () ∧ len * width ≤ Word.maxBytes ∨
      ∃ reason, host.reserve width len =
        .error (.refused (.hostExhausted (len * width) reason)) := by
  unfold reserve
  cases hshort : host.shortage? (len * width) with
  | none => exact Or.inl ⟨rfl, le_maxBytes_of_shortage hshort⟩
  | some reason =>
    refine Or.inr ⟨reason.text, ?_⟩
    rw [Word.mul_eq_ok_iff.mpr ⟨hlt, rfl⟩]
    rfl

namespace Accumulate

variable {α : Type} [Scalar α] {host : Host} {p : Problem α} {settings : Settings} {count : ℕ}
  {a b : Array α}

def StorageRefused (host : Host) (p : Problem α) (settings : Settings) (e : Error) : Prop :=
  plan p settings = .error (.refused e) ∨
    ∃ count, plan p settings = .ok count ∧ operands host p count = .error (.refused e)

/-- The run has `count` elements, and `a` and `b` are their seeded operands. -/
structure Seeded (host : Host) (p : Problem α) (settings : Settings) (count : ℕ)
    (a b : Array α) : Prop where
  plan_eq : plan p settings = .ok count
  operands_eq : operands host p count = .ok (a, b)
  count_pos : 0 < count
  a_eq : a = Random.draws seedA (p.slotA * count)
  b_eq : b = Random.draws seedB (p.slotB * count)
  bytesA_le : p.slotA * count * Scalar.width α ≤ Word.maxBytes
  bytesB_le : p.slotB * count * Scalar.width α ≤ Word.maxBytes
  reserve_eq : host.reserve (Scalar.width α) (p.slotB * count) = .ok ()

theorem elements_eq_ok {width sizeA sizeB : ℕ} {gigabytes : Float}
    (h : Budget.elements width sizeA sizeB gigabytes = .ok count) :
    sizeA + sizeB < Word.bound ∧ (sizeA + sizeB) * width * count ≤ Budget.bytes gigabytes := by
  obtain ⟨sum, hsum, h⟩ := except_bind_eq_ok.mp h
  obtain ⟨size, hsize, h⟩ := except_bind_eq_ok.mp h
  obtain ⟨hlt, rfl⟩ := Word.add_eq_ok_iff.mp hsum
  obtain ⟨-, rfl⟩ := Word.mul_eq_ok_iff.mp hsize
  cases h
  exact ⟨hlt, Nat.mul_div_le ..⟩

theorem plan_eq_ok (h : plan p settings = .ok count) :
    0 < count ∧
      (p.slotA + p.slotB) * Scalar.width α * count ≤ Budget.bytes settings.gigabytes := by
  obtain ⟨n, helements, h⟩ := except_bind_eq_ok.mp h
  obtain ⟨-, hle⟩ := elements_eq_ok (liftFault_eq_ok.mp helements)
  split_ifs at h with hn
  · obtain ⟨_, -, h⟩ := except_bind_eq_ok.mp h
    exact nomatch h
  · cases h
    exact ⟨Nat.pos_of_ne_zero hn, hle⟩

/-- Sizing that does not overflow finds an element that fits, or the budget is too small. -/
theorem plan_cases (hsizing : ∀ fault, plan p settings ≠ .error (.fault fault)) :
    (∃ amount values, plan p settings = .error (.refused (.smallBudget amount values))) ∨
      ∃ count, plan p settings = .ok count := by
  unfold plan at hsizing ⊢
  cases helements : Budget.elements (Scalar.width α) p.slotA p.slotB settings.gigabytes with
  | error fault =>
    rw [helements] at hsizing
    exact absurd rfl (hsizing fault)
  | ok count =>
    obtain ⟨hsum, -⟩ := elements_eq_ok helements
    rw [outcome_bind_of_fault_ok rfl]
    by_cases hcount : count = 0
    · refine Or.inl ⟨Decimal.positional settings.gigabytes, p.slotA + p.slotB, ?_⟩
      rw [if_pos hcount, outcome_bind_of_fault_ok (Word.add_eq_ok_iff.mpr ⟨hsum, rfl⟩)]
      rfl
    · refine Or.inr ⟨count, ?_⟩
      rw [if_neg hcount]
      rfl

theorem buffer_cases {seed : UInt64} {len : ℕ} (hlt : len * Scalar.width α < Word.bound) :
    (∃ bytes reason, (Random.buffer host seed len : Outcome (Array α)) =
      .error (.refused (.hostExhausted bytes reason))) ∨
    (Random.buffer host seed len : Outcome (Array α)) = .ok (Random.draws seed len) ∧
      len * Scalar.width α ≤ Word.maxBytes ∧ host.reserve (Scalar.width α) len = .ok () := by
  unfold Random.buffer
  rcases Host.reserve_cases hlt with ⟨hreserve, hle⟩ | ⟨reason, hreserve⟩
  · exact Or.inr ⟨by rw [hreserve]; rfl, hle, hreserve⟩
  · exact Or.inl ⟨_, reason, by rw [hreserve]; rfl⟩

theorem operands_cases (hlt : (p.slotA + p.slotB) * Scalar.width α * count < Word.bound) :
    (∃ bytes reason, operands host p count = .error (.refused (.hostExhausted bytes reason))) ∨
      operands host p count =
          .ok (Random.draws seedA (p.slotA * count), Random.draws seedB (p.slotB * count)) ∧
        p.slotA * count * Scalar.width α ≤ Word.maxBytes ∧
        p.slotB * count * Scalar.width α ≤ Word.maxBytes ∧
        host.reserve (Scalar.width α) (p.slotB * count) = .ok () := by
  have hsum : p.slotA * count * Scalar.width α + p.slotB * count * Scalar.width α < Word.bound := by
    rwa [← Nat.add_mul, ← Nat.add_mul, Nat.mul_right_comm]
  have hmul : ∀ slot, slot * count * Scalar.width α < Word.bound →
      Word.mul slot count = .ok (slot * count) := fun slot h =>
    Word.mul_eq_ok_iff.mpr ⟨(Nat.le_mul_of_pos_right _ Scalar.width_pos).trans_lt h, rfl⟩
  -- Each operand fits the word range because both together do.
  have hA : p.slotA * count * Scalar.width α < Word.bound := by omega
  have hB : p.slotB * count * Scalar.width α < Word.bound := by omega
  rw [operands, outcome_bind_of_fault_ok (hmul _ hA)]
  rcases buffer_cases hA with ⟨bytes, reason, ha⟩ | ⟨ha, hbytesA, -⟩
  · exact Or.inl ⟨bytes, reason, by rw [except_bind_of_error ha]⟩
  · rw [except_bind_of_ok ha, outcome_bind_of_fault_ok (hmul _ hB)]
    rcases buffer_cases hB with ⟨bytes, reason, hb⟩ | ⟨hb, hbytesB, hreserve⟩
    · exact Or.inl ⟨bytes, reason, by rw [except_bind_of_error hb]⟩
    · exact Or.inr ⟨by rw [except_bind_of_ok hb]; rfl, hbytesA, hbytesB, hreserve⟩

theorem seeded_or_exhausted (hplan : plan p settings = .ok count) :
    (∃ bytes reason, operands host p count = .error (.refused (.hostExhausted bytes reason))) ∨
      ∃ a b, Seeded host p settings count a b := by
  obtain ⟨hpos, hle⟩ := plan_eq_ok hplan
  rcases operands_cases (hle.trans_lt (UInt64.toNat_lt _)) with
    hops | ⟨hops, hbytesA, hbytesB, hreserve⟩
  · exact Or.inl hops
  · exact Or.inr ⟨_, _, hplan, hops, hpos, rfl, rfl, hbytesA, hbytesB, hreserve⟩

theorem seeded_or_refused (hsizing : ∀ fault, plan p settings ≠ .error (.fault fault)) :
    (∃ e, StorageRefused host p settings e ∧ ∀ x y, e ≠ .dimensionMismatch x y) ∨
      ∃ count a b, Seeded host p settings count a b := by
  rcases plan_cases hsizing with ⟨amount, values, hplan⟩ | ⟨count, hplan⟩
  · exact Or.inl ⟨_, Or.inl hplan, fun _ _ => nofun⟩
  · rcases seeded_or_exhausted hplan with ⟨bytes, reason, hops⟩ | hseeded
    · exact Or.inl ⟨_, Or.inr ⟨count, hplan, hops⟩, fun _ _ => nofun⟩
    · exact Or.inr ⟨count, hseeded⟩

theorem seeded_of_operands (hplan : plan p settings = .ok count)
    (hops : operands host p count = .ok (a, b)) : Seeded host p settings count a b := by
  rcases seeded_or_exhausted hplan with ⟨bytes, reason, hops'⟩ | ⟨a', b', h⟩
  · cases hops'.symm.trans hops
  · cases h.operands_eq.symm.trans hops
    exact h

namespace Seeded

theorem sizeA (h : Seeded host p settings count a b) : a.size = p.slotA * count := by
  rw [h.a_eq, Random.size_draws]

theorem sizeB (h : Seeded host p settings count a b) : b.size = p.slotB * count := by
  rw [h.b_eq, Random.size_draws]

theorem not_storageRefused (h : Seeded host p settings count a b) (e : Error) :
    ¬ StorageRefused host p settings e := by
  rintro (hplan | ⟨count', hplan, hops⟩)
  · cases h.plan_eq.symm.trans hplan
  · cases h.plan_eq.symm.trans hplan
    cases h.operands_eq.symm.trans hops

/-- Seeded operands of a checked problem are a batch. -/
theorem isBatch (h : Seeded host p settings count a b) (hp : p.Sound) : p.IsBatch a b count := by
  refine ⟨hp, h.sizeA, h.sizeB, ?_, ?_⟩
  · rw [h.sizeA]
    exact lt_bound_of_bytes_le h.bytesA_le
  · rw [h.sizeB]
    exact lt_bound_of_bytes_le h.bytesB_le

end Seeded

/-- The bytes of a block, once read from each operand and once written, leave the word range. -/
def FiguresOverflow (p : Problem α) : Prop :=
  Word.bound ≤ p.update.rows * p.update.cols * 3 * Scalar.width α

theorem figures_eq_ok (h : ¬ FiguresOverflow p) (surface : Surface) (device : Option String)
    (elapsed : Float) (found : Option (Array ℕ)) :
    ∃ r, figures surface device p settings count elapsed found = .ok r ∧ r.mismatches = found := by
  have hbytes : p.update.rows * p.update.cols * 3 * Scalar.width α < Word.bound :=
    Nat.lt_of_not_le h
  have hthree : p.update.rows * p.update.cols * 3 < Word.bound :=
    (Nat.le_mul_of_pos_right _ Scalar.width_pos).trans_lt hbytes
  unfold figures
  extract_lets flops
  obtain ⟨x, hx⟩ := flops.total_eq_ok hthree count settings.repeats
  rw [except_bind_of_ok hx, except_bind_of_ok (Update.cells_eq_ok hthree),
    except_bind_of_ok (Word.mul_eq_ok_iff.mpr ⟨hthree, rfl⟩),
    except_bind_of_ok (Word.mul_eq_ok_iff.mpr ⟨hbytes, rfl⟩)]
  exact ⟨_, rfl, rfl⟩

theorem figures_eq_overflow (h : FiguresOverflow p) (surface : Surface) (device : Option String)
    (elapsed : Float) (found : Option (Array ℕ)) :
    figures surface device p settings count elapsed found = .error .overflow := by
  unfold figures
  extract_lets flops
  rw [Flops.total, Flops.perElement]
  rcases Word.mul_cases p.update.rows p.update.cols with ⟨hcells, -⟩ | hcells
  · rw [show p.update.cells = _ from hcells, except_bind_of_ok rfl]
    rcases Word.mul_cases flops.perCell (p.update.rows * p.update.cols) with ⟨hflops, -⟩ | hflops
    · rw [hflops]
      change (Word.mul (p.update.rows * p.update.cols) 3 >>= fun x =>
        Word.mul x (Scalar.width α) >>= _) = _
      rcases Word.mul_cases (p.update.rows * p.update.cols) 3 with ⟨hthree, -⟩ | hthree
      · rw [except_bind_of_ok hthree]
        rcases Word.mul_cases (p.update.rows * p.update.cols * 3) (Scalar.width α) with
          ⟨-, hlt⟩ | hbytes
        · exact absurd h (Nat.not_le.mpr hlt)
        · rw [except_bind_of_error hbytes]
      · rw [except_bind_of_error hthree]
    · rw [hflops]
      rfl
  · rw [show p.update.cells = _ from hcells]
    rfl

end Accumulate

end BatchAxpby
