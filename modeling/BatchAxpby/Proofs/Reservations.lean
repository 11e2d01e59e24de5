import BatchAxpby.Proofs.Sessions

/-! # Reservations

Copies of a ledger share its count of bytes, and a reservation gives its bytes back later, in any
order. Whatever is reserved and given back, the bytes in use are those of the reservations that are
still alive, and they fit the capacity. So no request overflows, and no difference is cut off at
zero.
-/

namespace BatchAxpby

namespace Account

variable {a : Account} {bytes handle : ℕ}

theorem reserve_eq_ok (hcap : a.ledger.capacity < Word.bound)
    (hle : a.ledger.inUse ≤ a.ledger.capacity) (hbytes : bytes ≤ a.ledger.free) :
    a.reserve bytes = .ok (a.held.size,
      ⟨{ a.ledger with inUse := a.ledger.inUse + bytes }, a.held.push (some bytes)⟩) := by
  have hsum : a.ledger.inUse + bytes < Word.bound := by
    unfold Ledger.free at hbytes
    omega
  rw [reserve, Ledger.reserve, if_neg (Nat.not_lt.mpr hbytes),
    Word.add_eq_ok_iff.mpr ⟨hsum, rfl⟩]
  rfl

theorem reserve_eq_refused (hbytes : a.ledger.free < bytes) : a.reserve bytes =
    .error (.refused (.deviceExhausted bytes a.ledger.free a.ledger.capacity)) := by
  rw [reserve, Ledger.reserve, if_pos hbytes]
  rfl

theorem release?_eq_some {b : Account} (h : a.release? handle = some b) : ∃ bytes,
    a.held[handle]? = some (some bytes) ∧
      b = ⟨a.ledger.release bytes, a.held.setIfInBounds handle none⟩ := by
  unfold release? at h
  split at h
  · next bytes hheld =>
    cases h
    exact ⟨bytes, hheld, rfl⟩
  · exact nomatch h

theorem release?_of_held (h : a.held[handle]? = some (some bytes)) :
    a.release? handle = some ⟨a.ledger.release bytes, a.held.setIfInBounds handle none⟩ := by
  rw [release?, h]

namespace Shared

def alive (s : Shared) : List ℕ := s.held.toList.flatMap Option.toList

/-- The ledgers have one capacity, and the bytes in use are those that are alive. -/
structure Balanced (s : Shared) (capacity : ℕ) : Prop where
  capacity_eq : ∀ c ∈ s.capacities, c = capacity
  inUse_eq : s.inUse = s.alive.sum
  inUse_le : s.inUse ≤ capacity

variable {s s' : Shared} {capacity : ℕ}

theorem balanced_start (capacity : ℕ) : (start capacity).Balanced capacity where
  capacity_eq c hc := by simpa [start] using hc
  inUse_eq := rfl
  inUse_le := Nat.zero_le _

theorem alive_perm {handle bytes : ℕ} (h : s.held[handle]? = some (some bytes)) :
    s.alive.Perm (bytes :: { s with held := s.held.setIfInBounds handle none }.alive) := by
  have hget : s.held.toList[handle]? = some (some bytes) := by rwa [Array.getElem?_toList]
  have hperm := Session.flatMap_set_none Option.toList rfl hget
  rw [← Array.toList_setIfInBounds] at hperm
  exact hperm

theorem Balanced.bytes_le (h : s.Balanced capacity) {handle bytes : ℕ}
    (hheld : s.held[handle]? = some (some bytes)) : bytes ≤ s.inUse := by
  rw [h.inUse_eq, (alive_perm hheld).sum_nat, List.sum_cons]
  exact Nat.le_add_right ..

/-- No request leaves the balance. -/
theorem Balanced.step (hcap : capacity < Word.bound) (h : s.Balanced capacity)
    {request : Request} (hs : s.step? request = some s') : s'.Balanced capacity := by
  cases request with
  | copy ledger =>
    obtain ⟨c, hc, rfl⟩ := Option.map_eq_some_iff.mp hs
    refine ⟨fun x hx => ?_, h.inUse_eq, h.inUse_le⟩
    rcases Array.mem_push.mp hx with hx | rfl
    · exact h.capacity_eq x hx
    · exact h.capacity_eq x (Array.mem_of_getElem? hc)
  | reserve ledger bytes =>
    obtain ⟨c, hc, rfl⟩ := Option.map_eq_some_iff.mp hs
    obtain rfl := h.capacity_eq c (Array.mem_of_getElem? hc)
    by_cases hbytes : bytes ≤ c - s.inUse
    · rw [reserve_eq_ok hcap h.inUse_le hbytes]
      refine ⟨h.capacity_eq, ?_, ?_⟩
      · simp [withAccount, account, alive, h.inUse_eq]
      · have := h.inUse_le
        simp only [withAccount, account]
        omega
    · rw [reserve_eq_refused (Nat.lt_of_not_le hbytes)]
      exact h
  | release handle =>
    obtain ⟨a, ha, rfl⟩ := Option.map_eq_some_iff.mp hs
    obtain ⟨bytes, hheld, rfl⟩ := release?_eq_some ha
    have hsum := h.inUse_eq
    rw [(alive_perm hheld).sum_nat, List.sum_cons] at hsum
    refine ⟨h.capacity_eq, ?_, (Nat.sub_le ..).trans h.inUse_le⟩
    exact Nat.sub_eq_of_eq_add' hsum

theorem Balanced.run (hcap : capacity < Word.bound) {requests : List Request}
    (h : s.Balanced capacity) (hs : s.run? requests = some s') : s'.Balanced capacity := by
  induction requests generalizing s with
  | nil =>
    cases hs
    exact h
  | cons request rest ih =>
    obtain ⟨t, ht, hrest⟩ := Option.bind_eq_some_iff.mp hs
    exact ih (h.step hcap ht) hrest

theorem Balanced.reserve_cases (h : s.Balanced capacity) (hcap : capacity < Word.bound)
    {ledger : ℕ} (hledger : s.capacities[ledger]? = some capacity) (bytes : ℕ) :
    (bytes ≤ capacity - s.inUse ∧ (s.account capacity).reserve bytes =
      .ok (s.held.size, ⟨⟨capacity, s.inUse + bytes⟩, s.held.push (some bytes)⟩)) ∨
    (capacity - s.inUse < bytes ∧ (s.account capacity).reserve bytes =
        .error (.refused (.deviceExhausted bytes (capacity - s.inUse) capacity)) ∧
      s.step? (.reserve ledger bytes) = some s) := by
  by_cases hbytes : bytes ≤ capacity - s.inUse
  · exact .inl ⟨hbytes, reserve_eq_ok hcap h.inUse_le hbytes⟩
  · have hrefused := reserve_eq_refused (a := s.account capacity) (Nat.lt_of_not_le hbytes)
    refine .inr ⟨Nat.lt_of_not_le hbytes, hrefused, ?_⟩
    simp only [step?, hledger, Option.map_some, hrefused]

def Outstanding (s : Shared) (handle : ℕ) : Prop := ∃ bytes, s.held[handle]? = some (some bytes)

theorem alive_eq_nil (h : ∀ handle, ¬ s.Outstanding handle) : s.alive = [] := by
  refine List.flatMap_eq_nil_iff.mpr fun x hx => ?_
  cases x with
  | none => rfl
  | some bytes =>
    obtain ⟨handle, hhandle⟩ := Array.getElem?_of_mem (Array.mem_def.mpr hx)
    exact absurd ⟨bytes, hhandle⟩ (h handle)

theorem exists_release {handle : ℕ} (h : s.Outstanding handle) :
    ∃ t, s.step? (.release handle) = some t ∧
      ∀ other, t.Outstanding other ↔ s.Outstanding other ∧ other ≠ handle := by
  obtain ⟨bytes, hheld⟩ := h
  refine ⟨_, congrArg (Option.map s.withAccount) (release?_of_held hheld), fun other => ?_⟩
  simp only [Outstanding, withAccount, account, Array.getElem?_setIfInBounds]
  by_cases hother : handle = other
  · subst hother
    simp [(Array.getElem?_eq_some_iff.mp hheld).1]
  · simp [hother, Ne.symm hother]

/-- The reservations can be given back in any order, and then no bytes are in use. -/
theorem Balanced.release_all (hcap : capacity < Word.bound) {order : List ℕ}
    (h : s.Balanced capacity) (hnodup : order.Nodup)
    (horder : ∀ handle, handle ∈ order ↔ s.Outstanding handle) :
    ∃ t, s.run? (order.map .release) = some t ∧ t.inUse = 0 := by
  induction order generalizing s with
  | nil =>
    have hnone : ∀ handle, ¬ s.Outstanding handle := fun handle hout =>
      List.not_mem_nil ((horder handle).mpr hout)
    exact ⟨s, rfl, by rw [h.inUse_eq, alive_eq_nil hnone, List.sum_nil]⟩
  | cons handle rest ih =>
    obtain ⟨hfirst, hrest⟩ := List.nodup_cons.mp hnodup
    obtain ⟨t, ht, hothers⟩ := exists_release ((horder handle).mp List.mem_cons_self)
    have hleft : ∀ other, other ∈ rest ↔ t.Outstanding other := by
      intro other
      rw [hothers, ← horder, List.mem_cons]
      constructor
      · intro hother
        exact ⟨Or.inr hother, fun heq => hfirst (heq ▸ hother)⟩
      · rintro ⟨heq | hother, hne⟩
        · exact absurd heq hne
        · exact hother
    obtain ⟨u, hu, hzero⟩ := ih (h.step hcap ht) hrest hleft
    exact ⟨u, by rw [List.map_cons, run?, ht]; exact hu, hzero⟩

/-- After any requests to a ledger and its copies, the bytes in use are those of the reservations
that are alive, and they fit the capacity. Bytes are reserved exactly if they fit the rest of it;
otherwise they are refused and nothing changes. Neither the rest of the capacity nor the bytes
that are left when a reservation is given back are cut off at zero. When all reservations are given
back, in any order, no bytes are in use. -/
theorem ledgers_conserve_bytes {capacity : ℕ} (hcap : capacity < Word.bound)
    {requests : List Request} {s : Shared} (hs : (start capacity).run? requests = some s) :
    s.inUse = s.alive.sum ∧ s.inUse ≤ capacity ∧
    (∀ ledger c, s.capacities[ledger]? = some c →
      c = capacity ∧ Word.sub c s.inUse = .ok (s.account c).ledger.free ∧
      ∀ bytes,
        (bytes ≤ c - s.inUse ∧ (s.account c).reserve bytes =
          .ok (s.held.size, ⟨⟨c, s.inUse + bytes⟩, s.held.push (some bytes)⟩)) ∨
        (c - s.inUse < bytes ∧ (s.account c).reserve bytes =
            .error (.refused (.deviceExhausted bytes (c - s.inUse) c)) ∧
          s.step? (.reserve ledger bytes) = some s)) ∧
    (∀ handle bytes, s.held[handle]? = some (some bytes) →
      ∃ t, s.step? (.release handle) = some t ∧ Word.sub s.inUse bytes = .ok t.inUse) ∧
    ∀ order : List ℕ, order.Nodup → (∀ handle, handle ∈ order ↔ s.Outstanding handle) →
      ∃ t, s.run? (order.map .release) = some t ∧ t.inUse = 0 := by
  have h : s.Balanced capacity := (balanced_start capacity).run hcap hs
  refine ⟨h.inUse_eq, h.inUse_le, fun ledger c hc => ?_, fun handle bytes hheld => ?_,
    fun order hnodup horder => h.release_all hcap hnodup horder⟩
  · obtain rfl := h.capacity_eq c (Array.mem_of_getElem? hc)
    exact ⟨rfl, Word.sub_eq_ok_iff.mpr ⟨h.inUse_le, rfl⟩, h.reserve_cases hcap hc⟩
  · refine ⟨_, congrArg (Option.map s.withAccount) (release?_of_held hheld), ?_⟩
    exact Word.sub_eq_ok_iff.mpr ⟨h.bytes_le hheld, rfl⟩

/-- A ledger of the largest word and its copy. The first reservation is given back, and one of
five bytes is alive. -/
def fullLedger : List Request :=
  [.copy 0, .reserve 1 18446744073709551610, .reserve 0 5, .reserve 1 1, .release 0]

/-- With five bytes in use, the copy reserves all the rest and refuses one byte more. Giving the
five bytes back leaves none in use. -/
theorem fullLedger_conserves_bytes :
    ∃ s, (start 18446744073709551615).run? fullLedger = some s ∧ s.inUse = 5 ∧ s.alive = [5] ∧
      (∃ a, (s.account 18446744073709551615).reserve 18446744073709551610 = .ok (2, a)) ∧
      s.step? (.reserve 1 18446744073709551611) = some s ∧
      ∃ t, s.run? [.release 1] = some t ∧ t.inUse = 0 := by
  let s : Shared := ⟨#[18446744073709551615, 18446744073709551615], 5, #[none, some 5]⟩
  have hs : (start 18446744073709551615).run? fullLedger = some s := by decide +kernel
  obtain ⟨-, -, hreserve, -, hrelease⟩ := ledgers_conserve_bytes (by decide) hs
  obtain ⟨-, -, hcopy⟩ := hreserve 1 18446744073709551615 rfl
  have houtstanding : ∀ handle, handle ∈ [1] ↔ s.Outstanding handle := by
    rintro (_ | _ | handle)
    · simp [Outstanding, s]
    · simp [Outstanding, s]
    · simp [Outstanding, s]
  refine ⟨s, hs, rfl, rfl, ?_, ?_, hrelease [1] (by decide) houtstanding⟩
  · rcases hcopy 18446744073709551610 with ⟨-, hok⟩ | ⟨hlt, -⟩
    · exact ⟨_, hok⟩
    · exact absurd hlt (by decide)
  · rcases hcopy 18446744073709551611 with ⟨hle, -⟩ | ⟨-, -, hsame⟩
    · exact absurd hle (by decide)
    · exact hsame

end Shared

end Account

end BatchAxpby
