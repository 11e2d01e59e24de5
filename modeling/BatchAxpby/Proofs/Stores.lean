import BatchAxpby.Proofs.RepeatedLaunches

/-! # Lanes that store

A lane of a copy or of a round trip stores one value in one cell, and lanes that share a cell store
the same value. What they leave depends on the set of their cells only, not on the order of the
lanes. The work groups of a round trip are one pass over the cells from the first one on, whether
the last group is cut off by the end of the buffer or not.
-/

namespace BatchAxpby

variable {α : Type}

/-- Stores `value k` in cell `k`, for one listed cell after the other. Cells that the buffer does
not have are passed over. -/
def storeAll (value : ℕ → α) (cells : List ℕ) (data : Array α) : Array α :=
  cells.foldl (fun t k => t.setIfInBounds k (value k)) data

section StoreAll

variable (value : ℕ → α) (data : Array α)

@[simp] theorem storeAll_nil : storeAll value [] data = data := rfl

theorem storeAll_cons (k : ℕ) (cells : List ℕ) :
    storeAll value (k :: cells) data = storeAll value cells (data.setIfInBounds k (value k)) := rfl

theorem storeAll_append (cells cells' : List ℕ) :
    storeAll value (cells ++ cells') data = storeAll value cells' (storeAll value cells data) :=
  List.foldl_append ..

theorem storeAll_flatMap {ι : Type} (tasks : List ι) (cells : ι → List ℕ) :
    storeAll value (tasks.flatMap cells) data =
      tasks.foldl (fun t i => storeAll value (cells i) t) data :=
  List.foldl_flatMap ..

@[simp] theorem size_storeAll (cells : List ℕ) : (storeAll value cells data).size = data.size := by
  induction cells generalizing data with
  | nil => rfl
  | cons k cells ih => rw [storeAll_cons, ih, Array.size_setIfInBounds]

theorem getElem?_storeAll (cells : List ℕ) (k : ℕ) : (storeAll value cells data)[k]? =
    if k ∈ cells ∧ k < data.size then some (value k) else data[k]? := by
  induction cells generalizing data with
  | nil => simp
  | cons j cells ih =>
    rw [storeAll_cons, ih, Array.size_setIfInBounds, Array.getElem?_setIfInBounds]
    by_cases hjk : j = k
    · subst hjk
      by_cases hj : j < data.size
      · simp [hj]
      · simp [hj]
    · simp [hjk, Ne.symm hjk]

theorem getElem?_storeAll_range (n k : ℕ) : (storeAll value (List.range n) data)[k]? =
    if k < min n data.size then some (value k) else data[k]? := by
  rw [getElem?_storeAll]
  exact if_congr (by rw [List.mem_range]; omega) rfl rfl

variable {value data}

theorem storeAll_of_size_le {cells : List ℕ} (h : ∀ k ∈ cells, data.size ≤ k) :
    storeAll value cells data = data := by
  apply Array.ext_getElem?
  intro k
  rw [getElem?_storeAll, if_neg]
  rintro ⟨hk, hlt⟩
  exact absurd (h k hk) (Nat.not_le.mpr hlt)

theorem storeAll_eq {cells : List ℕ} {out : Array α} (hsize : out.size = data.size)
    (hcells : ∀ k < data.size, k ∈ cells ∧ out[k]? = some (value k)) :
    storeAll value cells data = out := by
  apply Array.ext_getElem?
  intro k
  rw [getElem?_storeAll]
  by_cases hk : k < data.size
  · obtain ⟨hmem, hout⟩ := hcells k hk
    rw [if_pos ⟨hmem, hk⟩, hout]
  · rw [if_neg (fun h => hk h.2), Array.getElem?_eq_none (Nat.not_lt.mp hk),
      Array.getElem?_eq_none (by omega)]

end StoreAll

namespace Lane

section Loop

variable {σ : Type} {body : ℕ → EStateM Fault σ Bool} {ran : ℕ → Bool} {inv : ℕ → σ → Prop}

theorem runAll_go_of_invariant (remaining lane active : ℕ) {s : σ}
    (h : ∀ i, lane ≤ i → i < lane + remaining → ∀ s, inv i s →
      ∃ t, body i s = .ok (ran i) t ∧ inv (i + 1) t) (hs : inv lane s) :
    ∃ t, runAll.go body remaining lane active s =
      .ok (active + (List.range' lane remaining).countP ran) t ∧ inv (lane + remaining) t := by
  induction remaining generalizing lane active s with
  | zero => exact ⟨s, rfl, hs⟩
  | succ remaining ih =>
    obtain ⟨t, hbody, ht⟩ := h lane le_rfl (by omega) s hs
    obtain ⟨u, hrest, hu⟩ := ih (lane + 1) (active + (ran lane).toNat)
      (fun i hi hlt => h i (by omega) (by omega)) ht
    refine ⟨u, ?_, by rwa [Nat.add_right_comm, Nat.add_assoc] at hu⟩
    rw [runAll.go, hbody]
    simp only
    rw [hrest, List.range'_succ, List.countP_cons]
    cases ran lane <;> simp [Nat.add_assoc, Nat.add_comm]

theorem runAll_of_invariant {lanes : ℕ} {s : σ}
    (h : ∀ i < lanes, ∀ s, inv i s → ∃ t, body i s = .ok (ran i) t ∧ inv (i + 1) t)
    (hs : inv 0 s) :
    ∃ t, runAll body lanes s = .ok ((List.range lanes).countP ran) t ∧ inv lanes t := by
  obtain ⟨t, hrun, ht⟩ := runAll_go_of_invariant lanes 0 0 (fun i _ hi => h i (by omega)) hs
  rw [Nat.zero_add] at ht
  rw [Nat.zero_add, ← List.range_eq_range'] at hrun
  exact ⟨t, hrun, ht⟩

end Loop

variable [Scalar α]

theorem copy_eq_ok {source target : Array α} {len lane : ℕ} (hlane : lane < len)
    (hsource : len ≤ source.size) (htarget : len ≤ target.size) :
    copy source len lane target =
      .ok true (target.setIfInBounds lane (source.getD lane Scalar.zero)) := by
  have hs : lane < source.size := by omega
  have ht : lane < target.size := by omega
  rw [copy, if_neg (Nat.not_le.mpr hlane), Array.getElem?_eq_getElem hs]
  simp only [dif_pos ht, Array.setIfInBounds, Array.getD, dif_pos hs]
  rfl

theorem runAll_copy {source target : Array α} {len : ℕ} (hsource : len ≤ source.size)
    (htarget : len ≤ target.size) (lanes : ℕ) :
    runAll (copy source len) lanes target = .ok (min lanes len)
      (storeAll (source.getD · Scalar.zero) (List.range (min lanes len)) target) := by
  -- The invariant: the lanes so far have stored one value each, as far as there are values.
  let stored (n : ℕ) : Array α := storeAll (source.getD · Scalar.zero) (List.range n) target
  have hstep : ∀ lane < lanes, ∀ t, t = stored (min lane len) →
      ∃ t', copy source len lane t = .ok (decide (lane < len)) t' ∧
        t' = stored (min (lane + 1) len) := by
    rintro lane - t rfl
    refine ⟨_, ?_, rfl⟩
    by_cases hlane : lane < len
    · rw [copy_eq_ok hlane hsource (by rwa [size_storeAll]), decide_eq_true hlane,
        Nat.min_eq_left hlane.le, Nat.min_eq_left (Nat.succ_le_of_lt hlane)]
      simp only [stored, List.range_succ, storeAll_append]
      rfl
    · have hmin : min (lane + 1) len = min lane len := by omega
      rw [copy, if_pos (Nat.not_lt.mp hlane), decide_eq_false hlane, hmin]
  obtain ⟨out, hrun, rfl⟩ := runAll_of_invariant hstep (s := target) rfl
  rw [hrun, countP_range_lt]

def lastLoaded (magic : α) (repeats : ℕ) : α := if repeats = 0 then Scalar.zero else magic

omit [Scalar α] in
theorem roundTrips_magic (magic : α) (repeats : ℕ) :
    roundTrips magic repeats magic magic = (magic, magic) := by
  induction repeats with
  | zero => rfl
  | succ repeats ih => rw [roundTrips, ih]

theorem roundTrips_snd (magic : α) (repeats : ℕ) (cell : α) :
    (roundTrips magic repeats cell Scalar.zero).2 = lastLoaded magic repeats := by
  cases repeats with
  | zero => rfl
  | succ repeats =>
    rw [roundTrips, roundTrips_magic]
    rfl

theorem roundTrip_eq_ok (magic : α) (repeats base : ℕ) {lane : ℕ} {g : Group α}
    (hlane : lane < g.shared.size) : ∃ shared, shared.size = g.shared.size ∧
      roundTrip magic repeats base lane g = .ok (decide (base + lane < g.scratch.size))
        ⟨shared, g.scratch.setIfInBounds (base + lane) (lastLoaded magic repeats)⟩ := by
  unfold roundTrip
  by_cases hcell : base + lane < g.scratch.size
  · refine ⟨g.shared.set lane (roundTrips magic repeats g.shared[lane] Scalar.zero).1,
      Array.size_set hlane, ?_⟩
    rw [dif_pos ⟨hlane, hcell⟩, decide_eq_true hcell, Array.setIfInBounds, dif_pos hcell,
      ← roundTrips_snd magic repeats g.shared[lane]]
  · refine ⟨g.shared, rfl, ?_⟩
    rw [dif_neg (fun h => hcell h.2), decide_eq_false hcell, Array.setIfInBounds, dif_neg hcell]

theorem runAll_roundTrip (magic : α) (repeats base : ℕ) (g : Group α) :
    ∃ shared, runAll (roundTrip magic repeats base) g.shared.size g =
      .ok (min g.shared.size (g.scratch.size - base))
        ⟨shared, storeAll (fun _ => lastLoaded magic repeats)
          (List.range' base g.shared.size) g.scratch⟩ := by
  -- The invariant: the lanes so far have stored in the cells that follow `base`.
  let stored (n : ℕ) : Array α :=
    storeAll (fun _ => lastLoaded magic repeats) (List.range' base n) g.scratch
  have hstep : ∀ lane < g.shared.size, ∀ t : Group α,
      t.shared.size = g.shared.size ∧ t.scratch = stored lane →
      ∃ t', roundTrip magic repeats base lane t =
          .ok (decide (lane < g.scratch.size - base)) t' ∧
        t'.shared.size = g.shared.size ∧ t'.scratch = stored (lane + 1) := by
    rintro lane hlane t ⟨hsize, hscratch⟩
    obtain ⟨shared, hshared, hbody⟩ := roundTrip_eq_ok magic repeats base (hsize ▸ hlane)
    have hran : decide (base + lane < t.scratch.size) = decide (lane < g.scratch.size - base) := by
      rw [hscratch, size_storeAll]
      exact decide_eq_decide.mpr (by omega)
    refine ⟨_, hran ▸ hbody, hshared.trans hsize, ?_⟩
    simp only [hscratch, stored, List.range'_concat, storeAll_append, Nat.one_mul]
    rfl
  obtain ⟨⟨shared, scratch⟩, hrun, -, rfl⟩ := runAll_of_invariant hstep (s := g) ⟨rfl, rfl⟩
  exact ⟨shared, by rw [hrun, countP_range_lt]⟩

end Lane

namespace Emulator

variable [Scalar α]

section Groups

variable (magic : α) (repeats : ℕ) {g : Geometry} (hlanes : g.lanes < Word.bound)
  (hblock : g.block * Scalar.width α ≤ Word.maxBytes)

include hlanes hblock

/-- Groups that follow each other store in cells that follow each other. Those past the end of the
buffer, which are passed over, have no cell to store in. -/
theorem roundTripGroups_go_eq_ok {remaining group : ℕ} (hgroups : group + remaining ≤ g.grid)
    (scratch : Array α) :
    roundTripGroups.go magic repeats g remaining group (min scratch.size (group * g.block))
        scratch =
      .ok (min scratch.size ((group + remaining) * g.block))
        (storeAll (fun _ => Lane.lastLoaded magic repeats)
          (List.range' (group * g.block) (remaining * g.block)) scratch) := by
  induction remaining generalizing group scratch with
  | zero => simp [roundTripGroups.go]
  | succ remaining ih =>
    have hcells : List.range' (group * g.block) ((remaining + 1) * g.block) =
        List.range' (group * g.block) g.block ++
          List.range' ((group + 1) * g.block) (remaining * g.block) := by
      rw [Nat.succ_mul, Nat.succ_mul, List.range'_append_1, Nat.add_comm g.block]
    have hnext : group + (remaining + 1) = group + 1 + remaining := by omega
    have hbase : (group + 1) * g.block = group * g.block + g.block := Nat.succ_mul ..
    have hlt : group * g.block < Word.bound :=
      (Nat.mul_le_mul_right g.block (by omega)).trans_lt hlanes
    rw [hcells, hnext, storeAll_append, roundTripGroups.go, Word.mul_eq_ok_iff.mpr ⟨hlt, rfl⟩]
    simp only
    by_cases hskip : scratch.size ≤ group * g.block
    · have hnone : storeAll (fun _ => Lane.lastLoaded magic repeats)
          (List.range' (group * g.block) g.block) scratch = scratch :=
        storeAll_of_size_le fun k hk => hskip.trans (List.mem_range'_1.mp hk).1
      rw [if_pos hskip, hnone, ← ih (by omega)]
      congr 1
      omega
    · obtain ⟨shared, hrun⟩ := Lane.runAll_roundTrip magic repeats (group * g.block)
        ⟨Array.replicate g.block Scalar.zero, scratch⟩
      simp only [Array.size_replicate] at hrun
      have hrest := ih (show group + 1 + remaining ≤ g.grid by omega)
        (storeAll (fun _ => Lane.lastLoaded magic repeats)
          (List.range' (group * g.block) g.block) scratch)
      rw [size_storeAll] at hrest
      rw [if_neg hskip, if_neg (Nat.not_lt.mpr hblock), hrun]
      simp only
      rw [← hrest]
      congr 1
      omega

theorem roundTripGroups_eq_ok (scratch : Array α) :
    roundTripGroups magic repeats g scratch = .ok (min scratch.size g.lanes)
      (storeAll (fun _ => Lane.lastLoaded magic repeats) (List.range g.lanes) scratch) := by
  have hgo := roundTripGroups_go_eq_ok magic repeats hlanes hblock (Nat.zero_add g.grid).le scratch
  rw [Nat.zero_mul, Nat.min_zero, Nat.zero_add, ← List.range_eq_range'] at hgo
  exact hgo

end Groups

variable {e : Emulator α} {i j limit : ℕ} {g : Geometry}

theorem runLanes_copy {source target : Array α} {len : ℕ} (hji : j ≠ i)
    (hsource : e.Holds i source) (htarget : e.Holds j target) (hlenS : len ≤ source.size)
    (hlenT : len ≤ target.size) (lanes : ℕ) :
    runLanes (.copy j i len) g lanes e = .ok (min lanes len) (e.withCells j
      (storeAll (source.getD · Scalar.zero) (List.range (min lanes len)) target)) := by
  simp only [runLanes, if_neg hji, hsource.cells_eq]
  exact onCells_eq_ok htarget (Lane.runAll_copy hlenS hlenT lanes)

theorem runLanes_roundTrip {scratch : Array α} (magic : α) (repeats : ℕ)
    (hlanes : g.lanes < Word.bound) (hblock : g.block * Scalar.width α ≤ Word.maxBytes)
    (hscratch : e.Holds j scratch) (lanes : ℕ) :
    runLanes (.roundTrip j magic repeats) g lanes e = .ok (min scratch.size g.lanes)
      (e.withCells j (storeAll (fun _ => Lane.lastLoaded magic repeats) (List.range g.lanes)
        scratch)) :=
  onCells_eq_ok hscratch (roundTripGroups_eq_ok magic repeats hlanes hblock scratch)

end Emulator

end BatchAxpby
