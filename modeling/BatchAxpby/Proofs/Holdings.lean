import BatchAxpby.Proofs.Storage

/-! # Buffers that are held

Whoever uses the device holds its live buffers, each of them once, and the ledger has exactly
their bytes. New buffers and freed ones change what is held. Writing cells and launching kernels
does not, and no buffer ever changes its size.
-/

namespace BatchAxpby

namespace Emulator

variable {α : Type} {e e' e'' : Emulator α} {held held' : List ℕ}

def KeepsSizes (e e' : Emulator α) : Prop :=
  ∀ (i : ℕ) (b : DeviceBuffer α), e.buffers[i]? = some b →
    ∃ b', e'.buffers[i]? = some b' ∧ b'.cells.size = b.cells.size

theorem KeepsSizes.refl (e : Emulator α) : e.KeepsSizes e := fun _ b hb => ⟨b, hb, rfl⟩

theorem KeepsSizes.trans (h : e.KeepsSizes e') (h' : e'.KeepsSizes e'') : e.KeepsSizes e'' := by
  intro i b hb
  obtain ⟨b', hb', hsize⟩ := h i b hb
  obtain ⟨b'', hb'', hsize'⟩ := h' i b' hb'
  exact ⟨b'', hb'', hsize'.trans hsize⟩

theorem KeepsSizes.size_cells (h : e.KeepsSizes e') {i : ℕ} {b : DeviceBuffer α}
    (hb : e.buffers[i]? = some b) : (e'.cells i).size = (e.cells i).size := by
  obtain ⟨b', hb', hsize⟩ := h i b hb
  rw [cells, hb', cells, hb]
  exact hsize

/-- Every buffer is still there with as many cells, the same buffers are live, and the ledger is
the same. -/
structure Keeps (e e' : Emulator α) : Prop where
  ledger_eq : e'.ledger = e.ledger
  keepsSizes : e.KeepsSizes e'
  live_iff : ∀ i : ℕ, (∃ cells, e'.buffers[i]? = some ⟨cells, true⟩) ↔
    ∃ cells, e.buffers[i]? = some ⟨cells, true⟩

theorem Keeps.refl (e : Emulator α) : e.Keeps e := ⟨rfl, .refl e, fun _ => Iff.rfl⟩

theorem Restores.keeps (h : e.Restores e') : e.Keeps e' := by
  obtain ⟨dead, hdead, rfl⟩ := h
  have hkept : ∀ (i : ℕ) (b : DeviceBuffer α), e.buffers[i]? = some b →
      (e.buffers ++ dead)[i]? = some b := fun i b hb => by
    rw [Array.getElem?_append_left (Array.getElem?_eq_some_iff.mp hb).1, hb]
  refine ⟨rfl, fun i b hb => ⟨b, hkept i b hb, rfl⟩, fun i => ⟨?_, ?_⟩⟩
  · rintro ⟨cells, hi⟩
    rw [Array.getElem?_append] at hi
    split_ifs at hi
    · exact ⟨cells, hi⟩
    · exact absurd (hdead _ (Array.mem_of_getElem? hi)) nofun
  · rintro ⟨cells, hi⟩
    exact ⟨cells, hkept i _ hi⟩

theorem Holds.keeps {j : ℕ} {data data' : Array α} (h : e.Holds j data)
    (hsize : data'.size = data.size) : e.Keeps (e.withCells j data') := by
  obtain ⟨live, hj⟩ := h
  refine ⟨rfl, fun i b hb => ?_, fun i => ?_⟩
  · rw [getElem?_withCells]
    by_cases hij : j = i
    · subst hij
      cases hb.symm.trans hj
      exact ⟨⟨data', live⟩, by rw [if_pos rfl, hb]; rfl, hsize⟩
    · exact ⟨b, by rw [if_neg hij, hb], rfl⟩
  · rw [getElem?_withCells]
    by_cases hij : j = i
    · subst hij
      rw [if_pos rfl, hj]
      cases live <;> simp
    · rw [if_neg hij]

theorem upload_keeps {i : ℕ} {data : Array α} {u : Unit} (h : upload i data e = .ok u e') :
    e.Keeps e' ∧ e'.stats = e.stats := by
  unfold upload at h
  simp only at h
  split_ifs at h with hsize
  obtain ⟨old, new, hholds, hwork, rfl⟩ := onCells_eq_ok_imp h
  cases hwork
  rw [hholds.cells_eq] at hsize
  refine ⟨hholds.keeps ?_, rfl⟩
  rw [Array.size_append, Array.size_extract]
  omega

theorem eq_of_upload_refused {i : ℕ} {data : Array α} {error : Error}
    (h : upload i data e = .error (.refused error) e') : e' = e := by
  unfold upload at h
  simp only at h
  split_ifs at h
  · cases h
    rfl
  · exact absurd h onCells_ne_refused

variable [Scalar α]

/-- A launch that ends keeps all sizes and counts each of its lanes once. -/
theorem launch_keeps {limit : ℕ} {kernel : Kernel α} {g : Geometry}
    (h : launch limit kernel g e = .ok () e') : e.Keeps e' ∧
      ∃ active idle, e'.stats = e.stats.plus 1 active idle ∧ active + idle = g.lanes := by
  obtain ⟨-, active, e₁, hrun, hle, rfl⟩ := launch_eq_ok_imp h
  obtain ⟨j, data, data', hholds, hsize, rfl⟩ := runLanes_eq_ok_imp hrun
  have hkeeps := hholds.keeps hsize
  exact ⟨⟨hkeeps.ledger_eq, hkeeps.keepsSizes, hkeeps.live_iff⟩, active, _, rfl,
    Nat.add_sub_cancel' hle⟩

def bytes (e : Emulator α) (i : ℕ) : ℕ := (e.cells i).size * Scalar.width α

/-- The held buffers are the live ones, each held once, and the ledger has their bytes, which the
capacity can hold. -/
structure Accounts (e : Emulator α) (capacity : ℕ) (held : List ℕ) : Prop where
  nodup : held.Nodup
  live_iff : ∀ i, i ∈ held ↔ ∃ cells, e.buffers[i]? = some ⟨cells, true⟩
  inUse_eq : e.ledger.inUse = (held.map e.bytes).sum
  inUse_le : e.ledger.inUse ≤ capacity
  capacity_eq : e.ledger.capacity = capacity

variable {capacity : ℕ}

theorem Accounts.exists_buffer (h : e.Accounts capacity held) {i : ℕ} (hi : i ∈ held) :
    ∃ b, e.buffers[i]? = some b := by
  obtain ⟨cells, hb⟩ := (h.live_iff i).mp hi
  exact ⟨_, hb⟩

theorem Accounts.lt_size (h : e.Accounts capacity held) {i : ℕ} (hi : i ∈ held) :
    i < e.buffers.size := by
  obtain ⟨b, hb⟩ := h.exists_buffer hi
  exact (Array.getElem?_eq_some_iff.mp hb).1

theorem Accounts.perm (h : e.Accounts capacity held) (hp : held.Perm held') :
    e.Accounts capacity held' where
  nodup := hp.nodup_iff.mp h.nodup
  live_iff i := hp.mem_iff.symm.trans (h.live_iff i)
  inUse_eq := h.inUse_eq.trans (hp.map _).sum_nat
  inUse_le := h.inUse_le
  capacity_eq := h.capacity_eq

theorem KeepsSizes.map_bytes (h : e.KeepsSizes e')
    (hheld : ∀ i ∈ held, ∃ b, e.buffers[i]? = some b) : held.map e'.bytes = held.map e.bytes := by
  refine List.map_congr_left fun i hi => ?_
  obtain ⟨b, hb⟩ := hheld i hi
  rw [bytes, h.size_cells hb, bytes]

theorem Accounts.keeps (h : e.Accounts capacity held) (hk : e.Keeps e') :
    e'.Accounts capacity held where
  nodup := h.nodup
  live_iff i := (h.live_iff i).trans (hk.live_iff i).symm
  inUse_eq := by
    rw [hk.ledger_eq, h.inUse_eq, hk.keepsSizes.map_bytes fun i hi => h.exists_buffer hi]
  inUse_le := hk.ledger_eq ▸ h.inUse_le
  capacity_eq := hk.ledger_eq ▸ h.capacity_eq

theorem keepsSizes_withBuffer (e : Emulator α) (cells : Array α) :
    e.KeepsSizes (e.withBuffer cells) := by
  intro i b hb
  obtain ⟨hlt, -⟩ := Array.getElem?_eq_some_iff.mp hb
  exact ⟨b, by rw [withBuffer, Array.getElem?_append_left hlt, hb], rfl⟩

theorem Accounts.withBuffer (h : e.Accounts capacity held) (cells : Array α)
    (hfits : cells.size * Scalar.width α ≤ e.ledger.free) :
    (e.withBuffer cells).Accounts capacity (e.buffers.size :: held) := by
  have hnew : (e.withBuffer cells).buffers[e.buffers.size]? = some ⟨cells, true⟩ := by
    simp [Emulator.withBuffer]
  have hmap : held.map (e.withBuffer cells).bytes = held.map e.bytes :=
    (keepsSizes_withBuffer e cells).map_bytes fun i hi => h.exists_buffer hi
  have hle := h.inUse_le
  have hcap := h.capacity_eq
  unfold Ledger.free at hfits
  refine ⟨List.nodup_cons.mpr ⟨fun hi => Nat.lt_irrefl _ (h.lt_size hi), h.nodup⟩, fun i => ?_, ?_,
    ?_, h.capacity_eq⟩
  · rw [List.mem_cons, h.live_iff i, Emulator.withBuffer, Array.getElem?_append]
    by_cases hi : i < e.buffers.size
    · rw [if_pos hi, or_iff_right (Nat.ne_of_lt hi)]
    · rw [if_neg hi, Array.getElem?_eq_none (Nat.not_lt.mp hi)]
      by_cases heq : i = e.buffers.size
      · simp [heq]
      · have hout : (#[⟨cells, true⟩] : Array (DeviceBuffer α))[i - e.buffers.size]? = none :=
          Array.getElem?_eq_none (by simp only [List.size_toArray, List.length_singleton]; omega)
        simp [heq, hout]
  · rw [List.map_cons, List.sum_cons, hmap, ← h.inUse_eq, bytes, Emulator.cells, hnew,
      Nat.add_comm]
    rfl
  · simp only [Emulator.withBuffer]
    omega

theorem keepsSizes_withBatch (e : Emulator α) (a b : Array α) :
    e.KeepsSizes (e.withBatch a b) := by
  rw [← withBuffer_withBuffer]
  exact (keepsSizes_withBuffer e a).trans (keepsSizes_withBuffer _ b)

theorem Accounts.withBatch (h : e.Accounts capacity held) {a b : Array α}
    (hfits : (a.size + b.size) * Scalar.width α ≤ e.ledger.free) :
    (e.withBatch a b).Accounts capacity ((e.buffers.size + 1) :: e.buffers.size :: held) := by
  rw [Nat.add_mul] at hfits
  have hA := h.withBuffer a (by omega)
  have hB := hA.withBuffer b (by
    simp only [Emulator.withBuffer, Ledger.free] at hfits ⊢
    omega)
  have hnum : (e.withBuffer a).buffers.size = e.buffers.size + 1 := by simp [Emulator.withBuffer]
  rwa [withBuffer_withBuffer, hnum] at hB

theorem stats_free (e : Emulator α) (i : ℕ) : (free i e).stats = e.stats := by
  unfold free
  split <;> rfl

theorem keepsSizes_free (e : Emulator α) (j : ℕ) : e.KeepsSizes (free j e) := by
  unfold free
  split
  · rename_i cells hj
    intro i b hb
    by_cases hij : j = i
    · subst hij
      cases hb.symm.trans hj
      obtain ⟨hlt, -⟩ := Array.getElem?_eq_some_iff.mp hj
      exact ⟨⟨cells, false⟩, by simp [hlt], rfl⟩
    · exact ⟨b, by rw [Array.getElem?_setIfInBounds_ne hij, hb], rfl⟩
  · exact KeepsSizes.refl e

theorem Accounts.free {i : ℕ} (h : e.Accounts capacity (i :: held)) :
    (free i e).Accounts capacity held := by
  obtain ⟨cells, hi⟩ := (h.live_iff i).mp List.mem_cons_self
  obtain ⟨hnot, hnodup⟩ := List.nodup_cons.mp h.nodup
  have hmap : held.map (Emulator.free i e).bytes = held.map e.bytes :=
    (keepsSizes_free e i).map_bytes fun j hj => h.exists_buffer (List.mem_cons_of_mem i hj)
  have hsum := h.inUse_eq
  rw [List.map_cons, List.sum_cons, bytes, Emulator.cells, hi] at hsum
  have hle := h.inUse_le
  refine ⟨hnodup, fun j => ?_, ?_, ?_, ?_⟩
  · rw [free_of_live hi]
    by_cases hij : i = j
    · subst hij
      rw [Array.getElem?_setIfInBounds_self_of_lt (Array.getElem?_eq_some_iff.mp hi).1]
      simp [hnot]
    · rw [Array.getElem?_setIfInBounds_ne hij, ← h.live_iff j, List.mem_cons,
        or_iff_right (Ne.symm hij)]
  · rw [hmap, free_of_live hi, Ledger.release]
    simp only at hsum ⊢
    omega
  · rw [free_of_live hi, Ledger.release]
    simp only
    omega
  · rw [free_of_live hi]
    exact h.capacity_eq

end Emulator

end BatchAxpby
