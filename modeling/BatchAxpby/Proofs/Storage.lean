import BatchAxpby.Proofs.Launch

/-! # Storage of the device

A new buffer stands behind the buffers of the device and takes its bytes from the ledger. A freed
buffer gives them back and stays in its place. Two buffers for a batch are taken together or not
at all: when the second one is refused, the first is given back.
-/

namespace BatchAxpby

namespace DeviceM

variable {σ β : Type} {x : DeviceM σ β} {s t : σ}

def outcome (x : DeviceM σ β) (s : σ) : Outcome β :=
  match x s with
  | .ok v _ => .ok v
  | .error stop _ => .error stop

theorem outcome_of_ok {v : β} (h : x s = .ok v t) : x.outcome s = .ok v := by
  rw [outcome, h]

theorem outcome_of_error {stop : Stop} (h : x s = .error stop t) : x.outcome s = .error stop := by
  rw [outcome, h]

theorem orUndo_of_ok {v : β} (h : x s = .ok v t) (undo : σ → σ) :
    x.orUndo undo s = .ok v t := by
  rw [orUndo, h]

theorem orUndo_of_error {stop : Stop} (h : x s = .error stop t) (undo : σ → σ) :
    x.orUndo undo s = .error stop (undo t) := by
  rw [orUndo, h]

theorem orUndo_eq_ok {v : β} {undo : σ → σ} (h : x.orUndo undo s = .ok v t) : x s = .ok v t := by
  cases hx : x s with
  | ok w u =>
    rw [orUndo_of_ok hx] at h
    exact h
  | error stop u =>
    rw [orUndo_of_error hx] at h
    exact nomatch h

theorem orUndo_eq_error {stop : Stop} {undo : σ → σ} (h : x.orUndo undo s = .error stop t) :
    ∃ u, x s = .error stop u ∧ t = undo u := by
  cases hx : x s with
  | ok w u =>
    rw [orUndo_of_ok hx] at h
    exact nomatch h
  | error stop' u =>
    rw [orUndo_of_error hx] at h
    cases h
    exact ⟨u, rfl, rfl⟩

theorem andFinally_of_ok {v : β} (h : x s = .ok v t) (last : σ → σ) :
    x.andFinally last s = .ok v (last t) := by
  rw [andFinally, h]

theorem andFinally_of_error {stop : Stop} (h : x s = .error stop t) (last : σ → σ) :
    x.andFinally last s = .error stop (last t) := by
  rw [andFinally, h]

theorem andFinally_eq_ok {v : β} {last : σ → σ} (h : x.andFinally last s = .ok v t) :
    ∃ u, x s = .ok v u ∧ t = last u := by
  cases hx : x s with
  | ok w u =>
    rw [andFinally_of_ok hx] at h
    cases h
    exact ⟨u, rfl, rfl⟩
  | error stop u =>
    rw [andFinally_of_error hx] at h
    exact nomatch h

theorem andFinally_eq_error {stop : Stop} {last : σ → σ}
    (h : x.andFinally last s = .error stop t) : ∃ u, x s = .error stop u ∧ t = last u := by
  cases hx : x s with
  | ok w u =>
    rw [andFinally_of_ok hx] at h
    exact nomatch h
  | error stop' u =>
    rw [andFinally_of_error hx] at h
    cases h
    exact ⟨u, rfl, rfl⟩

end DeviceM

theorem modify_append_right {β : Type} (xs ys : Array β) (i : ℕ) (f : β → β) :
    (xs ++ ys).modify (xs.size + i) f = xs ++ ys.modify i f := by
  apply Array.ext_getElem?
  intro j
  rw [Array.getElem?_modify, Array.getElem?_append, Array.getElem?_append, Array.getElem?_modify]
  by_cases hj : j < xs.size
  · rw [if_neg (by omega), if_pos hj, if_pos hj]
  · rw [if_neg hj, if_neg hj]
    exact if_congr (by omega) rfl rfl

/-- Why bytes are not granted: they do not fit the device or the host, or their number or the
sum of all bytes overflows. -/
def Ledger.Short (l : Ledger) (bytes : ℕ) (stop : Stop) : Prop :=
  (∃ n reason, stop = .refused (.resourceExhausted n reason)) ∨
    stop = .fault .overflow ∧ (Word.bound ≤ bytes ∨ bytes ≤ l.free ∧ Word.bound ≤ l.inUse + bytes)

theorem Ledger.Short.refused {l : Ledger} {bytes : ℕ} {stop : Stop} (h : l.Short bytes stop)
    (hpos : 0 < bytes) (hlt : bytes < Word.bound) (hcap : l.capacity < Word.bound) :
    ∃ n reason, stop = .refused (.resourceExhausted n reason) := by
  rcases h with h | ⟨-, hbytes | ⟨hfree, hsum⟩⟩
  · exact h
  · exact absurd hlt (Nat.not_lt.mpr hbytes)
  · unfold Ledger.free at hfree
    omega

namespace Emulator

variable {α : Type} {e : Emulator α}

/-- The device as it was, with dead buffers behind its own. -/
def Restores (e e' : Emulator α) : Prop :=
  ∃ dead : Array (DeviceBuffer α), (∀ b ∈ dead, b.live = false) ∧
    e' = { e with buffers := e.buffers ++ dead }

theorem Restores.refl (e : Emulator α) : e.Restores e :=
  ⟨#[], fun _ hb => absurd hb (Array.not_mem_empty _), by rw [Array.append_empty]⟩

theorem upload_eq_ok {i : ℕ} {cells data : Array α} (h : e.Holds i cells)
    (hsize : cells.size = data.size) : upload i data e = .ok () (e.withCells i data) := by
  rw [upload, h.cells_eq, if_neg (by omega)]
  refine onCells_eq_ok h ?_
  simp [← hsize]

theorem download_eq_ok {i : ℕ} {cells : Array α} (h : e.Holds i cells) :
    download i cells.size e = .ok cells e := by
  rw [download, h.cells_eq, if_neg (Nat.lt_irrefl _), Array.extract_size]

theorem download_cases (i len : ℕ) (e : Emulator α) :
    (∃ data, download i len e = .ok data e) ∨
      ∃ error, download i len e = .error (.refused error) e := by
  unfold download
  simp only
  split_ifs
  · exact Or.inr ⟨_, rfl⟩
  · exact Or.inl ⟨_, rfl⟩

variable [Scalar α]

def withBuffer (e : Emulator α) (cells : Array α) : Emulator α :=
  { e with
    ledger := { e.ledger with inUse := e.ledger.inUse + cells.size * Scalar.width α }
    buffers := e.buffers ++ #[{ cells }] }

def withBatch (e : Emulator α) (a b : Array α) : Emulator α :=
  { e with
    ledger := { e.ledger with inUse := e.ledger.inUse + (a.size + b.size) * Scalar.width α }
    buffers := e.buffers ++ #[{ cells := a }, { cells := b }] }

theorem free_of_live {i : ℕ} {cells : Array α} (h : e.buffers[i]? = some ⟨cells, true⟩) :
    free i e = { e with
      ledger := e.ledger.release (cells.size * Scalar.width α)
      buffers := e.buffers.setIfInBounds i ⟨cells, false⟩ } := by
  rw [free, h]

section NewBuffers

variable (e) (a b : Array α)

theorem size_buffers_withBuffer : (e.withBuffer a).buffers.size = e.buffers.size + 1 := by
  simp [withBuffer]

theorem withBuffer_withBuffer : (e.withBuffer a).withBuffer b = e.withBatch a b := by
  simp only [withBuffer, withBatch, Array.append_assoc, Nat.add_mul, Nat.add_assoc]
  rfl

theorem withBuffer_holds : (e.withBuffer a).Holds e.buffers.size a :=
  ⟨true, by simp [withBuffer]⟩

theorem withBatch_holdsA : (e.withBatch a b).Holds e.buffers.size a :=
  ⟨true, by simp [withBatch]⟩

theorem withBatch_holdsB : (e.withBatch a b).Holds (e.buffers.size + 1) b :=
  ⟨true, by simp [withBatch]⟩

variable {a b}

theorem withBuffer_withCells {a' : Array α} (hsize : a'.size = a.size) :
    (e.withBuffer a).withCells e.buffers.size a' = e.withBuffer a' := by
  have hbuffers := modify_append_right e.buffers #[{ cells := a }] 0
    fun buffer => { buffer with cells := a' }
  rw [Nat.add_zero] at hbuffers
  simp only [withBuffer, withCells, hsize, hbuffers]
  rfl

theorem withBatch_withCellsA {a' : Array α} (hsize : a'.size = a.size) :
    (e.withBatch a b).withCells e.buffers.size a' = e.withBatch a' b := by
  have hbuffers := modify_append_right e.buffers #[{ cells := a }, { cells := b }] 0
    fun buffer => { buffer with cells := a' }
  rw [Nat.add_zero] at hbuffers
  simp only [withBatch, withCells, hsize, hbuffers]
  rfl

theorem withBatch_withCellsB {b' : Array α} (hsize : b'.size = b.size) :
    (e.withBatch a b).withCells (e.buffers.size + 1) b' = e.withBatch a b' := by
  simp only [withBatch, withCells, hsize, modify_append_right]
  rfl

variable (a b)

theorem restores_free_withBuffer : e.Restores (free e.buffers.size (e.withBuffer a)) := by
  have hlive : (e.withBuffer a).buffers[e.buffers.size]? = some ⟨a, true⟩ := by simp [withBuffer]
  refine ⟨#[⟨a, false⟩], by simp, ?_⟩
  rw [free_of_live hlive]
  simp only [withBuffer, Ledger.release, Nat.add_sub_cancel,
    Array.setIfInBounds_append_right le_rfl, Nat.sub_self]
  rfl

theorem restores_free_withBatch :
    e.Restores (free (e.buffers.size + 1) (free e.buffers.size (e.withBatch a b))) := by
  have hliveA : (e.withBatch a b).buffers[e.buffers.size]? = some ⟨a, true⟩ := by simp [withBatch]
  have hliveB : (free e.buffers.size (e.withBatch a b)).buffers[e.buffers.size + 1]? =
      some ⟨b, true⟩ := by
    rw [free_of_live hliveA]
    simp [withBatch]
  have hbytes : e.ledger.inUse + (a.size + b.size) * Scalar.width α - a.size * Scalar.width α -
      b.size * Scalar.width α = e.ledger.inUse := by
    rw [Nat.add_mul]
    omega
  refine ⟨#[⟨a, false⟩, ⟨b, false⟩], by simp, ?_⟩
  rw [free_of_live hliveB, free_of_live hliveA]
  simp only [withBatch, Ledger.release, hbytes, Array.setIfInBounds_append_right le_rfl,
    Array.setIfInBounds_append_right (Nat.le_add_right _ 1), Nat.sub_self, Nat.add_sub_cancel_left]
  rfl

end NewBuffers

variable (host : Host) (spec : EmulatorSpec)

/-- A new buffer of zeros stands behind the others, or the device stays as it is. -/
theorem allocate_cases (len : ℕ) (e : Emulator α) :
    (allocate host len e = .ok e.buffers.size (e.withBuffer (Array.replicate len Scalar.zero)) ∧
      len * Scalar.width α ≤ e.ledger.free) ∨
    ∃ stop, allocate host len e = .error stop e ∧
      e.ledger.Short (len * Scalar.width α) stop := by
  unfold allocate
  by_cases hbytes : len * Scalar.width α < Word.bound
  · rw [outcome_bind_of_fault_ok (Word.mul_eq_ok_iff.mpr ⟨hbytes, rfl⟩), Ledger.reserve]
    by_cases hfree : e.ledger.free < len * Scalar.width α
    · exact Or.inr ⟨_, by rw [if_pos hfree]; rfl, Or.inl ⟨_, _, rfl⟩⟩
    · rw [if_neg hfree]
      by_cases hsum : e.ledger.inUse + len * Scalar.width α < Word.bound
      · rw [Word.add_eq_ok_iff.mpr ⟨hsum, rfl⟩]
        cases hshort : host.shortage? (len * Scalar.width α) with
        | some reason => exact Or.inr ⟨_, rfl, Or.inl ⟨_, _, rfl⟩⟩
        | none =>
          refine Or.inl ⟨?_, Nat.not_lt.mp hfree⟩
          simp only [withBuffer, Array.size_replicate]
          rfl
      · refine Or.inr ⟨.fault .overflow, ?_, Or.inr ⟨rfl, Or.inr ⟨by omega, by omega⟩⟩⟩
        rw [Word.add, if_neg hsum]
        rfl
  · rw [Word.mul, if_neg hbytes]
    exact Or.inr ⟨_, rfl, Or.inr ⟨rfl, Or.inl (Nat.not_lt.mp hbytes)⟩⟩

section Granted

variable {host} (hcap : e.ledger.capacity < Word.bound)

include hcap

theorem allocate_eq_ok {len : ℕ} (hlen : 0 < len) (hfree : len * Scalar.width α ≤ e.ledger.free)
    (hshort : host.shortage? (len * Scalar.width α) = none) : allocate host len e =
      .ok e.buffers.size (e.withBuffer (Array.replicate len Scalar.zero)) := by
  have hpos : 0 < len * Scalar.width α := Nat.mul_pos hlen Scalar.width_pos
  have hbytes := Host.le_maxBytes_of_shortage hshort
  have hlt : e.ledger.inUse + len * Scalar.width α < Word.bound := by
    unfold Ledger.free at hfree
    omega
  unfold allocate
  rw [outcome_bind_of_fault_ok (Word.mul_eq_ok_iff.mpr ⟨by omega, rfl⟩), Ledger.reserve,
    if_neg (Nat.not_lt.mpr hfree), Word.add_eq_ok_iff.mpr ⟨hlt, rfl⟩]
  simp only [hshort, withBuffer, Array.size_replicate]
  rfl

theorem allocateBatch_eq_ok {m n : ℕ} (hm : 0 < m) (hn : 0 < n)
    (hfree : (m + n) * Scalar.width α ≤ e.ledger.free)
    (hshortA : host.shortage? (m * Scalar.width α) = none)
    (hshortB : host.shortage? (n * Scalar.width α) = none) :
    DeviceBatch.allocate (emulator host spec) m n e = .ok ⟨e.buffers.size, e.buffers.size + 1, m, n⟩
      (e.withBatch (Array.replicate m Scalar.zero) (Array.replicate n Scalar.zero)) := by
  rw [Nat.add_mul, Ledger.free] at hfree
  have hA := allocate_eq_ok hcap hm (by rw [Ledger.free]; omega) hshortA
  have hB := allocate_eq_ok (e := e.withBuffer (Array.replicate m Scalar.zero)) hcap hn
    (by simp only [withBuffer, Ledger.free, Array.size_replicate]; omega) hshortB
  rw [size_buffers_withBuffer, withBuffer_withBuffer] at hB
  rw [DeviceBatch.allocate, bind_of_ok (show (emulator host spec).allocate m e = _ from hA)]
  exact bind_of_ok (DeviceM.orUndo_of_ok hB _)

end Granted

theorem allocateBatch_cases (m n : ℕ) (e : Emulator α) :
    DeviceBatch.allocate (emulator host spec) m n e =
        .ok ⟨e.buffers.size, e.buffers.size + 1, m, n⟩
          (e.withBatch (Array.replicate m Scalar.zero) (Array.replicate n Scalar.zero)) ∧
      (m + n) * Scalar.width α ≤ e.ledger.free ∨
    ∃ stop e', DeviceBatch.allocate (emulator host spec) m n e = .error stop e' ∧ e.Restores e' ∧
      (e.ledger.Short (m * Scalar.width α) stop ∨
        (e.withBuffer (Array.replicate m Scalar.zero)).ledger.Short (n * Scalar.width α) stop) := by
  rw [DeviceBatch.allocate]
  rcases allocate_cases host m e with ⟨hA, hfitsA⟩ | ⟨stop, hA, hshort⟩
  · rw [bind_of_ok (show (emulator host spec).allocate m e = _ from hA)]
    rcases allocate_cases host n (e.withBuffer (Array.replicate m Scalar.zero)) with
      ⟨hB, hfitsB⟩ | ⟨stop, hB, hshort⟩
    · rw [size_buffers_withBuffer, withBuffer_withBuffer] at hB
      refine Or.inl ⟨bind_of_ok (DeviceM.orUndo_of_ok hB _), ?_⟩
      simp only [withBuffer, Ledger.free, Array.size_replicate] at hfitsA hfitsB ⊢
      rw [Nat.add_mul]
      omega
    -- The first buffer is given back when there is no room for the second one.
    · exact Or.inr ⟨stop, _, bind_of_error (DeviceM.orUndo_of_error hB _),
        restores_free_withBuffer e _, Or.inr hshort⟩
  · exact Or.inr ⟨stop, e, bind_of_error hA, Restores.refl e, Or.inl hshort⟩

/-- Both operands are uploaded to new buffers, or the device is as it was. -/
theorem uploadBatch_cases (a b : Array α) (e : Emulator α) :
    DeviceBatch.upload (emulator host spec) a b e =
        .ok ⟨e.buffers.size, e.buffers.size + 1, a.size, b.size⟩ (e.withBatch a b) ∧
      (a.size + b.size) * Scalar.width α ≤ e.ledger.free ∨
    ∃ stop e', DeviceBatch.upload (emulator host spec) a b e = .error stop e' ∧ e.Restores e' ∧
      (e.ledger.Short (a.size * Scalar.width α) stop ∨
        (e.withBuffer (Array.replicate a.size Scalar.zero)).ledger.Short
          (b.size * Scalar.width α) stop) := by
  rw [DeviceBatch.upload]
  rcases allocateBatch_cases host spec a.size b.size e with
    ⟨hnew, hfits⟩ | ⟨stop, e', hnew, hrestores, hshort⟩
  · have huploadA := upload_eq_ok (e.withBatch_holdsA (Array.replicate a.size Scalar.zero)
      (Array.replicate b.size Scalar.zero)) (Array.size_replicate ..)
    have huploadB := upload_eq_ok (e.withBatch_holdsB a (Array.replicate b.size Scalar.zero))
      (Array.size_replicate ..)
    rw [e.withBatch_withCellsA (Array.size_replicate ..).symm] at huploadA
    rw [e.withBatch_withCellsB (Array.size_replicate ..).symm] at huploadB
    rw [bind_of_ok hnew]
    exact Or.inl ⟨bind_of_ok (DeviceM.orUndo_of_ok ((bind_of_ok huploadA).trans huploadB) _), hfits⟩
  · exact Or.inr ⟨stop, e', bind_of_error hnew, hrestores, hshort⟩

theorem downloadBatch_eq_ok {x : DeviceBatch} {data : Array α} (h : e.Holds x.b data)
    (hsize : x.sizeB = data.size) : x.download (emulator host spec) data.size e = .ok data e := by
  rw [DeviceBatch.download, if_neg (by rw [hsize]; exact fun hne => hne rfl)]
  exact download_eq_ok h

theorem downloadBatch_cases (x : DeviceBatch) (len : ℕ) (e : Emulator α) :
    (∃ data, x.download (emulator host spec) len e = .ok data e) ∨
      ∃ error, x.download (emulator host spec) len e = .error (.refused error) e := by
  unfold DeviceBatch.download
  split_ifs
  · exact Or.inr ⟨_, rfl⟩
  · exact download_cases x.b len e

end Emulator

end BatchAxpby
