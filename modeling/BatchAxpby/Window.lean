import BatchAxpby.Word
import BatchAxpby.Error

/-! # Windows

A window is a run of consecutive cells of a buffer. Every access to storage goes through a
window, which checks the index before the buffer does.
-/

namespace BatchAxpby

structure Window where
  start : Nat
  size : Nat
  deriving DecidableEq, Repr

/-- Work on a buffer, which keeps what was written when the work stops early. -/
abbrev BufferM (α : Type) := EStateM Fault (Array α)

/-- The buffer after work that does not stop. -/
def BufferM.result {α β : Type} (work : BufferM α β) (data : Array α) : Except Fault (Array α) :=
  match work data with
  | .ok _ after => .ok after
  | .error fault _ => .error fault

namespace Window

variable {α : Type}

def whole (size : Nat) : Window := ⟨0, size⟩

/-- The window from cell `i` on. Dropping every cell leaves an empty window. -/
def tail (w : Window) (i : Nat) : Except Fault Window :=
  if i ≤ w.size then .ok ⟨w.start + i, w.size - i⟩ else .error .outOfRange

def slice (w : Window) (start stop : Nat) : Except Fault Window :=
  if start ≤ stop ∧ stop ≤ w.size then .ok ⟨w.start + start, stop - start⟩
  else .error .outOfRange

/-- Consecutive chunks of `step` cells; the last one may be shorter. -/
def chunks (w : Window) (step : Nat) : Except Fault (Array Window) :=
  if step = 0 then .error .emptyChunk
  else .ok (Array.ofFn fun i : Fin ((w.size + step - 1) / step) =>
    ⟨w.start + i * step, min step (w.size - i * step)⟩)

theorem size_chunks_le {w : Window} {step : Nat} {windows : Array Window}
    (h : w.chunks step = .ok windows) : windows.size ≤ w.size := by
  unfold chunks at h
  split at h
  · exact nomatch h
  · next hstep =>
    cases h
    rw [Array.size_ofFn]
    have hle : w.size ≤ step * w.size := Nat.le_mul_of_pos_left _ (Nat.pos_of_ne_zero hstep)
    exact Nat.le_of_lt_succ (Nat.div_lt_of_lt_mul (by rw [Nat.mul_succ]; omega))

def read (w : Window) (data : Array α) (i : Nat) : Except Fault α :=
  if i < w.size then
    match data[w.start + i]? with
    | some x => .ok x
    | none => .error .outOfRange
  else .error .outOfRange

def modify (w : Window) (i : Nat) (f : α → α) : BufferM α Unit := fun data =>
  if i < w.size then
    if h : w.start + i < data.size then
      .ok () (data.set (w.start + i) (f data[w.start + i]))
    else .error .outOfRange data
  else .error .outOfRange data

/-- The cells of the window that the buffer has. -/
def values (w : Window) (data : Array α) : Array α :=
  data.extract w.start (w.start + w.size)

end Window

end BatchAxpby
