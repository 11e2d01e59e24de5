/-! # Sweeps

A task works on a state and may stop early; when it stops, the state it reached is kept.
A sweep runs a task for each index in turn and stops with the first task that stops.
-/

namespace BatchAxpby

variable {ε σ : Type}

@[specialize] def sweepFrom (task : Nat → EStateM ε σ Unit) :
    (count start : Nat) → σ → EStateM.Result ε σ Unit
  | 0, _, s => .ok () s
  | count + 1, start, s =>
    match task start s with
    | .ok _ t => sweepFrom task count (start + 1) t
    | .error e t => .error e t

/-- Runs `task 0`, `task 1`, …, `task (count - 1)`. -/
@[inline] def sweep (count : Nat) (task : Nat → EStateM ε σ Unit) : EStateM ε σ Unit :=
  fun s => sweepFrom task count 0 s

/-- The indices below `count` that pass a test, which may stop. -/
def collect (count : Nat) (test : Nat → Except ε Bool) : Except ε (Array Nat) :=
  let task (i : Nat) : EStateM ε (Array Nat) Unit := fun found =>
    match test i with
    | .ok true => .ok () (found.push i)
    | .ok false => .ok () found
    | .error e => .error e found
  match sweep count task #[] with
  | .ok _ found => .ok found
  | .error e _ => .error e

theorem sweepFrom_succ_of_ok {task : Nat → EStateM ε σ Unit} {count start : Nat} {s t : σ}
    (h : task start s = .ok () t) :
    sweepFrom task (count + 1) start s = sweepFrom task count (start + 1) t := by
  simp [sweepFrom, h]

theorem sweepFrom_succ_of_error {task : Nat → EStateM ε σ Unit} {count start : Nat} {e : ε}
    {s t : σ} (h : task start s = .error e t) :
    sweepFrom task (count + 1) start s = .error e t := by
  simp [sweepFrom, h]

end BatchAxpby
