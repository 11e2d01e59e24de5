/-! # Time

A stop watch adds up the time between its starts and stops. It is given the reading of a
clock in nanoseconds each time.
-/

namespace BatchAxpby

structure StopWatch where
  started : Option Nat := none
  elapsed : Nat := 0
  deriving DecidableEq, Repr

namespace StopWatch

/-- Starts the watch; a watch that runs already starts again. -/
def start (now : Nat) (w : StopWatch) : StopWatch := { w with started := some now }

def stop (now : Nat) (w : StopWatch) : StopWatch :=
  match w.started with
  | some since => ⟨none, w.elapsed + (now - since)⟩
  | none => w

end StopWatch

/-- An amount per nanosecond, or zero when no time was measured. -/
def perNanosecond (amount elapsed : Float) : Float :=
  if elapsed > 0 then amount / elapsed else 0

end BatchAxpby
