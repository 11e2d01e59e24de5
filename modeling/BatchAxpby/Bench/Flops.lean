import BatchAxpby.Scalar
import BatchAxpby.Update.Basic

/-! # Operation counts

Scaling by zero or one is free, and a sum counts only when both terms contribute. The kernels
always do the whole multiply-add; the count is for the figures of a report.
-/

namespace BatchAxpby

/-- Which operations are charged for a cell. -/
structure Flops where
  scaleA : Bool
  scaleB : Bool
  add : Bool
  deriving DecidableEq, Repr

namespace Flops

variable {α : Type} [Scalar α]

def ofCoefficients (alpha beta : α) : Flops :=
  let isZero (x : α) := x == Scalar.zero
  let isOne (x : α) := x == Scalar.one
  { scaleA := !isZero alpha && !isOne alpha
    scaleB := !isZero beta && !isOne beta
    add := !isZero alpha && !isZero beta }

def perCell (f : Flops) : Nat := f.scaleA.toNat + f.scaleB.toNat + f.add.toNat

def perElement (f : Flops) (u : Update α) : Except Fault Nat := do
  Word.mul f.perCell (← u.cells)

/-- Operations of `repeats` passes over `count` elements. -/
def total (f : Flops) (u : Update α) (count repeats : Nat) : Except Fault Float := do
  return Word.toFloat (← f.perElement u) * Word.toFloat count * Word.toFloat repeats

end Flops

end BatchAxpby
