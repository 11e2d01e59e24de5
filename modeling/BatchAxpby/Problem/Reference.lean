import BatchAxpby.Problem.Basic
import BatchAxpby.Update.Kernel
import BatchAxpby.Update.View

/-! # Reference results

The reference applies the update slot by slot, without placements or devices. A result is
compared with it slot by slot, padding included.
-/

namespace BatchAxpby.Problem

variable {α : Type} [Scalar α]

def referenceSlot (p : Problem α) (a : Array α) (sizeB slot : Nat) : BufferM α Unit := do
  let baseA ← Word.add p.firstA (← Word.mul slot p.slotA)
  let blockA ← (Window.whole a.size).tail baseA
  let baseB ← Word.add p.firstB (← Word.mul slot p.slotB)
  let blockB ← (Window.whole sizeB).tail baseB
  p.update.apply a blockA blockB

/-- Updates every slot of `B` in turn. -/
def reference (p : Problem α) (a : Array α) (count : Nat) : BufferM α Unit := fun b =>
  let sizeB := b.size
  sweep count (p.referenceSlot a sizeB) b

/-- Whether two buffers differ in a slot: first in its block, then anywhere in it. -/
def slotDiffers (p : Problem α) (actual expected : Array α) (slot : Nat) : Outcome Bool := do
  let start ← Word.mul slot p.slotB
  let stop ← Word.mul (← Word.add slot 1) p.slotB
  let block ← Word.add p.firstB start
  let view (data : Array α) : Outcome View := do
    View.ofWindow (Scalar.width α) (← (Window.whole data.size).tail block)
      p.update.rows p.update.cols p.update.ldb
  let got ← view actual
  let want ← view expected
  if got.agree want actual expected then
    let slotGot ← (Window.whole actual.size).slice start stop
    let slotWant ← (Window.whole expected.size).slice start stop
    return !(slotGot.values actual == slotWant.values expected)
  else return true

/-- The slots in which two buffers differ. -/
def mismatches (p : Problem α) (actual expected : Array α) (count : Nat) :
    Outcome (Array Nat) :=
  collect count (p.slotDiffers actual expected)

end BatchAxpby.Problem
