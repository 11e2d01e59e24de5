import BatchAxpby.Sweep
import BatchAxpby.Update.Basic
import BatchAxpby.Window

/-! # The update kernel

Two sweeps compute the same update. When both operands are plain the kernel goes down each
column in turn; otherwise it goes along each row. A sweep stops at the first cell that lies
outside one of the operands, and the cells before it keep their new values.
-/

namespace BatchAxpby.Update

variable {α : Type} [Scalar α]

/-- Column by column: each column is cut out of its operand first. -/
def columnSweep (u : Update α) (a : Array α) (wa wb : Window) : BufferM α Unit :=
  sweep u.cols fun col => do
    let columnA ← wa.tail (← Word.mul col u.lda)
    let columnB ← wb.tail (← Word.mul col u.ldb)
    sweep u.rows fun row => do
      let x ← columnA.read a row
      columnB.modify row fun y => Scalar.axpby u.alpha x u.beta y

/-- Row by row: each cell is found by its index in the operand. -/
def rowSweep (u : Update α) (a : Array α) (wa wb : Window) : BufferM α Unit :=
  sweep u.rows fun row =>
    sweep u.cols fun col => do
      let target ← Word.add row (← Word.mul col u.ldb)
      let source ← Word.add row (← Word.mul col u.lda)
      let x ← wa.read a source
      wb.modify target fun y => Scalar.axpby u.alpha x u.beta y

/-- Updates the block of `B` at the start of `wb` from the block of `a` at the start of `wa`. -/
def apply (u : Update α) (a : Array α) (wa wb : Window) : BufferM α Unit :=
  if u.isEmpty then pure ()
  else match u.layoutA, u.layoutB with
    | .plain, .plain => u.columnSweep a wa wb
    | _, _ => u.rowSweep a wa wb

end BatchAxpby.Update
