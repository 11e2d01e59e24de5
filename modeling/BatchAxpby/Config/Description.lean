import BatchAxpby.Config.Operand
import BatchAxpby.Problem.Basic
import BatchAxpby.Scalar

/-! # Problem descriptions

A description gives both operands and the coefficients. Its problem takes the block from the
boxes and the leading dimensions from the storage.
-/

namespace BatchAxpby

structure Description (α : Type) where
  a : Operand
  b : Operand
  alpha : α
  beta : α
  transA : Bool
  transB : Bool

namespace Description

variable {α : Type}

/-- Both operands are sound, the boxes have one shape, and the coefficients are finite. -/
def validate [Scalar α] (d : Description α) : Outcome Unit := do
  d.a.validate "MatA"
  d.b.validate "MatB"
  let blockA ← d.a.extent
  let blockB ← d.b.extent
  if blockA ≠ blockB then
    throw (.refused (.unequalBlocks blockB.1 blockB.2 blockA.1 blockA.2))
  if !Scalar.isFinite d.alpha || !Scalar.isFinite d.beta then
    throw (.refused .endlessCoefficients)

def layout (trans : Bool) : Layout := if trans then .transposed else .plain

def problem (d : Description α) : Except Fault (Problem α) := do
  let (rows, cols) ← d.a.extent
  let update : Update α :=
    { rows, cols, alpha := d.alpha, beta := d.beta, lda := d.a.rows, ldb := d.b.rows
      layoutA := layout d.transA, layoutB := layout d.transB }
  let slotA ← d.a.size
  let slotB ← d.b.size
  let firstA ← d.a.first
  let firstB ← d.b.first
  return { update, slotA, slotB, firstA, firstB }

end Description

end BatchAxpby
