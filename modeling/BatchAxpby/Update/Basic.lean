import BatchAxpby.Error
import BatchAxpby.Scalar

/-! # Block updates

An update is `B := alpha * A + beta * B` on a block of `rows` by `cols` cells. Both operands
are stored column by column, each with its own leading dimension.
-/

namespace BatchAxpby

/-- Which way an operand is swept. Storage is column by column in either case. -/
inductive Layout where
  | plain
  | transposed
  deriving DecidableEq, Repr

structure Update (α : Type) where
  rows : Nat
  cols : Nat
  alpha : α
  beta : α
  lda : Nat
  ldb : Nat
  layoutA : Layout
  layoutB : Layout

/-- Cells from the first to the last cell of a block: `ld * (cols - 1) + rows`. -/
def span (rows cols ld : Nat) : Except Fault Nat :=
  if rows = 0 ∨ cols = 0 then .ok 0
  else do Word.add (← Word.mul ld (cols - 1)) rows

namespace Update

variable {α : Type}

def isEmpty (u : Update α) : Bool := u.rows == 0 || u.cols == 0

def cells (u : Update α) : Except Fault Nat := Word.mul u.rows u.cols

def spanA (u : Update α) : Except Fault Nat := span u.rows u.cols u.lda

def spanB (u : Update α) : Except Fault Nat := span u.rows u.cols u.ldb

/-- Columns do not overlap: both leading dimensions reach the row count. -/
def validate (u : Update α) : Except Error Unit :=
  if u.lda < u.rows then .error (.shortLeading "lda" u.lda u.rows)
  else if u.ldb < u.rows then .error (.shortLeading "ldb" u.ldb u.rows)
  else .ok ()

end Update

end BatchAxpby
