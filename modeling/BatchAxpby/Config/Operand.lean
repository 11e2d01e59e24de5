import BatchAxpby.Error

/-! # Operands

The description of one operand: the storage of an element and the box of cells to update. A
box lists its first row, first column, end row and end column; the ends are left out.
-/

namespace BatchAxpby

structure Operand where
  rows : Nat
  cols : Nat
  box : List Nat
  deriving DecidableEq, Repr

namespace Operand

/-- Entry `i` of the box, which a checked box has for `i < 4`. -/
def entry (o : Operand) (i : Nat) : Except Fault Nat :=
  match o.box[i]? with
  | some x => .ok x
  | none => .error .outOfRange

/-- The storage is not empty and holds the box. -/
def validate (name : String) (o : Operand) : Except Error Unit :=
  if o.rows = 0 ∨ o.cols = 0 then .error (.emptyStorage name)
  else match o.box with
    | [firstRow, firstCol, endRow, endCol] =>
      if endRow < firstRow ∨ endCol < firstCol then .error (.invertedBox name o.box)
      else if o.rows < endRow ∨ o.cols < endCol then
        .error (.outsideBox name o.box o.rows o.cols)
      else .ok ()
    | box => .error (.boxLength name box.length)

def first (o : Operand) : Except Fault Nat := do
  Word.add (← Word.mul o.rows (← o.entry 1)) (← o.entry 0)

def extent (o : Operand) : Except Fault (Nat × Nat) := do
  let rows ← Word.sub (← o.entry 2) (← o.entry 0)
  let cols ← Word.sub (← o.entry 3) (← o.entry 1)
  return (rows, cols)

/-- The values of one element. -/
def size (o : Operand) : Except Fault Nat := Word.mul o.rows o.cols

end Operand

end BatchAxpby
