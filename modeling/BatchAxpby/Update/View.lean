import BatchAxpby.Update.Basic
import BatchAxpby.Window

/-! # Block views

A view reads a block out of a window as a matrix. It is refused when the leading dimension is
short, when a size leaves the signed range, or when the window ends before the block does. The
leading dimension is read as a signed word, so that a large one makes the columns follow each
other backwards.
-/

namespace BatchAxpby

/-- A block of `rows` by `cols` cells at the start of a window. -/
structure View where
  window : Window
  rows : Nat
  cols : Nat
  ld : Nat

namespace View

inductive Misfit where
  | overflow
  | outOfBounds
  deriving DecidableEq, Repr

def Misfit.text : Misfit → String
  | overflow => "ShapeError/Overflow: arithmetic overflow"
  | outOfBounds => "ShapeError/OutOfBounds: out of bounds indexing"

/-- The product of the dimensions that are not zero. -/
def extent (rows cols : Nat) : Nat := max rows 1 * max cols 1

/-- Whether a word is negative as a signed one. -/
def isBackward (stride : Nat) : Bool := Word.maxBytes < stride

/-- How far apart columns are. The least signed word has no magnitude. -/
def distance (stride : Nat) : Except Fault Nat :=
  if !isBackward stride then .ok stride
  else if stride = Word.maxBytes + 1 then .error .overflow
  else .ok (Word.bound - stride)

/-- Whether `size` values of `width` bytes hold a block with columns `stride` apart. -/
def misfit? (width size rows cols stride : Nat) : Except Fault (Option Misfit) := do
  if Word.maxBytes < extent rows cols then return some .overflow
  let last := (rows - 1) + (cols - 1) * (← distance stride)
  if Word.maxBytes < last ∨ Word.maxBytes < last * width then return some .overflow
  if rows = 0 ∨ cols = 0 then return if size < last then some .outOfBounds else none
  return if size ≤ last then some .outOfBounds else none

/-- The view of a block at the start of a window. -/
def ofWindow (width : Nat) (w : Window) (rows cols ld : Nat) : Outcome View := do
  if 0 < rows ∧ 0 < cols ∧ ld < rows then
    throw (.refused (.viewLeading ld rows))
  let length ← span rows cols ld
  match ← misfit? width (min length w.size) rows cols (max ld 1) with
  | some reason =>
    throw (.refused (.viewSize length rows cols ld w.size reason.text))
  | none => pure ⟨w, rows, cols, ld⟩

variable {α : Type}

/-- Where cell `(row, col)` lies in the window. Backwards, the last column lies first. -/
def offset (v : View) (row col : Nat) : Nat :=
  if isBackward v.ld then row + (v.cols - 1 - col) * (Word.bound - v.ld) else row + col * v.ld

def get? (v : View) (data : Array α) (row col : Nat) : Option α :=
  if row < v.rows ∧ col < v.cols then (v.window.read data (v.offset row col)).toOption else none

def toRows (v : View) (data : Array α) : List (List α) :=
  if v.rows = 0 ∨ v.cols = 0 then []
  else (List.range v.rows).map fun row =>
    (List.range v.cols).filterMap fun col => v.get? data row col

/-- Two views of one shape hold equal values cell by cell. -/
def agree [BEq α] (v w : View) (x y : Array α) : Bool :=
  (List.range v.rows).all fun row =>
    (List.range v.cols).all fun col => v.get? x row col == w.get? y row col

end View

end BatchAxpby
