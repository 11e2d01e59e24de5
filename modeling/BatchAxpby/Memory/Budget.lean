import BatchAxpby.Decimal.Text
import BatchAxpby.Error

/-! # Memory budgets

A budget is given in gigabytes of `2 ^ 30` bytes. It is rounded down to whole bytes, and
shared among elements of equal size.
-/

namespace BatchAxpby.Budget

/-- The bytes of a budget. Negative budgets and those that are no number hold none; budgets
beyond the word range hold the largest word. -/
def bytes (gigabytes : Float) : Nat :=
  (gigabytes * 1073741824).toUInt64.toNat

def elements (width sizeA sizeB : Nat) (gigabytes : Float) : Except Fault Nat := do
  let size ← Word.mul (← Word.add sizeA sizeB) width
  return bytes gigabytes / size

/-- How many values of a copy buffer fit the budget, which has to hold one. -/
def values (width : Nat) (gigabytes : Float) : Except Error Nat :=
  let count := bytes gigabytes / width
  if count = 0 then .error (.smallCopyBudget (Decimal.positional gigabytes))
  else .ok count

end BatchAxpby.Budget
