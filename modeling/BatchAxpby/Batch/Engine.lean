import BatchAxpby.Batch.Placement
import BatchAxpby.Update.Kernel

/-! # Batch engines

The sequential engine updates one element after the other. The parallel engine has one task
for each element that the target placement can show, and its tasks may run in any order.
-/

namespace BatchAxpby.Batch

variable {α : Type} [Scalar α]

/-- Updates element `index`: the source is found first, then the target. -/
def element (u : Update α) (a : Array α) (sources targets : Placement) (index : Nat) :
    BufferM α Unit := do
  let source ← sources.resolve index
  let target ← targets.resolve index
  u.apply a source target

/-- Updates the elements `0`, `1`, …, `count - 1` in this order. -/
def sequential (u : Update α) (a : Array α) (sources targets : Placement) (count : Nat) :
    BufferM α Unit :=
  sweep count (element u a sources targets)

/-- The task of element `index`, which owns one piece of the target. -/
def piece (u : Update α) (a : Array α) (sources : Placement) (pieces : Array Window)
    (index : Nat) : BufferM α Unit := do
  let source ← sources.resolve index
  match pieces[index]? with
  | some target => u.apply a source target
  | none => throw .outOfRange

def tasks (u : Update α) (targets : Placement) (count : Nat) : Except Fault (Array Window) :=
  if u.isEmpty ∨ count = 0 then .ok #[]
  else do return (← targets.pieces).extract 0 count

def parallelIn (order : List Nat) (u : Update α) (a : Array α) (sources : Placement)
    (pieces : Array Window) : BufferM α Unit :=
  order.forM (piece u a sources pieces)

/-- The parallel engine. A fault in one task is a fault of the whole. -/
def parallel (u : Update α) (a : Array α) (sources targets : Placement) (count : Nat) :
    BufferM α Unit := do
  let pieces ← tasks u targets count
  parallelIn (List.range pieces.size) u a sources pieces

end BatchAxpby.Batch
