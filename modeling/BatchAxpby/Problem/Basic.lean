import BatchAxpby.Batch.Placement
import BatchAxpby.Update.Basic

/-! # Batch problems

A problem is an update together with the storage of one element: each operand has a slot of
fixed size, and the block starts at a fixed cell of its slot.
-/

namespace BatchAxpby

structure Problem (α : Type) where
  update : Update α
  /-- Values from one element of `A` to the next. -/
  slotA : Nat
  slotB : Nat
  /-- The cell of a slot at which the block starts. -/
  firstA : Nat
  firstB : Nat

namespace Problem

variable {α : Type}

/-- A block of `span` values from `first` on stays inside its slot. -/
def checkSlot (name : String) (first span slot : Nat) : Outcome Unit := do
  if slot < (← Word.add first span) then throw (.refused (.slotOverrun name span first slot))

/-- Columns do not overlap and both blocks stay inside their slots. -/
def validate (p : Problem α) : Outcome Unit := do
  p.update.validate
  let spanA ← p.update.spanA
  let spanB ← p.update.spanB
  checkSlot "offset_a" p.firstA spanA p.slotA
  checkSlot "offset_b" p.firstB spanB p.slotB

/-- Where the blocks of `count` elements lie in a buffer of `size` values. A table lists the
slots from the last one to the first. -/
def placement (addressing : Addressing) (size slot first count : Nat) :
    Except Fault Placement := do
  let blocks ← (Window.whole size).tail first
  match addressing with
  | .strided => return .strided blocks slot
  | .indirect => Placement.reversedChunks blocks slot count

def placementA (p : Problem α) (addressing : Addressing) (size count : Nat) :
    Except Fault Placement :=
  placement addressing size p.slotA p.firstA count

def placementB (p : Problem α) (addressing : Addressing) (size count : Nat) :
    Except Fault Placement :=
  placement addressing size p.slotB p.firstB count

end Problem

end BatchAxpby
