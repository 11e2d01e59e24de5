import BatchAxpby.Window

/-! # Placements

A placement says where the elements of a batch lie in a buffer: a fixed offset apart in one
window, or in a table with one window for each element. It is chosen once; every look-up
after that is the same for both.

A table of tails is as long as it is asked to be, so its bytes are checked against the address
range. A table of chunks has at most one entry for each cell of its window; whoever holds the
window is taken to have room for the table.
-/

namespace BatchAxpby

inductive Addressing where
  | strided
  | indirect
  deriving DecidableEq, Repr

def Addressing.text : Addressing → String
  | strided => "strided"
  | indirect => "indirect"

def Addressing.ofText? (text : String) : Option Addressing :=
  [strided, indirect].find? (·.text == text)

inductive Placement where
  | strided (data : Window) (offset : Nat)
  | indirect (elements : Array Window)
  deriving Repr

namespace Placement

def addressing : Placement → Addressing
  | strided .. => .strided
  | indirect .. => .indirect

/-- The window of element `index`, from its base on. -/
def resolve (p : Placement) (index : Nat) : Except Fault Window :=
  match p with
  | strided data offset => do data.tail (← Word.mul index offset)
  | indirect elements =>
    match elements[index]? with
    | some w => .ok w
    | none => .error .outOfRange

/-- The bytes of one entry of a table. -/
def entryWidth : Nat := 16

/-- A table of `count` tails of a window, `offset` apart. -/
def tails (w : Window) (offset count : Nat) : Except Fault Placement :=
  if Word.maxBytes < count * entryWidth then .error .unaddressable
  else indirect <$> go count #[]
where
  go : Nat → Array Window → Except Fault (Array Window)
    | 0, table => .ok table
    | remaining + 1, table => do
      let base ← Word.mul table.size offset
      go remaining (table.push (← w.tail base))

def firstChunks (w : Window) (offset count : Nat) : Except Fault Placement := do
  return indirect ((← w.chunks offset).extract 0 count)

def reversedChunks (w : Window) (offset count : Nat) : Except Fault Placement := do
  return indirect ((← w.chunks offset).extract 0 count).reverse

/-- A table of chunks has at most one entry for each cell of the window. -/
theorem size_chunkTable_le {w : Window} {offset count : Nat} {table : Array Window}
    (h : firstChunks w offset count = .ok (indirect table) ∨
      reversedChunks w offset count = .ok (indirect table)) : table.size ≤ w.size := by
  unfold firstChunks reversedChunks at h
  cases hchunks : w.chunks offset with
  | error fault =>
    rw [hchunks] at h
    exact h.elim (nomatch ·) (nomatch ·)
  | ok windows =>
    have hle := Window.size_chunks_le hchunks
    rw [hchunks] at h
    rcases h with h | h
    · cases h
      rw [Array.size_extract]
      omega
    · cases h
      rw [Array.size_reverse, Array.size_extract]
      omega

/-- The windows that parallel tasks write to: chunks of a strided window, or the table. -/
def pieces : Placement → Except Fault (Array Window)
  | strided data offset => data.chunks offset
  | indirect elements => .ok elements

end Placement

namespace Batch

/-- The sources of a batch: a fixed offset apart, or a table of tails. -/
def placeSources (addressing : Addressing) (size offset count : Nat) : Except Fault Placement :=
  match addressing with
  | .strided => .ok (.strided (.whole size) offset)
  | .indirect => Placement.tails (.whole size) offset count

/-- The targets of a batch: a fixed offset apart, or a table of chunks. -/
def placeTargets (addressing : Addressing) (size offset count : Nat) : Except Fault Placement :=
  match addressing with
  | .strided => .ok (.strided (.whole size) offset)
  | .indirect => Placement.firstChunks (.whole size) offset count

end Batch

end BatchAxpby
