import BatchAxpby.Error

/-! # Launch geometry

A launch runs `grid` work groups of `block` lanes. A geometry that a device cannot run is
refused before its lanes are counted.
-/

namespace BatchAxpby

structure Geometry where
  grid : Nat
  block : Nat
  deriving DecidableEq, Repr

namespace Geometry

/-- The lanes of all groups. -/
def lanes (g : Geometry) : Nat := g.grid * g.block

/-- The fewest groups of `block` lanes that hold `lanes` lanes, but at least one. They are words if
the lanes are, so they are not checked (compare `Word.divUp`). -/
def cover (lanes block : Nat) : Except Error Geometry :=
  if block = 0 then .error .emptyBlock
  else .ok ⟨max ((lanes + block - 1) / block) 1, block⟩

def totalLanes (g : Geometry) : Except Fault Nat := Word.mul g.grid g.block

/-- Refuses empty launches, groups above the limit and lanes beyond the word range. -/
def check (g : Geometry) (limit : Nat) : Except Error Unit :=
  if g.block = 0 ∨ g.grid = 0 then .error (.emptyLaunch g.grid g.block)
  else if limit < g.block then .error (.wideGroup g.block limit)
  else if Word.bound ≤ g.lanes then .error (.wideLaunch g.grid g.block)
  else .ok ()

end Geometry

end BatchAxpby
