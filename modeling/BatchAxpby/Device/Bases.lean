import BatchAxpby.Problem.Basic

/-! # Device bases

On a device both operands are whole buffers, and an element is found by its two base indices.
They lie at fixed distances, or stand in two tables of 32-bit indices.
-/

namespace BatchAxpby

inductive Bases where
  | strided (firstA firstB offsetA offsetB : Nat)
  | indirect (tableA tableB : Array UInt32)
  deriving DecidableEq, Repr

namespace Bases

def addressing : Bases → Addressing
  | strided .. => .strided
  | indirect .. => .indirect

/-- The bases of element `index` in `A` and in `B`. -/
def resolve (bases : Bases) (index : Nat) : Except Fault (Nat × Nat) :=
  match bases with
  | strided firstA firstB offsetA offsetB => do
    let a ← Word.add firstA (← Word.mul index offsetA)
    let b ← Word.add firstB (← Word.mul index offsetB)
    return (a, b)
  | indirect tableA tableB =>
    match tableA[index]?, tableB[index]? with
    | some a, some b => .ok (a.toNat, b.toNat)
    | _, _ => .error .outOfRange

/-- The bases of `count` slots, from the last slot to the first. A base beyond the 32-bit
range is refused. -/
def table (first offset count : Nat) : Outcome (Array UInt32) :=
  go count #[]
where
  go : Nat → Array UInt32 → Outcome (Array UInt32)
    | 0, bases => .ok bases
    | slot + 1, bases => do
      let base ← Word.add first (← Word.mul slot offset)
      if base < 4294967296 then go slot (bases.push base.toUInt32)
      else throw (.refused (.wideBase base))

end Bases

def Problem.bases {α : Type} (p : Problem α) (addressing : Addressing) (count : Nat) :
    Outcome Bases :=
  match addressing with
  | .strided => return .strided p.firstA p.firstB p.slotA p.slotB
  | .indirect => do
    let tableA ← Bases.table p.firstA p.slotA count
    let tableB ← Bases.table p.firstB p.slotB count
    return .indirect tableA tableB

end BatchAxpby
