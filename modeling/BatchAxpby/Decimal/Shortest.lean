import BatchAxpby.Decimal.Binary

/-! # Shortest decimals

The shortest decimal of a number is the one with the fewest digits that reads back as the
number; among those it is the nearest. Grids of ever smaller powers of ten are tried until one
has a point that reads back, and only the two neighbours of the number can be such a point.
-/

namespace BatchAxpby.Decimal

/-- A point of a decimal grid: the number `digits * 10 ^ exponent`. -/
structure Point where
  digits : Nat
  exponent : Int
  deriving DecidableEq, Repr

namespace Binary

/-- The numbers that read back as `x`, in quarters of its last place. -/
structure Range where
  low : Nat
  middle : Nat
  high : Nat
  /-- Whether the ends read back as well. -/
  closed : Bool

/-- Below a power of two the next number is only half as far away. -/
def range (x : Binary) : Range where
  low := 4 * x.significand -
    if x.significand = hiddenBit ∧ minExponent < x.exponent then 1 else 2
  middle := 4 * x.significand
  high := 4 * x.significand + 2
  closed := x.significand % 2 = 0

/-- The better of the two multiples of `10 ^ exponent` around `x`, if one reads back. -/
def onGrid? (tie : Tie) (x : Binary) (exponent : Int) : Option Point :=
  let r := x.range
  let (tens, tenths) := powers 10 exponent
  let (twos, halves) := powers 2 (x.exponent - 2)
  let unit := tens * halves
  let scale := tenths * twos
  let readsBack (c : Nat) : Bool :=
    if r.closed then r.low * scale ≤ c * unit && c * unit ≤ r.high * scale
    else r.low * scale < c * unit && c * unit < r.high * scale
  let c := r.middle * scale / unit
  let below := 2 * (r.middle * scale % unit)
  let nearerBelow := below < unit || (below == unit && tie == .even && c % 2 == 0)
  match readsBack c, readsBack (c + 1) with
  | true, true => some ⟨if nearerBelow then c else c + 1, exponent⟩
  | true, false => some ⟨c, exponent⟩
  | false, true => some ⟨c + 1, exponent⟩
  | false, false => none

/-- An exponent of ten above which `x` has no digits. -/
def topExponent (x : Binary) : Int :=
  (x.exponent + x.significand.log2 + 1) * 30103 / 100000 + 1

/-- The shortest decimal that reads back as `x`; of two equally near ones, as `tie` says. -/
def shortest (tie : Tie) (x : Binary) : Point :=
  let top := x.topExponent
  ((List.range 20).findSome? fun i : Nat => x.onGrid? tie (top - i)).getD ⟨x.significand, 0⟩

/-- `x` times `10 ^ places`, to the nearest whole number; a half goes to the even one. -/
def rounded (x : Binary) (places : Nat) : Nat :=
  let (twos, halves) := powers 2 x.exponent
  let scaled := x.significand * twos * Nat.pow 10 places
  let c := scaled / halves
  let below := 2 * (scaled % halves)
  if below < halves || (below == halves && c % 2 == 0) then c else c + 1

end Binary

end BatchAxpby.Decimal
