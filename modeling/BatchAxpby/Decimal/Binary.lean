/-! # Binary numbers

A double precision number is zero, a whole number times a power of two, infinite, or no number
at all. The decimal texts are computed from this form in exact arithmetic.
-/

namespace BatchAxpby.Decimal

/-- The number `significand * 2 ^ exponent`. -/
structure Binary where
  significand : Nat
  exponent : Int
  deriving DecidableEq, Repr

inductive Kind where
  | finite (value : Binary)
  | infinite
  | nan
  deriving DecidableEq, Repr

def minExponent : Int := -1074

/-- The significand of a power of two. -/
def hiddenBit : Nat := 4503599627370496

/-- Reads the bits of a double precision number, without the sign. -/
def kindOfBits (bits : UInt64) : Kind :=
  let fraction := bits.toNat % hiddenBit
  let biased := bits.toNat / hiddenBit % 2048
  if biased = 2047 then if fraction = 0 then .infinite else .nan
  else if biased = 0 then .finite ⟨fraction, minExponent⟩
  else .finite ⟨hiddenBit + fraction, minExponent + (biased - 1)⟩

def kind (x : Float) : Kind := kindOfBits x.toBits

def isNegative (x : Float) : Bool := x.toBits >>> 63 == 1

/-- Which of two equally near decimals is taken. -/
inductive Tie where
  | up
  | even
  deriving DecidableEq, Repr

/-- `2 ^ e` and its inverse, one of which is one: the power is the quotient of the two. -/
def powers (base : Nat) (e : Int) : Nat × Nat := (base.pow e.toNat, base.pow (-e).toNat)

end BatchAxpby.Decimal
