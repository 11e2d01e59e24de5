/-! # Checked sizes

Sizes and indices are natural numbers that have to fit a 64-bit word. An operation whose
result does not fit is a fault: the computation stops there without an answer.
-/

namespace BatchAxpby

/-- Why a computation stops without an answer. -/
inductive Fault where
  /-- A sum, difference or product leaves the 64-bit range. -/
  | overflow
  /-- An index or a window reaches outside its storage. -/
  | outOfRange
  /-- Storage was to be cut into chunks of no cells. -/
  | emptyChunk
  /-- One buffer was to be read and written by the same kernel. -/
  | sharedBuffer
  /-- A block of memory is larger than an address can span. -/
  | unaddressable
  deriving DecidableEq, Repr

namespace Word

/-- The first number that does not fit a word. -/
abbrev bound : Nat := 18446744073709551616

/-- The most bytes one allocation can span. -/
abbrev maxBytes : Nat := 9223372036854775807

def add (x y : Nat) : Except Fault Nat :=
  if x + y < bound then .ok (x + y) else .error .overflow

def sub (x y : Nat) : Except Fault Nat :=
  if y ≤ x then .ok (x - y) else .error .overflow

def mul (x y : Nat) : Except Fault Nat :=
  if x * y < bound then .ok (x * y) else .error .overflow

/-- The quotient rounded up: one more than the quotient if there is a remainder. -/
def divUp (x y : Nat) : Except Fault Nat :=
  if x % y = 0 then .ok (x / y) else add (x / y) 1

def toFloat (x : Nat) : Float := x.toUInt64.toFloat

theorem add_eq_ok_iff {x y z : Nat} : add x y = .ok z ↔ x + y < bound ∧ z = x + y := by
  unfold add
  by_cases h : x + y < bound
  · rw [if_pos h]
    exact ⟨fun e => ⟨h, (Except.ok.inj e).symm⟩, fun e => congrArg _ e.2.symm⟩
  · rw [if_neg h]
    exact ⟨(nomatch ·), fun e => absurd e.1 h⟩

theorem sub_eq_ok_iff {x y z : Nat} : sub x y = .ok z ↔ y ≤ x ∧ z = x - y := by
  unfold sub
  by_cases h : y ≤ x
  · rw [if_pos h]
    exact ⟨fun e => ⟨h, (Except.ok.inj e).symm⟩, fun e => congrArg _ e.2.symm⟩
  · rw [if_neg h]
    exact ⟨(nomatch ·), fun e => absurd e.1 h⟩

theorem mul_eq_ok_iff {x y z : Nat} : mul x y = .ok z ↔ x * y < bound ∧ z = x * y := by
  unfold mul
  by_cases h : x * y < bound
  · rw [if_pos h]
    exact ⟨fun e => ⟨h, (Except.ok.inj e).symm⟩, fun e => congrArg _ e.2.symm⟩
  · rw [if_neg h]
    exact ⟨(nomatch ·), fun e => absurd e.1 h⟩

end Word

end BatchAxpby
