/-! # Keystream

A stream of 32-bit words from a 256-bit key: the ChaCha block function with twelve rounds and
a 64-bit block counter. The blocks of sixteen words follow each other.
-/

namespace BatchAxpby.Random

/-- One row of the four by four state. -/
structure Row where
  w0 : UInt32
  w1 : UInt32
  w2 : UInt32
  w3 : UInt32
  deriving DecidableEq, Repr

namespace Row

@[inline] def zipWith (f : UInt32 → UInt32 → UInt32) (x y : Row) : Row :=
  ⟨f x.w0 y.w0, f x.w1 y.w1, f x.w2 y.w2, f x.w3 y.w3⟩

@[inline] def map (f : UInt32 → UInt32) (x : Row) : Row :=
  ⟨f x.w0, f x.w1, f x.w2, f x.w3⟩

@[inline] def add (x y : Row) : Row := zipWith (· + ·) x y

/-- Adds bits without carry, then rotates each word to the left. -/
@[inline] def mix (n : UInt32) (x y : Row) : Row :=
  (zipWith (· ^^^ ·) x y).map fun w => (w <<< n) ||| (w >>> (32 - n))

/-- Moves every word one place to the left, the first word to the end. -/
def turn (x : Row) : Row := ⟨x.w1, x.w2, x.w3, x.w0⟩

def toList (x : Row) : List UInt32 := [x.w0, x.w1, x.w2, x.w3]

end Row

/-- The state of the block function, row by row. -/
structure State where
  a : Row
  b : Row
  c : Row
  d : Row
  deriving DecidableEq, Repr

namespace State

/-- The quarter rounds of the four columns. -/
def columnRound (s : State) : State :=
  let a := s.a.add s.b
  let d := s.d.mix 16 a
  let c := s.c.add d
  let b := s.b.mix 12 c
  let a := a.add b
  let d := d.mix 8 a
  let c := c.add d
  let b := b.mix 7 c
  ⟨a, b, c, d⟩

/-- Brings the diagonals into the columns. -/
def skew (s : State) : State := ⟨s.a, s.b.turn, s.c.turn.turn, s.d.turn.turn.turn⟩

def unskew (s : State) : State := ⟨s.a, s.b.turn.turn.turn, s.c.turn.turn, s.d.turn⟩

def doubleRound (s : State) : State := s.columnRound.skew.columnRound.unskew

def add (s t : State) : State := ⟨s.a.add t.a, s.b.add t.b, s.c.add t.c, s.d.add t.d⟩

def toList (s : State) : List UInt32 :=
  s.a.toList ++ s.b.toList ++ s.c.toList ++ s.d.toList

end State

structure Key where
  low : Row
  high : Row
  deriving DecidableEq, Repr

namespace Key

def start (k : Key) (counter : Nat) : State where
  a := ⟨0x61707865, 0x3320646e, 0x79622d32, 0x6b206574⟩
  b := k.low
  c := k.high
  d := ⟨counter.toUInt32, (counter / 4294967296).toUInt32, 0, 0⟩

/-- Sixteen words of the stream: twelve rounds, then the first state is added. -/
def block (k : Key) (counter : Nat) : State :=
  let s := k.start counter
  (Nat.repeat State.doubleRound 6 s).add s

def words (k : Key) (blocks : Nat) : Array UInt32 :=
  go blocks 0 #[]
where
  go : (remaining counter : Nat) → Array UInt32 → Array UInt32
    | 0, _, out => out
    | remaining + 1, counter, out =>
      go remaining (counter + 1) (out ++ (k.block counter).toList)

end Key

end BatchAxpby.Random
