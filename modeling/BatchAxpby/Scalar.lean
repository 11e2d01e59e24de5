/-! # Scalars

The kernels work over any scalar type with decimal literals, a fixed multiply-add and an equality
test that need not be reflexive. The two instances are the single and double precision numbers.
-/

namespace BatchAxpby

class Scalar (α : Type) extends BEq α, OfScientific α where
  zero : α
  one : α
  /-- `axpby alpha x beta y` is `alpha * x + beta * y`. -/
  axpby : α → α → α → α → α
  isFinite : α → Bool
  /-- Bytes of one stored value. -/
  width : Nat
  width_pos : 0 < width
  /-- The nearest scalar to a double precision number. -/
  ofFloat : Float → α
  /-- Words of a random stream that one draw takes. -/
  drawWords : Nat
  /-- Draw `i` from a stream of words, uniform in `[-1, 1)`. -/
  draw : (Nat → UInt32) → Nat → α

instance : Scalar Float32 where
  toBEq := inferInstance
  toOfScientific := inferInstance
  zero := 0
  one := 1
  axpby alpha x beta y := alpha * x + beta * y
  isFinite := Float32.isFinite
  width := 4
  width_pos := by decide
  ofFloat := Float.toFloat32
  drawWords := 1
  draw word i :=
    -- The top 23 bits are the fraction of a number in `[1, 2)`.
    (Float32.ofBits ((0x3f800000 : UInt32) ||| (word i >>> 9)) - 1) * 2 + (-1)

instance : Scalar Float where
  toBEq := inferInstance
  toOfScientific := inferInstance
  zero := 0
  one := 1
  axpby alpha x beta y := alpha * x + beta * y
  isFinite := Float.isFinite
  width := 8
  width_pos := by decide
  ofFloat := id
  drawWords := 2
  draw word i :=
    -- The low word comes first; the top 52 bits are the fraction of a number in `[1, 2)`.
    let bits := (word (2 * i)).toUInt64 ||| ((word (2 * i + 1)).toUInt64 <<< 32)
    (Float.ofBits ((0x3ff0000000000000 : UInt64) ||| (bits >>> 12)) - 1) * 2 + (-1)

end BatchAxpby
