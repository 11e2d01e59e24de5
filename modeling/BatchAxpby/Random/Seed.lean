import BatchAxpby.Memory.Host
import BatchAxpby.Random.Keystream
import BatchAxpby.Scalar

/-! # Seeded values

A 64-bit seed grows into a key by a multiplicative generator with permuted output. The key's
stream gives uniform values in `[-1, 1)`, the same ones on every run.
-/

namespace BatchAxpby.Random

/-- One step of the generator that grows a seed. -/
def advance (state : UInt64) : UInt64 := state * 6364136223846793005 + 11634580027462260723

def permute (state : UInt64) : UInt32 :=
  let x := (((state >>> 18) ^^^ state) >>> 27).toUInt32
  let n := (state >>> 59).toUInt32
  (x >>> n) ||| (x <<< ((32 - n) % 32))

/-- The key of a seed: eight outputs, each after one step. -/
def keyOfSeed (seed : UInt64) : Key :=
  let s1 := advance seed
  let s2 := advance s1
  let s3 := advance s2
  let s4 := advance s3
  let s5 := advance s4
  let s6 := advance s5
  let s7 := advance s6
  let s8 := advance s7
  ⟨⟨permute s1, permute s2, permute s3, permute s4⟩,
    ⟨permute s5, permute s6, permute s7, permute s8⟩⟩

variable {α : Type} [Scalar α]

def draws (seed : UInt64) (len : Nat) : Array α :=
  let words := (keyOfSeed seed).words ((len * Scalar.drawWords α + 15) / 16)
  Array.ofFn fun i : Fin len => Scalar.draw (fun j => words.getD j 0) i

/-- A host buffer of the first `len` draws of a seed. -/
def buffer (host : Host) (seed : UInt64) (len : Nat) : Outcome (Array α) := do
  host.reserve (Scalar.width α) len
  return draws seed len

@[simp] theorem size_draws (seed : UInt64) (len : Nat) :
    (draws seed len : Array α).size = len := by
  simp [draws]

end BatchAxpby.Random
