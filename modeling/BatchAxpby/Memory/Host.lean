import BatchAxpby.Error

/-! # Host memory

Which requests the host can meet is a parameter of every run. A request beyond the address
range is refused whatever the host has. Only buffers of values are asked for in this way: tables
of windows, tables of bases and the copy of `B` that the reference updates are taken to be met,
whatever `admits` says.
-/

namespace BatchAxpby

structure Host where
  /-- Whether a request for this many bytes can be met. -/
  admits : Nat → Bool

namespace Host

/-- A host that can meet every request up to `2 ^ 50` bytes. -/
def standard : Host := ⟨fun bytes => bytes ≤ 1125899906842624⟩

inductive Shortage where
  | tooLarge
  | noMemory
  deriving DecidableEq, Repr

def Shortage.text : Shortage → String
  | tooLarge => "memory allocation failed because the computed capacity exceeded " ++
      "the collection's maximum"
  | noMemory => "memory allocation failed because the memory allocator returned an error"

/-- Why the host cannot hold `bytes` bytes, if it cannot. -/
def shortage? (host : Host) (bytes : Nat) : Option Shortage :=
  if Word.maxBytes < bytes then some .tooLarge
  else if host.admits bytes then none
  else some .noMemory

theorem le_maxBytes_of_shortage {host : Host} {bytes : Nat} (h : host.shortage? bytes = none) :
    bytes ≤ Word.maxBytes := by
  unfold shortage? at h
  split at h
  · exact nomatch h
  · omega

def reserve (host : Host) (width len : Nat) : Outcome Unit :=
  match host.shortage? (len * width) with
  | none => return
  | some reason => do
    let bytes ← Word.mul len width
    throw (.refused (.hostExhausted bytes reason.text))

end Host

end BatchAxpby
