import BatchAxpby.Device.Bases
import BatchAxpby.Update.Kernel

/-! # Lanes

A launch runs the same body once for each lane. A lane says whether it touched memory; lanes
past the end of the work leave it alone.
-/

namespace BatchAxpby

/-- What an update kernel is launched with. -/
structure UpdateArgs (α : Type) where
  update : Update α
  bases : Bases
  count : Nat

namespace Lane

variable {α : Type} [Scalar α]

/-- Lane `i` updates element `i` of the batch. -/
def update (args : UpdateArgs α) (a : Array α) (lane : Nat) : BufferM α Bool := fun b =>
  if args.count ≤ lane then .ok false b
  else
    let windows : Except Fault (Window × Window) := do
      let (baseA, baseB) ← args.bases.resolve lane
      let blockA ← (Window.whole a.size).tail baseA
      let blockB ← (Window.whole b.size).tail baseB
      return (blockA, blockB)
    match windows with
    | .error e => .error e b
    | .ok (blockA, blockB) =>
      match args.update.apply a blockA blockB b with
      | .ok _ b => .ok true b
      | .error e b => .error e b

def copy (source : Array α) (len lane : Nat) : BufferM α Bool := fun target =>
  if len ≤ lane then .ok false target
  else match source[lane]? with
    | none => .error .outOfRange target
    | some x =>
      if h : lane < target.size then .ok true (target.set lane x)
      else .error .outOfRange target

/-- Stores a value in a cell and loads it back, again and again. The result is the cell and
the value loaded last. -/
def roundTrips (magic : α) : (repeats : Nat) → (cell loaded : α) → α × α
  | 0, cell, loaded => (cell, loaded)
  | repeats + 1, _, _ => roundTrips magic repeats magic magic

/-- The memory of a work group: its own cells, and the cells where the lanes leave results. -/
structure Group (α : Type) where
  shared : Array α
  scratch : Array α

/-- Lane `i` sends a value through cell `i` of the group's memory and leaves what it loaded
last in cell `base + i` of the scratch buffer. -/
def roundTrip (magic : α) (repeats base lane : Nat) : EStateM Fault (Group α) Bool := fun g =>
  if h : lane < g.shared.size ∧ base + lane < g.scratch.size then
    let (cell, loaded) := roundTrips magic repeats g.shared[lane] Scalar.zero
    .ok true ⟨g.shared.set lane cell, g.scratch.set (base + lane) loaded⟩
  else .ok false g

/-- Runs the lanes below `lanes` in order and counts those that touched memory. -/
@[specialize] def runAll {σ : Type} (body : Nat → EStateM Fault σ Bool) (lanes : Nat) :
    EStateM Fault σ Nat := fun s => go lanes 0 0 s
where
  @[specialize] go : (remaining lane active : Nat) → σ → EStateM.Result Fault σ Nat
    | 0, _, active, s => .ok active s
    | remaining + 1, lane, active, s =>
      match body lane s with
      | .ok ran t => go remaining (lane + 1) (active + ran.toNat) t
      | .error e t => .error e t

end Lane

end BatchAxpby
