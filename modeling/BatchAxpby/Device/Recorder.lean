import BatchAxpby.Device.Interface

/-! # Recorded devices

A recorder stands before a device and writes down the calls it passes on. It can make a call
fail, skip launches, and change the values that come back to the host. No benchmark or tool runs
on one: it is there to test the programs that do run on a device.
-/

namespace BatchAxpby

inductive DeviceCall (α : Type) where
  | allocate (len : Nat)
  | upload (len : Nat)
  | download (len : Nat)
  | prepare (kernel : Kernel α)
  | launch (geometry : Geometry)
  | synchronize

structure Interference (α : Type) where
  /-- The call that fails. -/
  failAt : Option Nat := none
  /-- Launches from this one on do nothing. -/
  skipFrom : Option Nat := none
  /-- Values written over what is downloaded, by their places. -/
  corrupt : List (Nat × α) := []

structure Recorded (α σ : Type) where
  inner : σ
  calls : Array (DeviceCall α) := #[]
  launches : Nat := 0

namespace Recorded

variable {α σ β : Type}

def inside (x : DeviceM σ β) : DeviceM (Recorded α σ) β := fun s =>
  match x s.inner with
  | .ok b inner => .ok b { s with inner }
  | .error e inner => .error e { s with inner }

/-- Writes a call down and passes it on, unless it is the one that fails. -/
def record (plan : Interference α) (call : DeviceCall α) (x : DeviceM (Recorded α σ) β) :
    DeviceM (Recorded α σ) β := do
  let index := (← get).calls.size
  modify fun s => { s with calls := s.calls.push call }
  if plan.failAt = some index then throw (.refused (.launch s!"injected at call {index}"))
  x

/-- Writes values over those of an array, where it has them. -/
def overwrite (data : Array α) (values : List (Nat × α)) : Array α :=
  values.foldl (fun data value => data.setIfInBounds value.1 value.2) data

def device (kind : DeviceKind) (plan : Interference α) (d : Device α σ) :
    Device α (Recorded α σ) where
  kind := kind
  laneSize := kind.laneSize
  maxGroup := d.maxGroup
  allocate len := record plan (.allocate len) (inside (d.allocate len))
  free buffer s := { s with inner := d.free buffer s.inner }
  upload buffer data := record plan (.upload data.size) (inside (d.upload buffer data))
  download buffer len := record plan (.download len) do
    return overwrite (← inside (d.download buffer len)) plan.corrupt
  prepare kernel := record plan (.prepare kernel) (inside (d.prepare kernel))
  launch kernel g := record plan (.launch g) do
    let number := (← get).launches
    modify fun s => { s with launches := number + 1 }
    match plan.skipFrom with
    | some start => if start ≤ number then return
    | none => pure ()
    inside (d.launch kernel g)
  synchronize := record plan .synchronize (inside d.synchronize)

end Recorded

end BatchAxpby
