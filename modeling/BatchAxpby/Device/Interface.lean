import BatchAxpby.Device.Geometry
import BatchAxpby.Device.Lane

/-! # Devices

A device is given by its operations on a state. Buffers have handles in the order of their
allocation, a kernel is bound to the buffers it works on, and launches run in order.
-/

namespace BatchAxpby

inductive DeviceKind where
  | cpu
  | intel
  | nvidia
  | amd
  | emulated
  deriving DecidableEq, Repr

namespace DeviceKind

def text : DeviceKind → String
  | cpu => "Cpu"
  | intel => "IntelGpu"
  | nvidia => "NvidiaGpu"
  | amd => "AmdGpu"
  | emulated => "Mock"

def ofText? (name : String) : Option DeviceKind :=
  [cpu, intel, nvidia, amd, emulated].find? (·.text == name)

def laneSize : DeviceKind → Nat
  | cpu => 1
  | intel => 16
  | nvidia => 32
  | amd => 64
  | emulated => 32

end DeviceKind

/-- A kernel with its arguments; buffers are named by their handles. -/
inductive Kernel (α : Type) where
  | update (args : UpdateArgs α) (a b : Nat)
  | copy (target source len : Nat)
  | roundTrip (scratch : Nat) (magic : α) (repeats : Nat)

/-- Work on a device, which keeps its state when the work stops early. -/
abbrev DeviceM (σ : Type) := EStateM Stop σ

structure Device (α σ : Type) where
  kind : DeviceKind
  laneSize : Nat
  /-- The most lanes of a work group. -/
  maxGroup : Nat
  /-- A new buffer of zeros. -/
  allocate : (len : Nat) → DeviceM σ Nat
  free : (buffer : Nat) → σ → σ
  /-- Copies host values to the start of a buffer. -/
  upload : (buffer : Nat) → Array α → DeviceM σ Unit
  /-- The first `len` values of a buffer. -/
  download : (buffer len : Nat) → DeviceM σ (Array α)
  prepare : Kernel α → DeviceM σ Unit
  launch : Kernel α → Geometry → DeviceM σ Unit
  synchronize : DeviceM σ Unit

namespace DeviceM

variable {σ β : Type}

/-- Runs `x`; if it stops, `undo` is applied to the state it left. -/
def orUndo (x : DeviceM σ β) (undo : σ → σ) : DeviceM σ β := fun s =>
  match x s with
  | .ok b t => .ok b t
  | .error e t => .error e (undo t)

/-- Runs `x`, then applies `last` to the state, however `x` ended. -/
def andFinally (x : DeviceM σ β) (last : σ → σ) : DeviceM σ β := fun s =>
  match x s with
  | .ok b t => .ok b (last t)
  | .error e t => .error e (last t)

end DeviceM

/-- The two buffers that hold all operands of a batch. -/
structure DeviceBatch where
  a : Nat
  b : Nat
  sizeA : Nat
  sizeB : Nat
  deriving DecidableEq, Repr

namespace DeviceBatch

variable {α σ : Type}

def free (device : Device α σ) (batch : DeviceBatch) (s : σ) : σ :=
  device.free batch.b (device.free batch.a s)

/-- Allocates both buffers, or none. -/
def allocate (device : Device α σ) (sizeA sizeB : Nat) : DeviceM σ DeviceBatch := do
  let a ← device.allocate sizeA
  let b ← (device.allocate sizeB).orUndo (device.free a)
  return { a, b, sizeA, sizeB }

/-- Allocates both buffers and fills them from the host; keeps nothing when that fails. -/
def upload (device : Device α σ) (hostA hostB : Array α) : DeviceM σ DeviceBatch := do
  let batch ← allocate device hostA.size hostB.size
  let fill : DeviceM σ Unit := do
    device.upload batch.a hostA
    device.upload batch.b hostB
  fill.orUndo (batch.free device)
  return batch

/-- The `len` values of `B`, which have to be all of them. -/
def download (device : Device α σ) (batch : DeviceBatch) (len : Nat) : DeviceM σ (Array α) := do
  if len ≠ batch.sizeB then throw (.refused (.wrongLength batch.sizeB len))
  device.download batch.b len

def bytes (width : Nat) (batch : DeviceBatch) : Except Fault Nat := do
  Word.mul (← Word.add batch.sizeA batch.sizeB) width

end DeviceBatch

end BatchAxpby
