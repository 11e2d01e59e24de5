import BatchAxpby.Device.Interface
import BatchAxpby.Report.Basic

/-! # The round-trip benchmark

One work group of one lane group stores a known value in its own memory and loads it back
again and again. The value that each lane loaded last is checked on the host.
-/

namespace BatchAxpby.RoundTrip

structure Result where
  device : String
  laneSize : Nat
  repeats : Nat
  /-- Nanoseconds of the launch and the wait for it. -/
  elapsed : Float
  terabytes : Float
  bandwidth : Float
  /-- Lanes that did not load the stored value. -/
  mismatches : Array Nat

namespace Result

def lines (r : Result) : List (String × String) :=
  [("Device", r.device),
    ("Lane size", toString r.laneSize),
    ("Num. Repeats", toString r.repeats),
    ("Wall time incl. launch, ms", Decimal.fixed 3 (r.elapsed / 1e6)),
    ("Transferred, TB", Decimal.scientific r.terabytes),
    ("Bandwidth (wall clock), TB/s", Decimal.fixed 6 r.bandwidth),
    ("Mismatches", toString r.mismatches.size)]

def json (r : Result) : Json :=
  .record
    [("device", .string r.device),
      ("lane_size", .nat r.laneSize),
      ("repeats", .nat r.repeats),
      ("elapsed_ns", .float r.elapsed),
      ("transferred_tb", .float r.terabytes),
      ("bandwidth_tb_s", .float r.bandwidth),
      ("mismatches", .nats r.mismatches)]

def report (r : Result) : Report := ⟨r.lines, r.json⟩

end Result

/-- Bytes through the memory of the work group: each lane stores and loads on each trip. -/
def bytes (width repeats laneSize : Nat) : Float :=
  Word.toFloat repeats * Word.toFloat laneSize * Word.toFloat width * 2

variable {α σ : Type} [Scalar α]

def magic : α := 3.25

def mismatches (scratch : Array α) (value : α) : Array Nat :=
  (Array.range scratch.size).filter fun lane =>
    match scratch[lane]? with
    | some x => !(x == value)
    | none => false

structure Run (α : Type) where
  scratch : Nat
  kernel : Kernel α
  geometry : Geometry

def prepare (device : Device α σ) (repeats : Nat) : DeviceM σ (Run α) := do
  let scratch ← device.allocate device.laneSize
  let kernel := .roundTrip scratch magic repeats
  (device.prepare kernel).orUndo (device.free scratch)
  return { scratch, kernel, geometry := ⟨1, device.laneSize⟩ }

def Run.launch (device : Device α σ) (run : Run α) : DeviceM σ Unit := do
  device.launch run.kernel run.geometry
  device.synchronize

/-- Reads the lanes' values back and checks them. -/
def Run.finish (device : Device α σ) (run : Run α) (repeats : Nat) (elapsed : Float) :
    DeviceM σ Result := do
  let scratch ← device.download run.scratch device.laneSize
  let terabytes := bytes (Scalar.width α) repeats device.laneSize / 1099511627776
  let seconds := elapsed / 1e9
  return {
    device := device.kind.text
    laneSize := device.laneSize
    repeats, elapsed, terabytes
    bandwidth := if seconds > 0 then terabytes / seconds else 0
    mismatches := mismatches scratch magic }

/-- A run that took `elapsed` nanoseconds. The device memory is given back. -/
def runOnDevice (device : Device α σ) (repeats : Nat) (elapsed : Float) : DeviceM σ Result := do
  let run ← prepare device repeats
  let timed : DeviceM σ Result := do
    run.launch device
    run.finish device repeats elapsed
  timed.andFinally (device.free run.scratch)

end BatchAxpby.RoundTrip
