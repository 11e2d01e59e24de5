import BatchAxpby.Batch.Engine
import BatchAxpby.Bench.Flops
import BatchAxpby.Bench.StopWatch
import BatchAxpby.Config.Settings
import BatchAxpby.Device.Interface
import BatchAxpby.Memory.Budget
import BatchAxpby.Problem.Reference
import BatchAxpby.Random.Seed
import BatchAxpby.Report.Basic

/-! # The update benchmark

A run fills the memory budget with seeded elements and updates all of them again and again.
It has three parts: preparing, the timed passes, and the figures, which need the time taken.
-/

namespace BatchAxpby.Accumulate

structure Result where
  surface : Surface
  addressing : Addressing
  device : Option String
  gigabytes : Float
  count : Nat
  repeats : Nat
  flops : Flops
  totalFlops : Float
  /-- Nanoseconds of all passes. -/
  elapsed : Float
  latency : Float
  gflops : Float
  bandwidth : Float
  /-- The slots that differ from the reference, if the run was compared with it. -/
  mismatches : Option (Array Nat)

namespace Result

def lines (r : Result) : List (String × String) :=
  (r.device.map fun device => ("Device", device)).toList ++
  [("Surface", r.surface.text),
    ("Addressing", r.addressing.text),
    ("Allocated Mem, GB", Decimal.positional r.gigabytes),
    ("Num elements", toString r.count),
    ("Num repeats", toString r.repeats),
    ("Computed Flops", Decimal.scientific r.totalFlops),
    ("Spent time, ms", Decimal.fixed 3 (r.elapsed / 1e6)),
    ("Latency per repeat, us", Decimal.fixed 3 (r.latency / 1e3)),
    ("GFLOPS", Decimal.fixed 3 r.gflops),
    ("Bandwidth, GB/s", Decimal.fixed 3 r.bandwidth)] ++
  (r.mismatches.map fun found => ("Mismatches", toString found.size)).toList

def json (r : Result) : Json :=
  .record
    [("surface", .string r.surface.text),
      ("addressing", .string r.addressing.text),
      ("device", .optional .string r.device),
      ("allocated_mem_gb", .float r.gigabytes),
      ("num_elements", .nat r.count),
      ("num_repeats", .nat r.repeats),
      ("flops", .record
        [("scale_a", .bool r.flops.scaleA),
          ("scale_b", .bool r.flops.scaleB),
          ("add", .bool r.flops.add)]),
      ("computed_flops", .float r.totalFlops),
      ("elapsed_ns", .float r.elapsed),
      ("latency_ns", .float r.latency),
      ("gflops", .float r.gflops),
      ("bandwidth_gb_s", .float r.bandwidth),
      ("mismatches", .optional .nats r.mismatches)]

def report (r : Result) : Report := ⟨r.lines, r.json⟩

end Result

def seedA : UInt64 := 0x5eeda

def seedB : UInt64 := 0x5eedb

variable {α σ : Type} [Scalar α]

/-- How many elements the budget holds; it has to hold one. -/
def plan (p : Problem α) (settings : Settings) : Outcome Nat := do
  let count ← Budget.elements (Scalar.width α) p.slotA p.slotB settings.gigabytes
  if count = 0 then
    throw (.refused
      (.smallBudget (Decimal.positional settings.gigabytes) (← Word.add p.slotA p.slotB)))
  return count

def operands (host : Host) (p : Problem α) (count : Nat) : Outcome (Array α × Array α) := do
  let a ← Random.buffer host seedA (← Word.mul p.slotA count)
  let b ← Random.buffer host seedB (← Word.mul p.slotB count)
  return (a, b)

/-- The figures of a run. Each cell is read from `A` and `B` and written to `B`. -/
def figures (surface : Surface) (device : Option String) (p : Problem α) (settings : Settings)
    (count : Nat) (elapsed : Float) (mismatches : Option (Array Nat)) :
    Except Fault Result := do
  let flops := Flops.ofCoefficients p.update.alpha p.update.beta
  let totalFlops ← flops.total p.update count settings.repeats
  let perElement ← Word.mul (← Word.mul (← p.update.cells) 3) (Scalar.width α)
  let bytes := Word.toFloat perElement * Word.toFloat count * Word.toFloat settings.repeats
  return {
    surface, device, count, flops, totalFlops, elapsed, mismatches
    addressing := settings.addressing
    gigabytes := settings.gigabytes
    repeats := settings.repeats
    latency := elapsed / Word.toFloat settings.repeats
    gflops := perNanosecond totalFlops elapsed
    bandwidth := perNanosecond bytes elapsed }

abbrev Engine (α : Type) := Update α → Array α → Placement → Placement → Nat → BufferM α Unit

def engine : Surface → Except Error (Engine α)
  | .sequential => .ok Batch.sequential
  | .parallel => .ok Batch.parallel
  | .device => .error (.notHostSurface "run_csa_on_device")

/-- A host run before its timed passes. -/
structure HostRun (α : Type) where
  engine : Engine α
  update : Update α
  a : Array α
  b : Array α
  count : Nat
  placementA : Placement
  placementB : Placement
  mismatches : Option (Array Nat)

def HostRun.pass (run : HostRun α) : BufferM α Unit :=
  run.engine run.update run.a run.placementA run.placementB run.count

/-- Sizes and seeds the batch; compares a first pass with the reference if asked to. -/
def prepareHost (host : Host) (surface : Surface) (p : Problem α) (settings : Settings) :
    Outcome (HostRun α) := do
  let engine ← engine surface
  p.validate
  let count ← plan p settings
  let (a, b) ← operands host p count
  let placementA ← p.placementA settings.addressing a.size count
  let placementB ← p.placementB settings.addressing b.size count
  let run : HostRun α :=
    { engine, update := p.update, a, b, count, placementA, placementB, mismatches := none }
  if settings.validates then
    let expected ← (p.reference a count).result b
    let actual ← run.pass.result b
    let found ← p.mismatches actual expected count
    return { run with b := actual, mismatches := some found }
  else return run

/-- The timed part: `repeats` passes over the batch. -/
def HostRun.passes (run : HostRun α) (repeats : Nat) : Except Fault (Array α) :=
  BufferM.result (sweep repeats fun _ => run.pass) run.b

def runOnHost (host : Host) (surface : Surface) (p : Problem α) (settings : Settings)
    (elapsed : Float) : Outcome Result := do
  let run ← prepareHost host surface p settings
  let _ ← run.passes settings.repeats
  figures surface none p settings run.count elapsed run.mismatches

/-- A device run before its timed launches. -/
structure DeviceRun (α : Type) where
  batch : DeviceBatch
  kernel : Kernel α
  geometry : Geometry
  count : Nat
  mismatches : Option (Array Nat)

/-- Launches once and compares the result with the reference. -/
def compareLaunch (device : Device α σ) (host : Host) (p : Problem α) (a b : Array α)
    (run : DeviceRun α) : DeviceM σ (DeviceRun α) := do
  device.launch run.kernel run.geometry
  device.synchronize
  host.reserve (Scalar.width α) b.size
  let actual ← run.batch.download device b.size
  let expected ← (p.reference a run.count).result b
  let found ← p.mismatches actual expected run.count
  return { run with mismatches := some found }

def bind (device : Device α σ) (host : Host) (p : Problem α) (settings : Settings)
    (count : Nat) (a b : Array α) (batch : DeviceBatch) : DeviceM σ (DeviceRun α) := do
  let bases ← p.bases settings.addressing count
  let kernel := .update ⟨p.update, bases, count⟩ batch.a batch.b
  device.prepare kernel
  let geometry ← Geometry.cover count settings.blockSize
  let run : DeviceRun α := { batch, kernel, geometry, count, mismatches := none }
  if settings.validates then compareLaunch device host p a b run else return run

/-- Sizes, seeds and uploads the batch, one lane for each element. Nothing stays on the device
when that fails. -/
def prepareDevice (device : Device α σ) (host : Host) (p : Problem α) (settings : Settings) :
    DeviceM σ (DeviceRun α) := do
  p.validate
  let count ← plan p settings
  let (a, b) ← operands host p count
  let batch ← DeviceBatch.upload device a b
  (bind device host p settings count a b batch).orUndo (batch.free device)

/-- The timed part: launches one after the other, then one wait for all of them. -/
def DeviceRun.launches (device : Device α σ) (run : DeviceRun α) (repeats : Nat) :
    DeviceM σ Unit := do
  sweep repeats fun _ => device.launch run.kernel run.geometry
  device.synchronize

/-- A device run that took `elapsed` nanoseconds. The device memory is given back. -/
def runOnDevice (device : Device α σ) (host : Host) (p : Problem α) (settings : Settings)
    (elapsed : Float) : DeviceM σ Result := do
  let run ← prepareDevice device host p settings
  let timed : DeviceM σ Result := do
    run.launches device settings.repeats
    figures .device (some device.kind.text) p settings run.count elapsed run.mismatches
  timed.andFinally (run.batch.free device)

end BatchAxpby.Accumulate
