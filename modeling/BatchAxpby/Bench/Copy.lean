import BatchAxpby.Bench.Accumulate

/-! # The copy benchmark

A buffer as large as the budget is copied into another one again and again, and compared with
its source at the end.
-/

namespace BatchAxpby.Copy

structure Result where
  surface : Surface
  device : Option String
  gigabytes : Float
  count : Nat
  repeats : Nat
  /-- Nanoseconds of all copies. -/
  elapsed : Float
  average : Float
  bandwidth : Float
  /-- Whether the target is equal to the source. -/
  verified : Bool

namespace Result

def lines (r : Result) : List (String × String) :=
  (r.device.map fun device => ("Device", device)).toList ++
  [("Surface", r.surface.text),
    ("Allocated Mem, GB", Decimal.positional r.gigabytes),
    ("Time, ms", Decimal.fixed 3 (r.elapsed / 1e6)),
    ("Num. Repeats", toString r.repeats),
    ("Num. Elements", toString r.count),
    ("Achieved bandwidth, GB/s", Decimal.fixed 3 r.bandwidth),
    ("Verified", if r.verified then "true" else "false")]

def json (r : Result) : Json :=
  .record
    [("surface", .string r.surface.text),
      ("device", .optional .string r.device),
      ("allocated_mem_gb", .float r.gigabytes),
      ("num_elements", .nat r.count),
      ("num_repeats", .nat r.repeats),
      ("elapsed_ns", .float r.elapsed),
      ("avg_time_ns", .float r.average),
      ("bandwidth_gb_s", .float r.bandwidth),
      ("verified", .bool r.verified)]

def report (r : Result) : Report := ⟨r.lines, r.json⟩

end Result

variable {α σ : Type} [Scalar α]

/-- The figures of a run. Each value is read once and written once. -/
def figures (width : Nat) (surface : Surface) (device : Option String) (settings : Settings)
    (count : Nat) (elapsed : Float) (verified : Bool) : Except Fault Result := do
  let average := elapsed / Word.toFloat settings.repeats
  let bytes ← Word.mul (← Word.mul 2 count) width
  return {
    surface, device, count, elapsed, average, verified
    gigabytes := settings.gigabytes
    repeats := settings.repeats
    bandwidth := perNanosecond (Word.toFloat bytes) average }

def range (source : Array α) (start stop : Nat) : BufferM α Unit :=
  sweep (stop - start) fun i => do
    let _ ← Lane.copy source stop (start + i)

/-- Values of one task of the parallel copy. -/
def chunkSize : Nat := 65536

def chunk (source : Array α) (i : Nat) : BufferM α Unit :=
  range source (i * chunkSize) (min ((i + 1) * chunkSize) source.size)

def chunksIn (order : List Nat) (source : Array α) : BufferM α Unit :=
  order.forM (chunk source)

def method : Surface → Except Error (Array α → BufferM α Unit)
  | .sequential => .ok fun source => range source 0 source.size
  | .parallel => .ok fun source =>
      chunksIn (List.range ((source.size + chunkSize - 1) / chunkSize)) source
  | .device => .error (.notHostSurface "run_bandwidth_on_device")

structure HostRun (α : Type) where
  method : Array α → BufferM α Unit
  source : Array α
  target : Array α

def prepareHost (host : Host) (surface : Surface) (settings : Settings) :
    Outcome (HostRun α) := do
  let method ← method surface
  let count ← Budget.values (Scalar.width α) settings.gigabytes
  let source ← Random.buffer host Accumulate.seedA count
  host.reserve (Scalar.width α) count
  return { method, source, target := Array.replicate count Scalar.zero }

def HostRun.copies (run : HostRun α) (repeats : Nat) : Except Fault (Array α) :=
  BufferM.result (sweep repeats fun _ => run.method run.source) run.target

def HostRun.finish (run : HostRun α) (surface : Surface) (settings : Settings)
    (target : Array α) (elapsed : Float) : Except Fault Result :=
  figures (Scalar.width α) surface none settings run.source.size elapsed (target == run.source)

def runOnHost (α : Type) [Scalar α] (host : Host) (surface : Surface) (settings : Settings)
    (elapsed : Float) : Outcome Result := do
  let run : HostRun α ← prepareHost host surface settings
  let target ← run.copies settings.repeats
  run.finish surface settings target elapsed

/-- Lanes of a work group of the copy kernel, if the device has as many. -/
def blockSize : Nat := 1024

structure DeviceRun (α : Type) where
  host : Array α
  source : Nat
  target : Nat
  kernel : Kernel α
  geometry : Geometry

def DeviceRun.free (device : Device α σ) (run : DeviceRun α) (s : σ) : σ :=
  device.free run.target (device.free run.source s)

/-- Fills the source and binds the kernel. -/
def bind (device : Device α σ) (values : Array α) (source target : Nat) :
    DeviceM σ (DeviceRun α) := do
  device.upload source values
  let kernel := .copy target source values.size
  device.prepare kernel
  let geometry ← Geometry.cover values.size (min blockSize device.maxGroup)
  return { host := values, source, target, kernel, geometry }

def prepareDevice (device : Device α σ) (host : Host) (settings : Settings) :
    DeviceM σ (DeviceRun α) := do
  let count ← Budget.values (Scalar.width α) settings.gigabytes
  let values ← Random.buffer host Accumulate.seedA count
  let source ← device.allocate count
  let target ← (device.allocate count).orUndo (device.free source)
  (bind device values source target).orUndo fun s => device.free target (device.free source s)

/-- The timed part: launches one after the other, then one wait for all of them. -/
def DeviceRun.launches (device : Device α σ) (run : DeviceRun α) (repeats : Nat) :
    DeviceM σ Unit := do
  sweep repeats fun _ => device.launch run.kernel run.geometry
  device.synchronize

/-- Reads the target back and compares it with the source. -/
def DeviceRun.finish (device : Device α σ) (host : Host) (run : DeviceRun α)
    (settings : Settings) (elapsed : Float) : DeviceM σ Result := do
  let count := run.host.size
  host.reserve (Scalar.width α) count
  let copied ← device.download run.target count
  figures (Scalar.width α) .device (some device.kind.text) settings count elapsed
    (copied == run.host)

/-- A device run that took `elapsed` nanoseconds. The device memory is given back. -/
def runOnDevice (device : Device α σ) (host : Host) (settings : Settings) (elapsed : Float) :
    DeviceM σ Result := do
  let run ← prepareDevice device host settings
  let timed : DeviceM σ Result := do
    run.launches device settings.repeats
    run.finish device host settings elapsed
  timed.andFinally (run.free device)

end BatchAxpby.Copy
