import BatchAxpby.Bench.Copy
import BatchAxpby.Bench.RoundTrip
import BatchAxpby.Device.Emulator

/-! # Device sessions

A session gives commands to one emulated device. Buffers, batches and kernels have handles of
their own, counted in the order in which they were made; a handle that was given back is gone.
-/

namespace BatchAxpby

inductive Command (α : Type) where
  | allocate (len : Nat)
  | free (buffer : Nat)
  | length (buffer : Nat)
  | write (buffer : Nat) (data : Array α)
  | read (buffer len : Nat)
  | allocateBatch (sizeA sizeB : Nat)
  | uploadBatch (a b : Array α)
  | freeBatch (batch : Nat)
  | downloadBatch (batch len : Nat)
  | describeBatch (batch : Nat)
  | bindUpdate (args : UpdateArgs α) (a b : Nat)
  | bindBatch (args : UpdateArgs α) (batch : Nat)
  | bindCopy (target source len : Nat)
  | bindRoundTrip (scratch : Nat) (magic : α) (repeats : Nat)
  | launch (kernel : Nat) (geometry : Geometry)
  /-- A launch with as many groups as `lanes` lanes need. -/
  | launchCover (kernel lanes block : Nat)
  | synchronize
  | resetStats
  | accumulate (problem : Problem α) (settings : Settings) (elapsed : Float)
  | copy (settings : Settings) (elapsed : Float)
  | roundTrip (repeats : Nat) (elapsed : Float)

inductive Reply (α : Type) where
  | done
  | handle (index : Nat)
  | length (len : Nat)
  | values (data : Array α)
  | batch (bytes : Nat) (batch : DeviceBatch)
  | accumulated (result : Accumulate.Result)
  | copied (result : Copy.Result)
  | roundTripped (result : RoundTrip.Result)

structure Session (α : Type) where
  device : Emulator α
  buffers : Array (Option Nat) := #[]
  batches : Array (Option DeviceBatch) := #[]
  kernels : Array (Kernel α) := #[]

namespace Session

variable {α β : Type}

abbrev Step (α : Type) := Outcome (Reply α) × Session α

/-- Works on the device; `next` makes the reply and changes the handles. -/
def work (s : Session α) (x : DeviceM (Emulator α) β)
    (next : β → Session α → Reply α × Session α) : Step α :=
  match x s.device with
  | .ok b device =>
    let (reply, s) := next b { s with device }
    (.ok reply, s)
  | .error stop device => (.error stop, { s with device })

def reply (make : β → Reply α) (b : β) (s : Session α) : Reply α × Session α := (make b, s)

def addBuffer (buffer : Nat) (s : Session α) : Reply α × Session α :=
  (.handle s.buffers.size, { s with buffers := s.buffers.push (some buffer) })

def addBatch (batch : DeviceBatch) (s : Session α) : Reply α × Session α :=
  (.handle s.batches.size, { s with batches := s.batches.push (some batch) })

def addKernel (kernel : Kernel α) (s : Session α) : Reply α × Session α :=
  (.handle s.kernels.size, { s with kernels := s.kernels.push kernel })

def buffer? (s : Session α) (handle : Nat) : Option Nat := (s.buffers[handle]?).join

def batch? (s : Session α) (handle : Nat) : Option DeviceBatch := (s.batches[handle]?).join

variable [Scalar α]

/-- Obeys one command. There is no step for a handle that names nothing. -/
def step? (host : Host) (spec : EmulatorSpec) (s : Session α) : Command α → Option (Step α)
  | .allocate len => some (s.work (device.allocate len) addBuffer)
  | .free handle => do
    let buffer ← s.buffer? handle
    some (.ok .done,
      { s with
        device := device.free buffer s.device
        buffers := s.buffers.setIfInBounds handle none })
  | .length handle => do
    let buffer ← s.buffer? handle
    some (.ok (.length (s.device.cells buffer).size), s)
  | .write handle data => do
    let buffer ← s.buffer? handle
    some (s.work (device.upload buffer data) (reply fun _ => .done))
  | .read handle len => do
    let buffer ← s.buffer? handle
    some (s.work (device.download buffer len) (reply .values))
  | .allocateBatch sizeA sizeB => some (s.work (DeviceBatch.allocate device sizeA sizeB) addBatch)
  | .uploadBatch a b => some (s.work (DeviceBatch.upload device a b) addBatch)
  | .freeBatch handle => do
    let batch ← s.batch? handle
    some (.ok .done,
      { s with
        device := batch.free device s.device
        batches := s.batches.setIfInBounds handle none })
  | .downloadBatch handle len => do
    let batch ← s.batch? handle
    some (s.work (batch.download device len) (reply .values))
  | .describeBatch handle => do
    let batch ← s.batch? handle
    match batch.bytes (Scalar.width α) with
    | .ok bytes => some (.ok (.batch bytes batch), s)
    | .error fault => some (.error (.fault fault), s)
  | .bindUpdate args a b => do
    let a ← s.buffer? a
    let b ← s.buffer? b
    bind (.update args a b)
  | .bindBatch args handle => do
    let batch ← s.batch? handle
    bind (.update args batch.a batch.b)
  | .bindCopy target source len => do
    let target ← s.buffer? target
    let source ← s.buffer? source
    bind (.copy target source len)
  | .bindRoundTrip scratch magic repeats => do
    let scratch ← s.buffer? scratch
    bind (.roundTrip scratch magic repeats)
  | .launch handle geometry => do
    let kernel ← s.kernels[handle]?
    some (s.work (device.launch kernel geometry) (reply fun _ => .done))
  | .launchCover handle lanes block => do
    let kernel ← s.kernels[handle]?
    let launch : DeviceM (Emulator α) Unit := do
      device.launch kernel (← Geometry.cover lanes block)
    some (s.work launch (reply fun _ => .done))
  | .synchronize => some (s.work device.synchronize (reply fun _ => .done))
  | .resetStats => some (.ok .done, { s with device := s.device.resetStats })
  | .accumulate problem settings elapsed =>
    some (s.work (Accumulate.runOnDevice device host problem settings elapsed)
      (reply .accumulated))
  | .copy settings elapsed =>
    some (s.work (Copy.runOnDevice device host settings elapsed) (reply .copied))
  | .roundTrip repeats elapsed =>
    some (s.work (RoundTrip.runOnDevice device repeats elapsed) (reply .roundTripped))
where
  device : Device α (Emulator α) := emulator host spec
  bind (kernel : Kernel α) : Option (Step α) :=
    some (s.work (device.prepare kernel) fun _ => addKernel kernel)

def start (spec : EmulatorSpec) : Session α := { device := .start spec }

end Session

end BatchAxpby
