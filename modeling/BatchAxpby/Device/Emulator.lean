import BatchAxpby.Device.Interface
import BatchAxpby.Device.Ledger
import BatchAxpby.Memory.Host

/-! # Emulated device

The emulator runs every lane of a launch on the host, in order. It keeps a ledger of the live
buffers and counts launches and lanes.
-/

namespace BatchAxpby

structure EmulatorSpec where
  id : Nat := 0
  /-- Bytes of global memory. -/
  memory : Nat := 17179869184
  maxGroup : Nat := 1024
  deriving DecidableEq, Repr

namespace EmulatorSpec

def deviceCount : Nat := 1

def select (id : Nat) : Except Error EmulatorSpec :=
  if deviceCount ≤ id then .error (.unknownDevice id deviceCount) else .ok { id }

def info (spec : EmulatorSpec) : String :=
  "\n".intercalate
    [s!"Device: Mock GPU {spec.id} (Emulated)",
      "Vendor: Host",
      "Compute Units: 96",
      s!"Max Work Group Size: {spec.maxGroup}",
      "Global Memory: " ++ toString (spec.memory / 1048576) ++ " MB"]

end EmulatorSpec

structure LaunchStats where
  launches : Nat := 0
  active : Nat := 0
  idle : Nat := 0
  deriving DecidableEq, Repr

def LaunchStats.record (s : LaunchStats) (active idle : Nat) : Except Fault LaunchStats := do
  let launches ← Word.add s.launches 1
  let active ← Word.add s.active active
  let idle ← Word.add s.idle idle
  return { launches, active, idle }

/-- A buffer keeps its storage after it is freed, for the kernels bound to it. -/
structure DeviceBuffer (α : Type) where
  cells : Array α
  live : Bool := true

structure Emulator (α : Type) where
  ledger : Ledger
  buffers : Array (DeviceBuffer α) := #[]
  stats : LaunchStats := {}

namespace Emulator

variable {α : Type} [Scalar α]

def start (spec : EmulatorSpec) : Emulator α := { ledger := ⟨spec.memory, 0⟩ }

def cells (e : Emulator α) (buffer : Nat) : Array α :=
  match e.buffers[buffer]? with
  | some b => b.cells
  | none => #[]

/-- Works on the cells of one buffer. -/
@[inline] def onCells {β : Type} (buffer : Nat) (work : EStateM Fault (Array α) β) :
    DeviceM (Emulator α) β := fun e =>
  match e.buffers[buffer]? with
  | none => .error (.fault .outOfRange) e
  | some b =>
    let live := b.live
    let cells := b.cells
    -- The table gives the cells up while they are worked on.
    let table := e.buffers.setIfInBounds buffer ⟨#[], live⟩
    match work cells with
    | .ok x cells => .ok x { e with buffers := table.setIfInBounds buffer ⟨cells, live⟩ }
    | .error f cells =>
      .error (.fault f) { e with buffers := table.setIfInBounds buffer ⟨cells, live⟩ }

def allocate (host : Host) (len : Nat) : DeviceM (Emulator α) Nat := fun e =>
  let grant : Outcome Ledger := do
    let bytes ← Word.mul len (Scalar.width α)
    let ledger ← e.ledger.reserve bytes
    match host.shortage? bytes with
    | none => return ledger
    | some reason => throw (.refused (.resourceExhausted bytes reason.text))
  match grant with
  | .error stop => .error stop e
  | .ok ledger =>
    let buffer : DeviceBuffer α := { cells := Array.replicate len Scalar.zero }
    .ok e.buffers.size { e with ledger, buffers := e.buffers.push buffer }

def free (buffer : Nat) (e : Emulator α) : Emulator α :=
  match e.buffers[buffer]? with
  | some ⟨cells, true⟩ =>
    { e with
      ledger := e.ledger.release (cells.size * Scalar.width α)
      buffers := e.buffers.setIfInBounds buffer ⟨cells, false⟩ }
  | _ => e

def upload (buffer : Nat) (data : Array α) : DeviceM (Emulator α) Unit := fun e =>
  let size := (e.cells buffer).size
  if size < data.size then .error (.refused (.longTransfer size data.size)) e
  else onCells buffer (fun cells => .ok () (data ++ cells.extract data.size)) e

def download (buffer len : Nat) : DeviceM (Emulator α) (Array α) := fun e =>
  let cells := e.cells buffer
  if cells.size < len then .error (.refused (.longTransfer cells.size len)) e
  else .ok (cells.extract 0 len) e

/-- Runs the work groups of a round trip, each with its own memory, and counts the lanes that
touched memory. Groups past the end of the buffer do nothing. -/
def roundTripGroups (magic : α) (repeats : Nat) (g : Geometry) : EStateM Fault (Array α) Nat :=
  fun scratch => go g.grid 0 0 scratch
where
  go : (remaining group active : Nat) → Array α → EStateM.Result Fault (Array α) Nat
    | 0, _, active, scratch => .ok active scratch
    | remaining + 1, group, active, scratch =>
      match Word.mul group g.block with
      | .error fault => .error fault scratch
      | .ok base =>
        if scratch.size ≤ base then go remaining (group + 1) active scratch
        else if Word.maxBytes < g.block * Scalar.width α then .error .unaddressable scratch
        else
          let memory := ⟨Array.replicate g.block Scalar.zero, scratch⟩
          match Lane.runAll (Lane.roundTrip magic repeats base) g.block memory with
          | .ok ran after => go remaining (group + 1) (active + ran) after.scratch
          | .error e after => .error e after.scratch

/-- Runs all lanes of a kernel and counts those that touched memory. A kernel cannot read the
buffer that it writes. -/
def runLanes (kernel : Kernel α) (g : Geometry) (lanes : Nat) : DeviceM (Emulator α) Nat :=
  match kernel with
  | .update args a b => fun e =>
    if a = b then .error (.fault .sharedBuffer) e
    else
      let source := e.cells a
      onCells b (Lane.runAll (Lane.update args source) lanes) e
  | .copy target source len => fun e =>
    if target = source then .error (.fault .sharedBuffer) e
    else
      let values := e.cells source
      onCells target (Lane.runAll (Lane.copy values len) lanes) e
  | .roundTrip scratch magic repeats => onCells scratch (roundTripGroups magic repeats g)

/-- Runs a kernel; only a launch that ends is counted. -/
def launch (maxGroup : Nat) (kernel : Kernel α) (g : Geometry) :
    DeviceM (Emulator α) Unit := do
  g.check maxGroup
  let lanes ← g.totalLanes
  let active ← runLanes kernel g lanes
  let idle ← Word.sub lanes active
  let stats ← (← get).stats.record active idle
  modify fun e => { e with stats }

def resetStats (e : Emulator α) : Emulator α := { e with stats := {} }

end Emulator

def emulator {α : Type} [Scalar α] (host : Host) (spec : EmulatorSpec) :
    Device α (Emulator α) where
  kind := .emulated
  laneSize := DeviceKind.emulated.laneSize
  maxGroup := spec.maxGroup
  allocate := Emulator.allocate host
  free := Emulator.free
  upload := Emulator.upload
  download := Emulator.download
  prepare _ := pure ()
  launch := Emulator.launch spec.maxGroup
  synchronize := pure ()

end BatchAxpby
