import BatchAxpby.Batch.Placement
import BatchAxpby.Decimal.Text
import BatchAxpby.Error

/-! # Run settings

The settings say how large a batch is, how often it is updated, and where: on the host,
element by element or in parallel, or on a device.
-/

namespace BatchAxpby

inductive Surface where
  | sequential
  | parallel
  | device
  deriving DecidableEq, Repr

def Surface.text : Surface → String
  | sequential => "sequential"
  | parallel => "parallel"
  | device => "device"

def Surface.ofText? (text : String) : Option Surface :=
  [sequential, parallel, device].find? (·.text == text)

structure Settings where
  gigabytes : Float
  repeats : Nat
  deviceId : Nat := 0
  surface : Surface := .device
  addressing : Addressing := .strided
  /-- Lanes of a work group. -/
  blockSize : Nat := 64
  /-- Whether one pass is compared with the reference. -/
  validates : Bool := false
  reportPath : Option String := none
  /-- Round trips of the shared-memory benchmark. -/
  roundTrips : Nat := 1000000

namespace Settings

/-- The budget is a positive number and no count is zero. -/
def validate (s : Settings) : Except Error Unit :=
  if !(s.gigabytes.isFinite && s.gigabytes > 0) then
    .error (.badBudget (Decimal.positional s.gigabytes))
  else if s.repeats = 0 then .error (.zeroSetting "num_repeats")
  else if s.blockSize = 0 then .error (.zeroSetting "block_size")
  else if s.roundTrips = 0 then .error (.zeroSetting "shared_mem_repeats")
  else .ok ()

end Settings

end BatchAxpby
