import BatchAxpby.Config.Load
import BatchAxpby.Device.Session
import BatchAxpby.Tool.Directory

/-! # Tools

Each benchmark is a tool that takes its configuration from fixed files of the working
directory, prints a report, and writes it to a file if the settings name one.
-/

namespace BatchAxpby

inductive Tool where
  | accumulate
  | copy
  | roundTrip
  deriving DecidableEq, Repr

/-- Why a tool gives up: contexts from the outermost on, and the error behind them. -/
inductive Trouble where
  | failure (context : List String) (cause : Option Error)
  | fault (fault : Fault)

/-- A tool after its preparation. -/
structure Job where
  /-- The timed part, then the report for the nanoseconds it took. -/
  timed : Unit → Except Trouble (Float → Except Trouble Report)
  reportPath : Option String

namespace Tool

def name : Tool → String
  | accumulate => "csa-bench"
  | copy => "bandwidth"
  | roundTrip => "shared-mem"

def ofName? (name : String) : Option Tool :=
  [accumulate, copy, roundTrip].find? (·.name == name)

def descriptionPath : String := "./params.yaml"

def settingsPath : String := "./config.yaml"

def within {β : Type} (context : String) (x : Outcome β) : Except Trouble β :=
  match x with
  | .ok b => .ok b
  | .error (.refused e) => .error (.failure [context] (some e))
  | .error (.fault f) => .error (.fault f)

/-- A computation that can only stop by a fault. -/
def orFault {β : Type} (x : Except Fault β) : Except Trouble β := x.mapError .fault

abbrev Reader := String → Except FileError String

def readText (read : Reader) (path : String) : Outcome String :=
  match read path with
  | .ok text => .ok text
  | .error e => throw (.refused (.unreadable path e.text))

def loadDescription {α : Type} [Scalar α] (read : Reader) (path : String) :
    Outcome (Description α) := do
  Description.load path (← readText read path)

def loadSettings (read : Reader) (path : String) : Outcome Settings := do
  Settings.load path (← readText read path)

/-- Work on a device, with the state as data. -/
def onDevice {σ β : Type} (x : DeviceM σ β) (s : σ) : Outcome (β × σ) :=
  match x s with
  | .ok b t => .ok (b, t)
  | .error stop _ => .error stop

def select (settings : Settings) : Except Trouble EmulatorSpec :=
  within s!"Failed to initialize device {settings.deviceId}" do
    EmulatorSpec.select settings.deviceId

variable (α : Type) [Scalar α]

def startAccumulate (host : Host) (read : Reader) : Except Trouble Job := do
  let description : Description α ←
    within "Failed to load problem description" (loadDescription read descriptionPath)
  let settings ← within "Failed to load run configuration" (loadSettings read settingsPath)
  let problem ← orFault description.problem
  match settings.surface with
  | .device =>
    let context := "Device benchmark failed"
    let spec ← select settings
    let device := emulator host spec
    let (run, state) ← within context
      (onDevice (Accumulate.prepareDevice device host problem settings) (.start spec))
    return {
      reportPath := settings.reportPath
      timed := fun _ => do
        let _ ← within context (onDevice (run.launches device settings.repeats) state)
        return fun elapsed => do
          let result ← orFault (Accumulate.figures .device (some device.kind.text) problem
            settings run.count elapsed run.mismatches)
          return result.report }
  | surface =>
    let run ← within "Host benchmark failed"
      (Accumulate.prepareHost host surface problem settings)
    return {
      reportPath := settings.reportPath
      timed := fun _ => do
        let _ ← orFault (run.passes settings.repeats)
        return fun elapsed => do
          let result ← orFault (Accumulate.figures surface none problem settings run.count
            elapsed run.mismatches)
          return result.report }

def startCopy (host : Host) (read : Reader) : Except Trouble Job := do
  let settings ← within "Failed to load run configuration" (loadSettings read settingsPath)
  let context := "Copy benchmark failed"
  match settings.surface with
  | .device =>
    let spec ← select settings
    let device : Device α (Emulator α) := emulator host spec
    let (run, state) ← within context
      (onDevice (Copy.prepareDevice device host settings) (.start spec))
    return {
      reportPath := settings.reportPath
      timed := fun _ => do
        let (_, state) ← within context (onDevice (run.launches device settings.repeats) state)
        return fun elapsed => do
          let (result, _) ← within context
            (onDevice (run.finish device host settings elapsed) state)
          return result.report }
  | surface =>
    let run : Copy.HostRun α ← within context (Copy.prepareHost host surface settings)
    return {
      reportPath := settings.reportPath
      timed := fun _ => do
        let target ← orFault (run.copies settings.repeats)
        return fun elapsed => do
          let result ← orFault (run.finish surface settings target elapsed)
          return result.report }

/-- Prepares the round-trip benchmark, which has no host surface. -/
def startRoundTrip (host : Host) (read : Reader) : Except Trouble Job := do
  let settings ← within "Failed to load run configuration" (loadSettings read settingsPath)
  if settings.surface ≠ .device then
    throw (.failure ["the shared-memory benchmark only runs on the device surface, got "
      ++ settings.surface.text] none)
  let context := "Shared-memory benchmark failed"
  let spec ← select settings
  let device : Device α (Emulator α) := emulator host spec
  let (run, state) ← within context
    (onDevice (RoundTrip.prepare device settings.roundTrips) (.start spec))
  return {
    reportPath := settings.reportPath
    timed := fun _ => do
      let (_, state) ← within context (onDevice (run.launch device) state)
      return fun elapsed => do
        let (result, _) ← within context
          (onDevice (run.finish device settings.roundTrips elapsed) state)
        return result.report }

def start (tool : Tool) (host : Host) (read : Reader) : Except Trouble Job :=
  match tool with
  | accumulate => startAccumulate α host read
  | copy => startCopy α host read
  | roundTrip => startRoundTrip α host read

def writeTrouble (tool : Tool) (path : String) (e : FileError) : Trouble :=
  .failure (if tool = accumulate then ["Failed to write report to " ++ path] else [])
    (some (.file e.text))

/-- What a tool leaves behind. -/
structure Ending where
  trouble : Option Trouble
  printed : String
  directory : Directory

/-- Runs a tool in a directory; its timed part took `elapsed` nanoseconds. -/
def run (tool : Tool) (host : Host) (directory : Directory) (elapsed : Float) : Ending :=
  let report : Except Trouble (Report × Option String) := do
    let job ← start α tool host directory.read
    return (← (← job.timed ()) elapsed, job.reportPath)
  match report with
  | .error trouble => ⟨some trouble, "", directory⟩
  | .ok (report, none) => ⟨none, report.render, directory⟩
  | .ok (report, some path) =>
    match directory.write path report.json.file with
    | .ok after => ⟨none, report.render, after⟩
    | .error e => ⟨some (tool.writeTrouble path e), report.render, directory⟩

end Tool

end BatchAxpby
