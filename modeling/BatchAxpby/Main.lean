import BatchAxpby.Tool.Basic

/-! # Command line

The argument names the benchmark; without one the update benchmark runs. Configuration is
read from the working directory, the report goes to standard output.
-/

namespace BatchAxpby.Main

def fileError : IO.Error → FileError
  | .noFileOrDirectory .. => .notFound
  | .inappropriateType _ code _ => if code = 21 then .isFolder else .notFolder
  | .invalidArgument _ code _ => if code = 22 then .nulByte else .nameTooLong
  | e => .other (toString e)

def readFile (path : String) : IO (Except FileError String) := do
  match ← (IO.FS.readBinFile path).toBaseIO with
  | .error e => return .error (fileError e)
  | .ok bytes =>
    match String.fromUTF8? bytes with
    | some text => return .ok text
    | none => return .error .notText

def writeFile (path text : String) : IO (Except FileError Unit) := do
  match ← (IO.FS.writeFile path text).toBaseIO with
  | .error e => return .error (fileError e)
  | .ok _ => return .ok ()

def reader : IO Tool.Reader := do
  let description ← readFile Tool.descriptionPath
  let settings ← readFile Tool.settingsPath
  return fun path =>
    if path = Tool.descriptionPath then description
    else if path = Tool.settingsPath then settings
    else .error .notFound

/-- Tells why a tool gave up; the result is its exit code. -/
def complain : Trouble → IO UInt32
  | .fault _ => do
    IO.eprintln "Error: computation out of range"
    return 101
  | .failure context cause => do
    match context ++ (cause.map Error.message).toList with
    | [] => pure ()
    | first :: rest =>
      IO.eprintln ("Error: " ++ first)
      if !rest.isEmpty then
        IO.eprintln ("\nCaused by:\n    " ++ "\n    ".intercalate rest)
    return 1

/-- Runs the timed part of a job between two readings of the clock. -/
def measure (job : Job) : IO (Except Trouble Report) := do
  let watch := StopWatch.start (← IO.monoNanosNow) {}
  match job.timed () with
  | .error trouble => return .error trouble
  | .ok finish =>
    let watch := watch.stop (← IO.monoNanosNow)
    return finish (Word.toFloat watch.elapsed)

def run (tool : Tool) : IO UInt32 := do
  match Tool.start Float32 tool Host.standard (← reader) with
  | .error trouble => complain trouble
  | .ok job =>
    match ← measure job with
    | .error trouble => complain trouble
    | .ok report =>
      IO.print report.render
      match job.reportPath with
      | none => return 0
      | some path =>
        match ← writeFile path report.json.file with
        | .ok _ => return 0
        | .error e => complain (tool.writeTrouble path e)

end BatchAxpby.Main

def main (args : List String) : IO UInt32 := do
  match BatchAxpby.Tool.ofName? (args.headD "csa-bench") with
  | some tool => BatchAxpby.Main.run tool
  | none =>
    IO.eprintln "usage: (csa-bench | bandwidth | shared-mem)"
    return 2
