import BatchAxpby.Word

/-! # Errors

An error refuses a request and says why; a fault stops a computation without an answer.
Every wording of an error stands here, one function for each cause.
-/

namespace BatchAxpby

inductive Error where
  | config (field reason : String)
  /-- A document that cannot be read, or lacks the expected fields. -/
  | malformed (source : String)
  | invalidParameter (name reason : String)
  | dimensionMismatch (expected actual : String)
  | resourceExhausted (requested : Nat) (reason : String)
  | deviceInit (reason : String)
  | launch (reason : String)
  | file (reason : String)
  deriving DecidableEq, Repr

namespace Error

def message : Error → String
  | config field reason => s!"Configuration error in '{field}': {reason}"
  | malformed source => s!"Configuration error in '{source}': malformed document"
  | invalidParameter name reason => s!"Invalid parameter '{name}': {reason}"
  | dimensionMismatch expected actual => s!"Dimension mismatch: expected {expected}, got {actual}"
  | resourceExhausted requested reason =>
      s!"Resource exhausted: requested {requested} bytes ({reason})"
  | deviceInit reason => s!"Device initialization failed: {reason}"
  | launch reason => s!"Launch failure: {reason}"
  | file reason => s!"IO error: {reason}"

def shortLeading (name : String) (ld rows : Nat) : Error :=
  invalidParameter name s!"leading dimension {ld} smaller than row count {rows}"

def viewLeading (ld rows : Nat) : Error :=
  dimensionMismatch s!"leading dimension >= {rows}" s!"{ld}"

def viewSize (span rows cols ld size : Nat) (reason : String) : Error :=
  dimensionMismatch s!"{span} elements for a {rows}x{cols} view with ld {ld}"
    s!"{size} ({reason})"

def slotOverrun (name : String) (span first slot : Nat) : Error :=
  invalidParameter name
    s!"block spanning {span} values from index {first} overruns a {slot}-value slot"

def wideBase (base : Nat) : Error :=
  invalidParameter "addressing" s!"element base {base} does not fit a 32-bit index table"

def listText (entries : List Nat) : String :=
  "[" ++ ", ".intercalate (entries.map toString) ++ "]"

def emptyStorage (name : String) : Error :=
  config s!"{name}.num_rows/num_cols" "matrix storage must be non-empty"

def boxLength (name : String) (length : Nat) : Error :=
  config s!"{name}.bbox" s!"expected 4 entries, got {length}"

def invertedBox (name : String) (box : List Nat) : Error :=
  config s!"{name}.bbox" ("inverted bounding box " ++ listText box)

def outsideBox (name : String) (box : List Nat) (rows cols : Nat) : Error :=
  config s!"{name}.bbox"
    ("bounding box " ++ listText box ++ s!" reaches outside {rows}x{cols} storage")

def unequalBlocks (rows cols rowsA colsA : Nat) : Error :=
  config "MatB.bbox" s!"{rows}x{cols} block does not match the {rowsA}x{colsA} block of MatA"

def endlessCoefficients : Error :=
  config "alpha/beta" "coefficients must be finite"

def badBudget (amount : String) : Error :=
  config "allocate_mem" s!"must be a positive number of gigabytes, got {amount}"

def zeroSetting (field : String) : Error :=
  config field "must be at least 1"

def unreadable (path reason : String) : Error :=
  config path s!"cannot read: {reason}"

def smallBudget (amount : String) (values : Nat) : Error :=
  config "allocate_mem" s!"{amount} GB does not hold one element of {values} values"

def smallCopyBudget (amount : String) : Error :=
  config "allocate_mem" s!"{amount} GB does not hold a single value"

def hostExhausted (bytes : Nat) (reason : String) : Error :=
  resourceExhausted bytes s!"host allocation failed: {reason}"

def deviceExhausted (bytes free capacity : Nat) : Error :=
  resourceExhausted bytes s!"{free} of {capacity} bytes of device memory free"

def unknownDevice (id count : Nat) : Error :=
  deviceInit s!"device {id} not found ({count} mock device(s) available)"

def emptyBlock : Error :=
  invalidParameter "block_size" "must be at least 1"

def emptyLaunch (grid block : Nat) : Error :=
  launch s!"empty launch geometry: grid {grid}, block {block}"

def wideGroup (block limit : Nat) : Error :=
  launch s!"work-group size {block} exceeds device maximum {limit}"

def wideLaunch (grid block : Nat) : Error :=
  launch s!"grid {grid} x block {block} overflows the lane index"

def longTransfer (capacity size : Nat) : Error :=
  dimensionMismatch s!"at most {capacity} values" s!"{size}"

def wrongLength (expected actual : Nat) : Error :=
  dimensionMismatch s!"{expected} values" s!"{actual}"

def notHostSurface (runner : String) : Error :=
  invalidParameter "surface" s!"the device surface runs through {runner}"

end Error

/-- How a request ends when it yields no value. -/
inductive Stop where
  | refused (error : Error)
  | fault (fault : Fault)
  deriving DecidableEq, Repr

abbrev Outcome (α : Type) := Except Stop α

instance : MonadLift (Except Fault) (Except Stop) where
  monadLift x := x.mapError .fault

instance : MonadLift (Except Error) (Except Stop) where
  monadLift x := x.mapError .refused

instance liftExcept {ε σ : Type} : MonadLift (Except ε) (EStateM ε σ) where
  monadLift
    | .ok a => fun s => .ok a s
    | .error e => fun s => .error e s

end BatchAxpby
