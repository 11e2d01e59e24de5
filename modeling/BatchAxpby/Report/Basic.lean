import BatchAxpby.Decimal.Text
import BatchAxpby.Report.Json

/-! # Reports

A report shows the result of a benchmark as lines of a key and a value, aligned on the colon,
and as a JSON document.
-/

namespace BatchAxpby

structure Report where
  lines : List (String × String)
  json : Json

namespace Report

/-- Columns of the keys: the most bytes that one of them takes. -/
def keyWidth (lines : List (String × String)) : Nat :=
  lines.foldl (fun width line => max width line.1.utf8ByteSize) 0

/-- A key filled up with spaces, counted in characters. -/
def pad (width : Nat) (key : String) : String :=
  key ++ String.ofList (List.replicate (width - key.length) ' ')

def render (r : Report) : String :=
  let width := keyWidth r.lines
  String.join (r.lines.map fun (key, value) => pad width key ++ ": " ++ value ++ "\n")

end Report

namespace Json

def nat (n : Nat) : Json := .number (toString n)

/-- A number, or nothing for a value that is not finite. -/
def float (x : Float) : Json :=
  match Decimal.literal? x with
  | some digits => .number digits
  | none => .null

def optional {β : Type} (encode : β → Json) : Option β → Json
  | some b => encode b
  | none => .null

def nats (xs : Array Nat) : Json := .list (xs.toList.map nat)

end Json

end BatchAxpby
