import BatchAxpby.Config.Description
import BatchAxpby.Config.Settings
import BatchAxpby.Yaml.Field

/-! # Reading configurations

Descriptions and settings are records of a document. Unknown fields are passed over; a field
with a default may be missing.
-/

namespace BatchAxpby

open Yaml

namespace Operand

def ofNode? (d : Document) (node : Node) : Option Operand := do
  let fields ← d.fields? node
  let word? := d.natBelow? Word.bound
  some {
    rows := ← fields.required? ["num_rows"] word?
    cols := ← fields.required? ["num_cols"] word?
    box := ← fields.required? ["bbox"] (d.list? word?) }

end Operand

namespace Description

variable {α : Type} [Scalar α]

def ofYaml? (text : String) : Option (Description α) := do
  let d ← Document.read? text
  let fields ← d.fields? d.root
  some {
    a := ← fields.required? ["MatA"] (Operand.ofNode? d)
    b := ← fields.required? ["MatB"] (Operand.ofNode? d)
    alpha := Scalar.ofFloat (← fields.required? ["alpha"] d.number?)
    beta := Scalar.ofFloat (← fields.required? ["beta"] d.number?)
    transA := ← fields.withDefault? "trans_a" d.bool? false
    transB := ← fields.withDefault? "trans_b" d.bool? false }

def load (source text : String) : Outcome (Description α) :=
  match ofYaml? text with
  | none => throw (.refused (.malformed source))
  | some d => do d.validate; return d

end Description

namespace Settings

def ofYaml? (text : String) : Option Settings := do
  let d ← Document.read? text
  let fields ← d.fields? d.root
  let word? := d.natBelow? Word.bound
  some {
    gigabytes := ← fields.required? ["allocate_mem", "allocated_mem"] d.number?
    repeats := ← fields.required? ["num_repeats"] word?
    deviceId := ← fields.withDefault? "device_id" word? 0
    surface := ← fields.withDefault? "surface" (d.choice? Surface.ofText?) .device
    addressing := ← fields.withDefault? "addressing" (d.choice? Addressing.ofText?) .strided
    blockSize := ← fields.withDefault? "block_size" word? 64
    validates := ← fields.withDefault? "validate" d.bool? false
    reportPath := (← fields.withDefault? "report_json" d.optionalText? none).map String.ofList
    roundTrips :=
      ← fields.withDefault? "shared_mem_repeats" (d.natBelow? 4294967296) 1000000 }

def load (source text : String) : Outcome Settings :=
  match ofYaml? text with
  | none => throw (.refused (.malformed source))
  | some s => do s.validate; return s

end Settings

end BatchAxpby
