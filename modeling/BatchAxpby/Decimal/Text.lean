import BatchAxpby.Decimal.Shortest

/-! # Texts of numbers

Four texts of a double precision number: positional, scientific, with a fixed number of
places, and as a number of a report file.
-/

namespace BatchAxpby.Decimal

def zeros (n : Nat) : String := String.ofList (List.replicate n '0')

namespace Point

def text (d : Point) : String := toString d.digits

/-- The exponent of the first digit. -/
def order (d : Point) : Int := d.exponent + d.text.length - 1

/-- All digits written out, with `whole` after a number without a fraction. -/
def positional (d : Point) (whole : String) : String :=
  let text := d.text
  let point := d.order + 1
  if 0 ≤ d.exponent then text ++ zeros d.exponent.toNat ++ whole
  else if 0 < point then
    String.ofList (text.toList.take point.toNat) ++ "."
      ++ String.ofList (text.toList.drop point.toNat)
  else "0." ++ zeros (-point).toNat ++ text

/-- One digit before the point, then the order; `plus` stands before a positive one. -/
def scientific (d : Point) (plus : String) : String :=
  let mantissa := match d.text.toList with
    | [] => ""
    | [first] => first.toString
    | first :: rest => first.toString ++ "." ++ String.ofList rest
  let sign := if 0 ≤ d.order then plus else ""
  mantissa ++ "e" ++ sign ++ toString d.order

end Point

/-- Puts the sign before the text of a magnitude. Values that are no number have no sign. -/
def signed (x : Float) (finite : Binary → String) : String :=
  let sign := if isNegative x then "-" else ""
  match kind x with
  | .nan => "NaN"
  | .infinite => sign ++ "inf"
  | .finite value => sign ++ finite value

/-- The shortest digits, never with an exponent. -/
def positional (x : Float) : String :=
  signed x fun value =>
    if value.significand = 0 then "0" else (value.shortest .up).positional ""

def scientific (x : Float) : String :=
  signed x fun value =>
    if value.significand = 0 then "0e0" else (value.shortest .up).scientific ""

def fixed (places : Nat) (x : Float) : String :=
  signed x fun value =>
    let text := toString (value.rounded places)
    let padded := zeros (places + 1 - text.length) ++ text
    let point := padded.length - places
    String.ofList (padded.toList.take point) ++ "." ++ String.ofList (padded.toList.drop point)

/-- The number of a report file: positional with a point for orders from -5 to 15, scientific
otherwise. A value that is not finite has none. -/
def literal? (x : Float) : Option String :=
  match kind x with
  | .finite value =>
    let sign := if isNegative x then "-" else ""
    some <| sign ++
      if value.significand = 0 then "0.0"
      else
        let d := value.shortest .even
        if -5 ≤ d.order ∧ d.order ≤ 15 then d.positional ".0" else d.scientific "+"
  | _ => none

end BatchAxpby.Decimal
