import BatchAxpby.Yaml.Node

/-! # Fields

What a node says where a number, a truth value, a text or a choice is expected. Numbers and
truth values are plain texts, or literal blocks with the tag of their kind.
-/

namespace BatchAxpby.Yaml

def dropStart? (start : String) (text : List Char) : Option (List Char) :=
  if start.toList.isPrefixOf text then some (text.drop start.length) else none

def digits? (base : Nat) (text : List Char) : Option Nat :=
  if text.isEmpty then none
  else text.foldlM (fun n c => do
    let d ← hexDigit? c
    if d < base then some (base * n + d) else none) 0

/-- An unsigned number below `bound`: decimal without leading zeros, or with a base mark. A
plus sign may stand before it. -/
def unsigned? (bound : Nat) (text : List Char) : Option Nat := do
  let body := (dropStart? "+" text).getD text
  let based := [("0x", 16), ("0o", 8), ("0b", 2)].findSome? fun (mark, base) =>
    (dropStart? mark body).bind (digits? base)
  let n ← match based with
    | some n => some n
    | none => if 1 < body.length ∧ body.head? = some '0' then none else digits? 10 body
  if n < bound then some n else none

/-- The parts of a decimal number: its digits, how many of them follow the point, and the
exponent. -/
structure DecimalText where
  digits : List Char
  places : Nat
  exponent : Int

def exponent? (text : List Char) : Option Int :=
  match text with
  | '-' :: rest => (digits? 10 rest).map fun n => -(n : Int)
  | '+' :: rest => (digits? 10 rest).map fun n => (n : Int)
  | rest => (digits? 10 rest).map fun n => (n : Int)

/-- Reads a decimal number without a sign; a digit has to stand before or after the point. -/
def decimalText? (text : List Char) : Option DecimalText := do
  let whole := text.takeWhile Char.isDigit
  let rest := text.drop whole.length
  let (fraction, rest) := match rest with
    | '.' :: rest => (rest.takeWhile Char.isDigit, rest.dropWhile Char.isDigit)
    | rest => ([], rest)
  let digits := whole ++ fraction
  if digits.isEmpty then none
  else match rest with
    | [] => some ⟨digits, fraction.length, 0⟩
    | e :: rest =>
      if e == 'e' || e == 'E' then do some ⟨digits, fraction.length, ← exponent? rest⟩
      else none

/-- The nearest double precision number. There is none beyond the largest one. -/
def DecimalText.value? (d : DecimalText) : Option Float :=
  let digits := d.digits.dropWhile (· == '0')
  let exponent := d.exponent - d.places
  let order := exponent + digits.length
  if digits.isEmpty ∨ order < -400 then some 0
  else if 400 < order then none
  else
    let n := digits.foldl (fun n c => 10 * n + (c.toNat - 48)) 0
    let x := Float.ofScientific n (exponent < 0) exponent.natAbs
    if x.isFinite then some x else none

/-- A double precision number: decimal, infinite, or no number at all. -/
def float? (text : List Char) : Option Float :=
  let oneOf (names : List String) (text : List Char) : Bool :=
    names.any fun name => name.toList == text
  let infinite := oneOf [".inf", ".Inf", ".INF"]
  if oneOf [".nan", ".NaN", ".NAN"] text then some (0 / 0)
  else match text with
    | '-' :: rest =>
      if infinite rest then some (-1 / 0)
      else ((decimalText? rest).bind DecimalText.value?).map (- ·)
    | '+' :: rest =>
      if infinite rest then some (1 / 0) else (decimalText? rest).bind DecimalText.value?
    | rest => if infinite rest then some (1 / 0) else (decimalText? rest).bind DecimalText.value?

def isNull (text : List Char) : Bool :=
  ["null", "Null", "NULL", "~"].any fun name => name.toList == text

namespace Document

variable {β : Type} (d : Document)

/-- The text of a value of a standard kind: a plain text whatever its tag, or a literal block
with the tag of the kind. -/
def valueText? (kind : String) (node : Node) : Option (List Char) := do
  match ← d.resolve? node with
  | .scalar _ .plain text => some text
  | .scalar tag .literal text => if tag = some (Tag.standard kind) then some text else none
  | _ => none

def natBelow? (bound : Nat) (node : Node) : Option Nat := do
  unsigned? bound (← d.valueText? "int" node)

def number? (node : Node) : Option Float := do float? (← d.valueText? "float" node)

def bool? (node : Node) : Option Bool := do
  let text ← d.valueText? "bool" node
  if ["true", "True", "TRUE"].any fun name => name.toList == text then some true
  else if ["false", "False", "FALSE"].any fun name => name.toList == text then some false
  else none

/-- A list; an empty plain text is an empty list. -/
def list? (item? : Node → Option β) (node : Node) : Option (List β) := do
  match ← d.resolve? node with
  | .sequence items => items.mapM item?
  | .scalar _ .plain [] => some []
  | _ => none

def text? (node : Node) : Option (List Char) := do
  match ← d.resolve? node with
  | .scalar _ _ text => some text
  | _ => none

/-- A text, or nothing: an empty plain text or a word for it. A tag makes a plain text a text,
but the tag of nothing asks for a word for it. -/
def optionalText? (node : Node) : Option (Option (List Char)) := do
  match ← d.resolve? node with
  | .scalar tag style text =>
    if style ≠ .plain then some (some text)
    else match tag with
      | some tag =>
        if tag = Tag.standard "null" then if isNull text then some none else none
        else some (some text)
      | none => if text.isEmpty || isNull text then some none else some (some text)
  | _ => none

/-- One of several names: as a text, or as a local tag of a plain text that says nothing. A tag
that is no text is passed over. -/
def choice? (ofName? : String → Option β) (node : Node) : Option β := do
  match ← d.resolve? node with
  | .scalar tag style text =>
    match tag.bind Tag.localName? with
    | some name =>
      if style = .plain ∧ (text.isEmpty || isNull text) then ofName? name else none
    | none => ofName? (String.ofList text)
  | _ => none

end Document

structure Fields where
  entries : List (List Char × Node)

def Document.fields? (d : Document) (node : Node) : Option Fields := do
  match ← d.resolve? node with
  | .mapping entries =>
    some ⟨← entries.mapM fun (key, value) => do some (← d.text? key, value)⟩
  | _ => none

namespace Fields

variable {β : Type}

/-- The value of a field that may be missing and goes by one of the given names. A field that
is there twice is refused. -/
def optional? (f : Fields) (names : List String) (read? : Node → Option β) :
    Option (Option β) :=
  match f.entries.filter fun (key, _) => names.any fun name => name.toList == key with
  | [] => some none
  | [(_, value)] => (read? value).map some
  | _ => none

def required? (f : Fields) (names : List String) (read? : Node → Option β) : Option β :=
  (f.optional? names read?).join

def withDefault? (f : Fields) (name : String) (read? : Node → Option β) (fallback : β) :
    Option β :=
  (f.optional? [name] read?).map (·.getD fallback)

end Fields

end BatchAxpby.Yaml
