import BatchAxpby.Yaml.Tag

/-! # Tokens

The marks and texts of a document in reading order. Blocks have no closing mark of their own;
their ends are tokens that indentation gives.
-/

namespace BatchAxpby.Yaml

inductive Token where
  | version (major minor : Nat)
  | handle (name : List Char) (uri : Tag)
  | documentStart
  | documentEnd
  | blockSequence
  | blockMapping
  | blockEnd
  | flowSequence
  | flowSequenceEnd
  | flowMapping
  | flowMappingEnd
  | blockEntry
  | flowEntry
  | key
  | value
  | alias (name : List Char)
  | anchor (name : List Char)
  | tag (handle : List Char) (suffix : Tag)
  | scalar (style : Style) (text : List Char)
  | streamEnd
  deriving DecidableEq, Repr

/-- The name of an anchor or alias, which has to stand apart from what follows. -/
def readName? (c : Cursor) : Option (List Char × Cursor) :=
  let (name, c) := (c.skip 1).span isNameChar
  let ends := c.endsWord 0 ||
    c.ahead 0 fun x => ['?', ':', ',', ']', '\x7d', '%', '@', '\x60'].contains x
  if name.isEmpty || !ends then none else some (name, c)

def readNumber? (c : Cursor) : Option (Nat × Cursor) :=
  let (digits, c) := c.span Char.isDigit
  if digits.isEmpty ∨ 9 < digits.length then none
  else some (digits.foldl (fun n d => 10 * n + (d.toNat - 48)) 0, c)

def readVersion? (c : Cursor) : Option (Token × Cursor) := do
  let (major, c) ← readNumber? c.skipBlanks
  if c.sees '.' then
    let (minor, c) ← readNumber? (c.skip 1)
    some (.version major minor, c)
  else none

/-- The handle and its meaning after their directive's name. -/
def readHandleDirective? (c : Cursor) : Option (Token × Cursor) := do
  let c := c.skipBlanks
  if !c.sees '!' then none
  else
    let (name, c) := readHandle c
    if name ≠ ['!'] ∧ !isClosedHandle name then none
    else if !c.atBlank then none
    else
      let (uri, c) ← readUri? true c.skipBlanks
      if c.endsWord 0 then some (.handle name uri, c) else none

/-- A directive with the rest of its line. -/
def readDirective? (c : Cursor) : Option (Token × Cursor) := do
  let (name, c) := (c.skip 1).span isNameChar
  if !c.endsWord 0 then none
  else
    let (token, c) ←
      if name = "YAML".toList then readVersion? c
      else if name = "TAG".toList then readHandleDirective? c
      else none
    some (token, ← c.finishLine?)

end BatchAxpby.Yaml
