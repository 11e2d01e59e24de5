import BatchAxpby.Yaml.Scalar

/-! # Tags

A tag says of what kind a node is. It is written in ASCII, but escapes can give it any bytes
in groups shaped like characters, so a tag is kept as bytes. A zero byte ends a tag.
-/

namespace BatchAxpby.Yaml

abbrev Tag := List UInt8

namespace Tag

def ofAscii (text : List Char) : Tag := text.map fun c => c.toNat.toUInt8

/-- What is left of bytes that a zero byte ends. -/
def ofBytes (bytes : List UInt8) : Tag := bytes.takeWhile (· != 0)

def mark : Tag := ofAscii ['!']

def standardStart : Tag := ofAscii "tag:yaml.org,2002:".toList

def standard (name : String) : Tag := standardStart ++ ofAscii name.toList

/-- The name of a tag that starts with an exclamation mark and goes on as a text. -/
def localName? : Tag → Option String
  | 0x21 :: name => String.fromUTF8? name.toByteArray
  | _ => none

end Tag

/-- Characters of a tag. Commas and brackets are among them only between angle brackets. -/
def isUriChar (verbatim : Bool) (c : Char) : Bool :=
  isNameChar c ||
  [';', '/', '?', ':', '@', '&', '=', '+', '$', '.', '!', '~', '*', '\x27', '(', ')'].contains c
    || (verbatim && (c == ',' || c == '[' || c == ']'))

def readByte? (c : Cursor) : Option (UInt8 × Cursor) :=
  if c.sees '%' then
    (hexValue? 2 ((c.skip 1).rest.take 2)).map fun n => (n.toUInt8, c.skip 3)
  else none

def readFollowing? : (count : Nat) → Cursor → Option (List UInt8 × Cursor)
  | 0, c => some ([], c)
  | count + 1, c => do
    let (b, c) ← readByte? c
    if b / 64 = 2 then
      let (rest, c) ← readFollowing? count c
      some (b :: rest, c)
    else none

/-- A group of escaped bytes with the shape of a character; it need not be one. -/
def readGroup? (c : Cursor) : Option (List UInt8 × Cursor) := do
  let (b, c) ← readByte? c
  let following ←
    if b < 128 then some 0
    else if b / 32 = 6 then some 1
    else if b / 16 = 14 then some 2
    else if b / 8 = 30 then some 3
    else none
  let (rest, c) ← readFollowing? following c
  some (b :: rest, c)

/-- The bytes that the characters of a tag give from here on. -/
def readUri (verbatim : Bool) :
    (fuel : Nat) → (bytes : List UInt8) → Cursor → Option (List UInt8 × Cursor)
  | 0, bytes, c => some (bytes, c)
  | fuel + 1, bytes, c =>
    match c.peek? with
    | none => some (bytes, c)
    | some x =>
      if x == '%' then do
        let (group, c) ← readGroup? c
        readUri verbatim fuel (bytes ++ group) c
      else if isUriChar verbatim x then
        readUri verbatim fuel (bytes ++ Tag.ofAscii [x]) (c.skip 1)
      else some (bytes, c)

def readUri? (verbatim : Bool) (c : Cursor) : Option (Tag × Cursor) := do
  let (bytes, c) ← readUri verbatim c.rest.length [] c
  if bytes.isEmpty then none else some (Tag.ofBytes bytes, c)

/-- An exclamation mark, a name and, if there is one, a second mark. -/
def readHandle (c : Cursor) : List Char × Cursor :=
  let (name, c) := (c.skip 1).span isNameChar
  if c.sees '!' then ('!' :: name ++ ['!'], c.skip 1) else ('!' :: name, c)

def isClosedHandle (handle : List Char) : Bool :=
  2 ≤ handle.length && handle.getLast? == some '!'

/-- The handle of a tag and what follows it: in angle brackets, with a handle, or local. A lone
mark has no handle. -/
def readTag? (c : Cursor) : Option (List Char × Tag × Cursor) :=
  if c.ahead 1 (· == '<') then do
    let (suffix, c) ← readUri? true (c.skip 2)
    if c.sees '>' then some ([], suffix, c.skip 1) else none
  else
    let (handle, c) := readHandle c
    if isClosedHandle handle then do
      let (suffix, c) ← readUri? false c
      some (handle, suffix, c)
    else do
      let (bytes, c) ← readUri false c.rest.length (Tag.ofAscii handle.tail) c
      let suffix := Tag.ofBytes bytes
      if suffix.isEmpty then some ([], Tag.mark, c) else some (['!'], suffix, c)

end BatchAxpby.Yaml
