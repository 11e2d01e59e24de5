/-! # Reading positions

A document is read from left to right, character by character. The position knows its line
and column, because indentation carries meaning, and the bytes before it.
-/

namespace BatchAxpby.Yaml

def isAllowed (c : Char) : Bool :=
  let n := c.toNat
  n == 0x9 || n == 0xa || n == 0xd || (0x20 ≤ n && n ≤ 0x7e) || n == 0x85
    || (0xa0 ≤ n && n ≤ 0xd7ff) || (0xe000 ≤ n && n ≤ 0xfffd) || 0x10000 ≤ n

def isBlank (c : Char) : Bool := c == ' ' || c == '\t'

def isBreak (c : Char) : Bool :=
  c == '\n' || c == '\r' || c == '\x85' || c == '\u2028' || c == '\u2029'

/-- Characters of anchors, tag handles and directive names. -/
def isNameChar (c : Char) : Bool := c.isAlphanum || c == '_' || c == '-'

def hexDigit? (c : Char) : Option Nat :=
  if c.isDigit then some (c.toNat - 48)
  else if 'a' ≤ c ∧ c ≤ 'f' then some (c.toNat - 87)
  else if 'A' ≤ c ∧ c ≤ 'F' then some (c.toNat - 55)
  else none

def byteLength (text : List Char) : Nat := text.foldl (fun n c => n + c.utf8Size) 0

structure Cursor where
  rest : List Char
  /-- Bytes before this position. -/
  index : Nat := 0
  line : Nat := 0
  column : Nat := 0

namespace Cursor

def peek? (c : Cursor) : Option Char := c.rest.head?

/-- Whether the character `n` places ahead passes a test. -/
def ahead (c : Cursor) (n : Nat) (test : Char → Bool) : Bool := (c.rest[n]?).any test

def sees (c : Cursor) (x : Char) : Bool := c.peek? == some x

def atEnd (c : Cursor) : Bool := c.rest.isEmpty

def atBlank (c : Cursor) : Bool := c.ahead 0 isBlank

def atBreak (c : Cursor) : Bool := c.ahead 0 isBreak

/-- Whether a blank, a line break or the end is `n` places ahead. -/
def endsWord (c : Cursor) (n : Nat) : Bool :=
  match c.rest[n]? with
  | some x => isBlank x || isBreak x
  | none => true

def skip (c : Cursor) (n : Nat) : Cursor :=
  { c with
    rest := c.rest.drop n
    index := c.index + byteLength (c.rest.take n)
    column := c.column + n }

def span (c : Cursor) (test : Char → Bool) : List Char × Cursor :=
  let passed := c.rest.takeWhile test
  (passed, c.skip passed.length)

def skipBlanks (c : Cursor) : Cursor := (c.span isBlank).2

/-- Passes a comment, if one starts here. -/
def skipComment (c : Cursor) : Cursor :=
  if c.sees '#' then (c.span fun x => !isBreak x).2 else c

/-- Passes a line break. Two of the breaks keep their character, the others are line feeds. -/
def takeBreak (c : Cursor) : Char × Cursor :=
  let next (rest : List Char) (n : Nat) : Cursor := ⟨rest, c.index + n, c.line + 1, 0⟩
  match c.rest with
  | '\r' :: '\n' :: rest => ('\n', next rest 2)
  | x :: rest => (if x == '\u2028' || x == '\u2029' then x else '\n', next rest x.utf8Size)
  | [] => ('\n', c)

/-- Passes the rest of a line that may only hold blanks and a comment. -/
def finishLine? (c : Cursor) : Option Cursor :=
  let c := c.skipBlanks.skipComment
  if c.atBreak then some c.takeBreak.2 else if c.atEnd then some c else none

/-- Whether three times this character stands alone at the start of a line. -/
def atMarker (c : Cursor) (x : Char) : Bool :=
  c.column == 0 && c.rest.take 3 == [x, x, x] && c.endsWord 3

def atDocumentMarker (c : Cursor) : Bool := c.atMarker '-' || c.atMarker '.'

end Cursor

end BatchAxpby.Yaml
