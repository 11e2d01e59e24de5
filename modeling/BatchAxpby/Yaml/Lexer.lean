import BatchAxpby.Yaml.Token

/-! # Lexing

Two things are known only later than their place: a text is a key when a colon follows it on
its line, and a block ends when a line is indented less. The lexer notes where a key may have
started, and puts the key's tokens there when the colon comes.
-/

namespace BatchAxpby.Yaml

/-- A place at which a key may have started. -/
structure KeyStart where
  /-- How many tokens stood before it. -/
  token : Nat
  index : Nat
  line : Nat
  column : Nat
  /-- Whether there has to be a key here. -/
  required : Bool

structure Lexer where
  cursor : Cursor
  tokens : Array Token := #[]
  /-- Tokens that belong before the token of the given number. -/
  openings : List (Nat × List Token) := []
  /-- The column of the current block; there is none outside of blocks. -/
  indent : Option Nat := none
  outerIndents : List (Option Nat) := []
  /-- How many brackets are open. -/
  flow : Nat := 0
  /-- Whether a key may start here. -/
  keyAllowed : Bool := true
  keyStart : Option KeyStart := none
  outerKeys : List (Option KeyStart) := []

namespace Lexer

def add (l : Lexer) (token : Token) : Lexer := { l with tokens := l.tokens.push token }

/-- The first column inside the current block. -/
def inside (l : Lexer) : Nat :=
  match l.indent with
  | some column => column + 1
  | none => 0

/-- Opens a block at a column to the right of the current one. Its token goes to the end, or
before the token of a given number. -/
def openBlock (l : Lexer) (column : Nat) (token : Token) (place : Option Nat) : Lexer :=
  if l.flow ≠ 0 ∨ column < l.inside then l
  else
    let l := { l with indent := some column, outerIndents := l.indent :: l.outerIndents }
    match place with
    | none => l.add token
    | some n => { l with openings := (n, [token]) :: l.openings }

/-- Closes the blocks that start at or to the right of a column. -/
def closeFrom (column : Nat) : List (Option Nat) → Lexer → Lexer
  | [], l => l
  | outer :: rest, l =>
    if column < l.inside then
      closeFrom column rest { l.add .blockEnd with indent := outer, outerIndents := rest }
    else l

/-- Closes the blocks that a line at this column is not part of. -/
def closeBlocks (l : Lexer) (column : Nat) : Lexer :=
  if l.flow ≠ 0 then l else closeFrom (column + 1) l.outerIndents l

def closeAllBlocks (l : Lexer) : Lexer :=
  if l.flow ≠ 0 then l else closeFrom 0 l.outerIndents l

/-- Forgets where a key may have started, unless there has to be one. -/
def dropKey? (l : Lexer) : Option Lexer :=
  match l.keyStart with
  | some k => if k.required then none else some { l with keyStart := none }
  | none => some l

def noteKey? (l : Lexer) : Option Lexer :=
  if l.keyAllowed then do
    let required := l.flow == 0 && l.indent == some l.cursor.column
    let l ← l.dropKey?
    let c := l.cursor
    some { l with
      keyStart := some ⟨l.tokens.size, c.index, c.line, c.column, required⟩ }
  else some l

/-- A key has to end on its line and within 1024 bytes. -/
def isStale (c : Cursor) (k : KeyStart) : Bool := k.line < c.line || k.index + 1024 < c.index

def freshKey? (c : Cursor) (k : Option KeyStart) : Option (Option KeyStart) :=
  match k with
  | some k => if isStale c k then if k.required then none else some none else some (some k)
  | none => some none

def dropStaleKeys? (l : Lexer) : Option Lexer := do
  let keyStart ← freshKey? l.cursor l.keyStart
  let outerKeys ← l.outerKeys.mapM (freshKey? l.cursor)
  some { l with keyStart, outerKeys }

/-- Passes blanks, comments and line breaks up to the next token. Tabs count as blanks only
where no key may start. -/
def skipToToken : (fuel : Nat) → Lexer → Lexer
  | 0, l => l
  | fuel + 1, l =>
    let c := l.cursor
    let c := if c.column == 0 && c.sees '\ufeff' then c.skip 1 else c
    let tabs := l.flow ≠ 0 || !l.keyAllowed
    let c := (c.span fun x => x == ' ' || (tabs && x == '\t')).2
    let c := c.skipComment
    if c.atBreak then
      skipToToken fuel
        { l with cursor := c.takeBreak.2, keyAllowed := l.flow == 0 || l.keyAllowed }
    else { l with cursor := c }

def mark (l : Lexer) (token : Token) (length : Nat) : Lexer :=
  { l.add token with cursor := l.cursor.skip length }

/-- Ends all blocks, before a directive, a document marker or the end. -/
def endBlocks? (l : Lexer) : Option Lexer := do
  let l ← l.closeAllBlocks.dropKey?
  some { l with keyAllowed := false }

def openFlow? (l : Lexer) (token : Token) : Option Lexer := do
  let l ← l.noteKey?
  some { l.mark token 1 with
    flow := l.flow + 1, keyAllowed := true, keyStart := none,
    outerKeys := l.keyStart :: l.outerKeys }

def closeFlow? (l : Lexer) (token : Token) : Option Lexer := do
  let l ← l.dropKey?
  let l := { l.mark token 1 with keyAllowed := false }
  match l.outerKeys with
  | [] => some l
  | key :: rest => some { l with flow := l.flow - 1, keyStart := key, outerKeys := rest }

def flowEntry? (l : Lexer) : Option Lexer := do
  let l ← l.dropKey?
  some { l.mark .flowEntry 1 with keyAllowed := true }

def blockEntry? (l : Lexer) : Option Lexer := do
  if l.flow = 0 ∧ !l.keyAllowed then none
  else
    let l ← (l.openBlock l.cursor.column .blockSequence none).dropKey?
    some { l.mark .blockEntry 1 with keyAllowed := true }

def key? (l : Lexer) : Option Lexer := do
  if l.flow = 0 ∧ !l.keyAllowed then none
  else
    let l ← (l.openBlock l.cursor.column .blockMapping none).dropKey?
    some { l.mark .key 1 with keyAllowed := l.flow == 0 }

/-- A colon makes what started before it a key, or stands after an empty key. -/
def value? (l : Lexer) : Option Lexer :=
  match l.keyStart with
  | some k =>
    let l := { l with openings := (k.token, [.key]) :: l.openings }
    let l := l.openBlock k.column .blockMapping (some k.token)
    some { l.mark .value 1 with keyStart := none, keyAllowed := false }
  | none =>
    if l.flow = 0 ∧ !l.keyAllowed then none
    else
      let l := l.openBlock l.cursor.column .blockMapping none
      some { l.mark .value 1 with keyAllowed := l.flow == 0 }

/-- A token that may start a key, and where the reading goes on. -/
def word? (l : Lexer) (read : Cursor → Option (Token × Cursor)) : Option Lexer := do
  let l ← l.noteKey?
  let (token, cursor) ← read l.cursor
  some { l.add token with cursor, keyAllowed := false }

def tag? (l : Lexer) : Option Lexer :=
  l.word? fun c => do
    let (handle, suffix, c) ← readTag? c
    if c.endsWord 0 || (l.flow ≠ 0 && c.sees ',') then some (.tag handle suffix, c) else none

def quoted? (l : Lexer) (single : Bool) : Option Lexer :=
  l.word? fun c => do
    let (text, c) ← readQuoted single (c.rest.length + 1) [] (c.skip 1)
    some (.scalar .quoted text, c)

def plain? (l : Lexer) : Option Lexer := do
  let l ← l.noteKey?
  let found ← readPlain (l.flow ≠ 0) l.inside (l.cursor.rest.length + 1) [] {} l.cursor
  some { l.add (.scalar .plain found.text) with
    cursor := found.cursor, keyAllowed := found.broken }

def block? (l : Lexer) (literal : Bool) : Option Lexer := do
  let l ← l.dropKey?
  let (text, cursor) ← readBlock literal l.inside (l.cursor.skip 1)
  some { l.add (.scalar (if literal then .literal else .folded) text) with
    cursor, keyAllowed := true }

def startsPlain (l : Lexer) : Bool :=
  let c := l.cursor
  let indicators := ['-', '?', ':', ',', '[', ']', '\x7b', '\x7d', '#', '&', '*', '!', '|',
    '>', '\x27', '\x22', '%', '@', '\x60']
  (!c.endsWord 0 && !c.ahead 0 indicators.contains)
    || (c.sees '-' && !c.ahead 1 isBlank)
    || (l.flow = 0 && (c.sees '?' || c.sees ':') && !c.endsWord 1)

/-- Reads the next token; the reading is over after the end of the stream. -/
def next? (l : Lexer) : Option (Lexer × Bool) := do
  let l ← (skipToToken (l.cursor.rest.length + 1) l).dropStaleKeys?
  let l := l.closeBlocks l.cursor.column
  let c := l.cursor
  let goesOn (x : Option Lexer) : Option (Lexer × Bool) := x.map (·, false)
  match c.peek? with
  | none => do
    let l ← l.endBlocks?
    some (l.add .streamEnd, true)
  | some x =>
    if x == '%' && c.column == 0 then goesOn do
      let l ← l.endBlocks?
      let (token, cursor) ← readDirective? c
      some { l.add token with cursor }
    else if c.atMarker '-' then goesOn (l.endBlocks?.map (·.mark .documentStart 3))
    else if c.atMarker '.' then goesOn (l.endBlocks?.map (·.mark .documentEnd 3))
    else goesOn <| match x with
      | '[' => l.openFlow? .flowSequence
      | '\x7b' => l.openFlow? .flowMapping
      | ']' => l.closeFlow? .flowSequenceEnd
      | '\x7d' => l.closeFlow? .flowMappingEnd
      | ',' => l.flowEntry?
      | '*' => l.word? fun c => do
        let (name, c) ← readName? c
        some (.alias name, c)
      | '&' => l.word? fun c => do
        let (name, c) ← readName? c
        some (.anchor name, c)
      | '!' => l.tag?
      | '\x27' => l.quoted? true
      | '\x22' => l.quoted? false
      | x =>
        if x == '-' && c.endsWord 1 then l.blockEntry?
        else if x == '?' && (l.flow ≠ 0 || c.endsWord 1) then l.key?
        else if x == ':' && (l.flow ≠ 0 || c.endsWord 1) then l.value?
        else if x == '|' && l.flow = 0 then l.block? true
        else if x == '>' && l.flow = 0 then l.block? false
        else if l.startsPlain then l.plain?
        else none

def readAll : (fuel : Nat) → Lexer → Option Lexer
  | 0, _ => none
  | fuel + 1, l => do
    let (l, done) ← l.next?
    if done then some l else readAll fuel l

/-- All tokens, with those of the keys in their places. -/
def linear (l : Lexer) : List Token :=
  let rec go (openings : List (Nat × List Token)) (number : Nat) : List Token → List Token
    | [] => []
    | token :: rest =>
      let here := (openings.filter (·.1 == number)).flatMap (·.2)
      here ++ token :: go openings (number + 1) rest
  go l.openings 0 l.tokens.toList

end Lexer

def tokens? (text : String) : Option (List Token) :=
  let chars := text.toList
  if chars.all isAllowed then
    (Lexer.readAll (chars.length + 2) { cursor := ⟨chars, 0, 0, 0⟩ }).map Lexer.linear
  else none

end BatchAxpby.Yaml
