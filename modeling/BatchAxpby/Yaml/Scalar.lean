import BatchAxpby.Yaml.Cursor

/-! # Scalars

The four ways to write a text: plain, in single or double quotes, and as a block. Line breaks
inside a text are folded, except in literal blocks.
-/

namespace BatchAxpby.Yaml

inductive Style where
  | plain
  | quoted
  | literal
  | folded
  deriving DecidableEq, Repr

/-- Blanks and line breaks between two words. -/
structure Gap where
  blanks : List Char := []
  breaks : List Char := []

namespace Gap

/-- What a gap stands for: a single line feed becomes a space, and the first of several is
dropped. -/
def text (g : Gap) : List Char :=
  match g.breaks with
  | [] => g.blanks
  | ['\n'] => [' ']
  | '\n' :: more => more
  | breaks => breaks

def isBroken (g : Gap) : Bool := !g.breaks.isEmpty

/-- Passes blanks and line breaks. After the first break, a tab before column `limit` is
refused, and blanks are not kept. -/
def read (limit : Nat) : (fuel : Nat) → (broken : Bool) → Gap → Cursor → Option (Gap × Cursor)
  | 0, _, g, c => some (g, c)
  | fuel + 1, broken, g, c =>
    match c.peek? with
    | none => some (g, c)
    | some x =>
      if isBlank x then
        if broken && c.column < limit && x == '\t' then none
        else
          let blanks := if broken then g.blanks else g.blanks ++ [x]
          read limit fuel broken { g with blanks } (c.skip 1)
      else if isBreak x then
        let (b, next) := c.takeBreak
        read limit fuel true { g with breaks := g.breaks ++ [b] } next
      else some (g, c)

end Gap

/-- Indicators that end a plain text inside brackets. -/
def isFlowIndicator (c : Char) : Bool :=
  c == ',' || c == '[' || c == ']' || c == '\x7b' || c == '\x7d'

/-- The characters of a plain word. Inside brackets a colon before an indicator is refused. -/
def plainWord? (flow : Bool) : List Char → Option (List Char)
  | [] => some []
  | x :: rest =>
    let next := rest.head?
    if isBlank x || isBreak x then some []
    else if flow && x == ':' && next.any fun y => isFlowIndicator y || y == '?' then none
    else if x == ':' && next.all fun y => isBlank y || isBreak y then some []
    else if flow && isFlowIndicator x then some []
    else (plainWord? flow rest).map (x :: ·)

/-- A plain text, the position after it, and whether it ended behind a line break. -/
structure PlainText where
  text : List Char
  cursor : Cursor
  broken : Bool

/-- Reads words up to an indicator, a comment, a document marker or a line that is indented
less than `indent` columns. -/
def readPlain (flow : Bool) (indent : Nat) :
    (fuel : Nat) → (text : List Char) → Gap → Cursor → Option PlainText
  | 0, text, gap, c => some ⟨text, c, gap.isBroken⟩
  | fuel + 1, text, gap, c =>
    if c.atDocumentMarker || c.sees '#' then some ⟨text, c, gap.isBroken⟩
    else do
      let word ← plainWord? flow c.rest
      let (text, gap) := if word.isEmpty then (text, gap) else (text ++ gap.text ++ word, {})
      let c := c.skip word.length
      if c.atBlank || c.atBreak then
        let (gap, c) ← Gap.read indent c.rest.length false {} c
        if !flow && c.column < indent then some ⟨text, c, gap.isBroken⟩
        else readPlain flow indent fuel text gap c
      else some ⟨text, c, gap.isBroken⟩

def escape? (c : Char) : Option Char :=
  [('0', '\x00'), ('a', '\x07'), ('b', '\x08'), ('t', '\t'), ('\t', '\t'), ('n', '\n'),
    ('v', '\x0b'), ('f', '\x0c'), ('r', '\r'), ('e', '\x1b'), (' ', ' '), ('\x22', '\x22'),
    ('/', '/'), ('\\', '\\'), ('N', '\x85'), ('_', '\xa0'), ('L', '\u2028'),
    ('P', '\u2029')].lookup c

def codeLength? (c : Char) : Option Nat := [('x', 2), ('u', 4), ('U', 8)].lookup c

def charOfCode? (code : Nat) : Option Char :=
  if code < 0xd800 ∨ (0xdfff < code ∧ code < 0x110000) then some (Char.ofNat code) else none

def hexValue? (length : Nat) (digits : List Char) : Option Nat :=
  if digits.length = length then digits.foldlM (fun n d => (hexDigit? d).map (16 * n + ·)) 0
  else none

def readEscape? (c : Cursor) : Option (Char × Cursor) := do
  let x ← (c.skip 1).peek?
  match escape? x, codeLength? x with
  | some y, _ => some (y, c.skip 2)
  | none, some length =>
    let code ← hexValue? length ((c.skip 2).rest.take length)
    some (← charOfCode? code, c.skip (2 + length))
  | none, none => none

structure QuotedRun where
  text : List Char
  cursor : Cursor
  /-- Whether the run ended with an escaped line break. -/
  joined : Bool

def readRun (single : Bool) : (fuel : Nat) → (text : List Char) → Cursor → Option QuotedRun
  | 0, text, c => some ⟨text, c, false⟩
  | fuel + 1, text, c =>
    let quote := if single then '\x27' else '\x22'
    match c.peek? with
    | none => some ⟨text, c, false⟩
    | some x =>
      if isBlank x || isBreak x then some ⟨text, c, false⟩
      else if single && x == quote && (c.skip 1).sees quote then
        readRun single fuel (text ++ [quote]) (c.skip 2)
      else if x == quote then some ⟨text, c, false⟩
      else if !single && x == '\\' then
        if (c.skip 1).atBreak then some ⟨text, (c.skip 1).takeBreak.2, true⟩
        else do
          let (y, c) ← readEscape? c
          readRun single fuel (text ++ [y]) c
      else readRun single fuel (text ++ [x]) (c.skip 1)

def readQuoted (single : Bool) :
    (fuel : Nat) → (text : List Char) → Cursor → Option (List Char × Cursor)
  | 0, _, _ => none
  | fuel + 1, text, c =>
    if c.atDocumentMarker || c.atEnd then none
    else do
      let run ← readRun single c.rest.length [] c
      let text := text ++ run.text
      if run.cursor.sees (if single then '\x27' else '\x22') then
        some (text, run.cursor.skip 1)
      else
        let (gap, c) ← Gap.read 0 run.cursor.rest.length run.joined {} run.cursor
        readQuoted single fuel (text ++ if run.joined then gap.breaks else gap.text) c

/-- What happens to the line breaks at the end of a block. -/
inductive Chomping where
  | strip
  | clip
  | keep
  deriving DecidableEq, Repr

structure BlockHeader where
  chomping : Chomping := .clip
  /-- Columns of indentation, if given. -/
  increment : Option Nat := none

/-- The indicators after the start of a block, in either order. -/
def readHeader? (c : Cursor) : Option (BlockHeader × Cursor) :=
  let chomping? (c : Cursor) : Option Chomping :=
    if c.sees '+' then some .keep else if c.sees '-' then some .strip else none
  let digit? (c : Cursor) : Option Nat :=
    match c.peek? with
    | some x => if x.isDigit then some (x.toNat - 48) else none
    | none => none
  let header (chomping : Option Chomping) (increment : Option Nat) (n : Nat) :
      Option (BlockHeader × Cursor) :=
    if increment = some 0 then none
    else some ({ chomping := chomping.getD .clip, increment }, c.skip n)
  match chomping? c, digit? c with
  | some chomping, _ =>
    match digit? (c.skip 1) with
    | some d => header (some chomping) (some d) 2
    | none => header (some chomping) none 1
  | none, some d =>
    match chomping? (c.skip 1) with
    | some chomping => header (some chomping) (some d) 2
    | none => header none (some d) 1
  | none, none => header none none 0

/-- Passes indentation and empty lines. Without a given indentation all spaces count; the
result has the widest column seen. A tab in place of indentation is refused. -/
def readIndentation (indent : Nat) :
    (fuel widest : Nat) → (breaks : List Char) → Cursor → Option (List Char × Nat × Cursor)
  | 0, widest, breaks, c => some (breaks, widest, c)
  | fuel + 1, widest, breaks, c =>
    let spaces := (c.rest.takeWhile (· == ' ')).length
    let c := c.skip (if indent = 0 then spaces else min spaces (indent - c.column))
    let widest := max widest c.column
    if (indent = 0 ∨ c.column < indent) ∧ c.sees '\t' then none
    else if c.atBreak then
      let (b, next) := c.takeBreak
      readIndentation indent fuel widest (breaks ++ [b]) next
    else some (breaks, widest, c)

/-- Where the reading of a block stands: the text so far, the last line break, the empty lines
after it, and whether the last line started with a blank. -/
structure BlockState where
  text : List Char := []
  last : List Char := []
  empty : List Char := []
  blankLine : Bool := false

def readLines (literal : Bool) (indent : Nat) :
    (fuel : Nat) → BlockState → Cursor → Option (BlockState × Cursor)
  | 0, s, c => some (s, c)
  | fuel + 1, s, c =>
    if c.column ≠ indent ∨ c.atEnd then some (s, c)
    else do
      let blank := c.atBlank
      let folds := !literal && s.last == ['\n'] && !s.blankLine && !blank
      let joint := if folds then (if s.empty.isEmpty then [' '] else []) else s.last
      let (line, c) := c.span fun x => !isBreak x
      let text := s.text ++ joint ++ s.empty ++ line
      let (last, c) := if c.atBreak then ([c.takeBreak.1], c.takeBreak.2) else ([], c)
      let (empty, _, c) ← readIndentation indent (c.rest.length + 1) 0 [] c
      readLines literal indent fuel { text, last, empty, blankLine := blank } c

/-- Reads a block after its indicator; `parent` is the first column a block can have. -/
def readBlock (literal : Bool) (parent : Nat) (c : Cursor) : Option (List Char × Cursor) := do
  let (header, c) ← readHeader? c
  let c ← c.finishLine?
  let given := match header.increment with
    | some n => parent - 1 + n
    | none => 0
  let (empty, widest, c) ← readIndentation given (c.rest.length + 1) 0 [] c
  let indent := if given = 0 then max (max widest parent) 1 else given
  let (s, c) ← readLines literal indent (c.rest.length + 1) { empty } c
  let text := match header.chomping with
    | .strip => s.text
    | .clip => s.text ++ s.last
    | .keep => s.text ++ s.last ++ s.empty
  some (text, c)

end BatchAxpby.Yaml
