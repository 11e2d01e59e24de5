import BatchAxpby.Yaml.Lexer

/-! # Documents

The tree of a document. An alias stands for the node that was last given its number; numbers
are handed out in reading order, one for each name that is new.
-/

namespace BatchAxpby.Yaml

inductive Node where
  | scalar (tag : Option Tag) (style : Style) (text : List Char)
  | sequence (items : List Node)
  | mapping (entries : List (Node × Node))
  | alias (number : Nat)

def Node.empty : Node := .scalar none .plain []

/-- The names given to nodes so far. -/
structure Anchors where
  /-- The number of each name. -/
  names : List (List Char × Nat) := []
  /-- For each number the named node that got it, latest first. -/
  targets : List (Nat × Nat) := []
  /-- The named nodes that are complete. -/
  nodes : List (Nat × Node) := []
  /-- How many nodes were named. -/
  count : Nat := 0

namespace Anchors

/-- Gives a name to the node that starts here; the result is the node's place. -/
def start (a : Anchors) (name : List Char) : Nat × Anchors :=
  let number := a.names.length
  (a.count,
    { a with
      names := (name, number) :: a.names.filter (·.1 != name)
      targets := (number, a.count) :: a.targets
      count := a.count + 1 })

def finish (a : Anchors) (place : Nat) (node : Node) : Anchors :=
  { a with nodes := (place, node) :: a.nodes }

def get? (a : Anchors) (number : Nat) : Option Node := do
  let place ← a.targets.lookup number
  a.nodes.lookup place

end Anchors

/-- What is left to read, and what the document said so far. -/
structure Reading where
  tokens : List Token
  handles : List (List Char × Tag)
  anchors : Anchors := {}

abbrev ReadM := StateT Reading Option

namespace Reading

def peek : ReadM Token := do
  match (← get).tokens with
  | [] => return .streamEnd
  | token :: _ => return token

def skip : ReadM Unit := modify fun r => { r with tokens := r.tokens.tail }

def expect (token : Token) : ReadM Unit := do
  if (← peek) = token then skip else failure

structure Properties where
  anchor : Option (List Char) := none
  tag : Option Tag := none

/-- The whole tag, with its handle replaced by what the handle stands for. -/
def expand (handle : List Char) (suffix : Tag) : ReadM Tag := do
  if handle.isEmpty then return suffix
  else match (← get).handles.lookup handle with
    | some uri => return uri ++ suffix
    | none => failure

def anchor? : ReadM (Option (List Char)) := do
  match ← peek with
  | .anchor name => skip; return some name
  | _ => return none

def tag? : ReadM (Option Tag) := do
  match ← peek with
  | .tag handle suffix => skip; return some (← expand handle suffix)
  | _ => return none

/-- A name and a tag, in either order. -/
def properties : ReadM Properties := do
  match ← anchor? with
  | some name => return { anchor := some name, tag := ← tag? }
  | none =>
    match ← tag? with
    | some tag => return { anchor := ← anchor?, tag := some tag }
    | none => return {}

def named (anchor : Option (List Char)) (body : ReadM Node) : ReadM Node :=
  match anchor with
  | none => body
  | some name => do
    let (place, anchors) := (← get).anchors.start name
    modify fun r => { r with anchors }
    let node ← body
    modify fun r => { r with anchors := r.anchors.finish place node }
    return node

mutual

/-- Reads a node. Blocks may only start where `block` allows them, and a sequence without
indentation where `loose` does. -/
def node : (fuel : Nat) → (block loose : Bool) → ReadM Node
  | 0, _, _ => failure
  | fuel + 1, block, loose => do
    if let .alias name ← peek then
      skip
      match (← get).anchors.names.lookup name with
      | some number => return .alias number
      | none => failure
    else
      let props ← properties
      named props.anchor do
        match ← peek with
        | .scalar style text => skip; return .scalar props.tag style text
        | .flowSequence => skip; return .sequence (← flowItems fuel true)
        | .flowMapping => skip; return .mapping (← flowEntries fuel true)
        | .blockEntry =>
          if loose then return .sequence (← looseItems fuel) else missing props
        | .blockSequence =>
          if block then do skip; return .sequence (← blockItems fuel) else missing props
        | .blockMapping =>
          if block then do skip; return .mapping (← blockEntries fuel) else missing props
        | _ => missing props

def missing (props : Properties) : ReadM Node :=
  if props.anchor.isSome || props.tag.isSome then return .scalar props.tag .plain []
  else failure

/-- A node, or an empty text when the next token is one of those that cannot start one. -/
def nodeUnless : (fuel : Nat) → (block loose : Bool) → (stops : List Token) → ReadM Node
  | 0, _, _, _ => failure
  | fuel + 1, block, loose, stops => do
    if stops.contains (← peek) then return .empty else node fuel block loose

def blockItems : (fuel : Nat) → ReadM (List Node)
  | 0 => failure
  | fuel + 1 => do
    match ← peek with
    | .blockEntry =>
      skip
      let item ← nodeUnless fuel true false [.blockEntry, .blockEnd]
      return item :: (← blockItems fuel)
    | .blockEnd => skip; return []
    | _ => failure

def looseItems : (fuel : Nat) → ReadM (List Node)
  | 0 => failure
  | fuel + 1 => do
    match ← peek with
    | .blockEntry =>
      skip
      let item ← nodeUnless fuel true false [.blockEntry, .key, .value, .blockEnd]
      return item :: (← looseItems fuel)
    | _ => return []

def blockEntries : (fuel : Nat) → ReadM (List (Node × Node))
  | 0 => failure
  | fuel + 1 => do
    match ← peek with
    | .key =>
      skip
      let key ← nodeUnless fuel true true [.key, .value, .blockEnd]
      let value ← valueUnless fuel true [.key, .value, .blockEnd]
      return (key, value) :: (← blockEntries fuel)
    | .blockEnd => skip; return []
    | _ => failure

/-- The value after a key; without a colon it is empty. -/
def valueUnless : (fuel : Nat) → (block : Bool) → (stops : List Token) → ReadM Node
  | 0, _, _ => failure
  | fuel + 1, block, stops => do
    if (← peek) = .value then
      skip
      nodeUnless fuel block block stops
    else return .empty

def flowItems : (fuel : Nat) → (first : Bool) → ReadM (List Node)
  | 0, _ => failure
  | fuel + 1, first => do
    if (← peek) = .flowSequenceEnd then skip; return []
    else
      if !first then expect .flowEntry
      match ← peek with
      | .flowSequenceEnd => skip; return []
      | .key =>
        skip
        let pair ← flowPair fuel
        return .mapping [pair] :: (← flowItems fuel false)
      | _ =>
        let item ← node fuel false false
        return item :: (← flowItems fuel false)

/-- A single pair in a sequence. The token after a missing key is passed. -/
def flowPair : (fuel : Nat) → ReadM (Node × Node)
  | 0 => failure
  | fuel + 1 => do
    let key ←
      if [Token.value, .flowEntry, .flowSequenceEnd].contains (← peek) then
        skip
        pure .empty
      else node fuel false false
    let value ← valueUnless fuel false [.flowEntry, .flowSequenceEnd]
    return (key, value)

def flowEntries : (fuel : Nat) → (first : Bool) → ReadM (List (Node × Node))
  | 0, _ => failure
  | fuel + 1, first => do
    if (← peek) = .flowMappingEnd then skip; return []
    else
      if !first then expect .flowEntry
      match ← peek with
      | .flowMappingEnd => skip; return []
      | .key =>
        skip
        let key ← nodeUnless fuel false false [.value, .flowEntry, .flowMappingEnd]
        let value ← valueUnless fuel false [.flowEntry, .flowMappingEnd]
        return (key, value) :: (← flowEntries fuel false)
      | _ =>
        let key ← node fuel false false
        return (key, .empty) :: (← flowEntries fuel false)

end

/-- The directives before a document: at most one version, which has to be known, and the
handles, each at most once. -/
def directives : (fuel : Nat) → (version : Bool) → ReadM Unit
  | 0, _ => failure
  | fuel + 1, version => do
    match ← peek with
    | .version major minor =>
      if version || major ≠ 1 || (minor ≠ 1 && minor ≠ 2) then failure
      skip
      directives fuel true
    | .handle name uri =>
      if ((← get).handles.lookup name).isSome then failure
      skip
      modify fun r => { r with handles := (name, uri) :: r.handles }
      directives fuel version
    | _ => return

/-- The handles that every document knows. -/
def standardHandles : List (List Char × Tag) :=
  [(['!'], Tag.mark), (['!', '!'], Tag.standardStart)]

/-- Nothing but end marks may follow the document. -/
def finishStream : (fuel : Nat) → ReadM Unit
  | 0 => failure
  | fuel + 1 => do
    match ← peek with
    | .documentEnd => skip; finishStream fuel
    | .streamEnd => return
    | _ => failure

def document (fuel : Nat) : ReadM Node := do
  let explicit := match ← peek with
    | .version .. | .handle .. | .documentStart => true
    | _ => false
  if (← peek) = .streamEnd then failure
  directives fuel false
  modify fun r => { r with handles := r.handles ++ standardHandles }
  let root ←
    if explicit then
      expect .documentStart
      match ← peek with
      | .version .. | .handle .. | .documentStart | .documentEnd | .streamEnd =>
        pure Node.empty
      | _ => node fuel true false
    else node fuel true false
  finishStream fuel
  return root

end Reading

/-- A tree together with the nodes that aliases stand for. -/
structure Document where
  root : Node
  anchors : Anchors

namespace Document

/-- Reads the document of a text, which has to be the only one. -/
def read? (text : String) : Option Document := do
  let tokens ← tokens? text
  let (root, reading) ← (Reading.document (4 * tokens.length + 8)).run ⟨tokens, [], {}⟩
  some ⟨root, reading.anchors⟩

def resolve? (d : Document) : Node → Option Node
  | .alias number => d.anchors.get? number
  | node => some node

end Document

end BatchAxpby.Yaml
