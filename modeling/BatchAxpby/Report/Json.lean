/-! # Report files

A report is written as an indented JSON document. Numbers keep the text they were given.
-/

namespace BatchAxpby

inductive Json where
  | null
  | bool (value : Bool)
  | number (text : String)
  | string (value : String)
  | list (items : List Json)
  | record (fields : List (String × Json))

namespace Json

def hexPair (code : Nat) : String :=
  String.ofList [Nat.digitChar (code / 16), Nat.digitChar (code % 16)]

def escapeChar (c : Char) : String :=
  match c with
  | '\x22' => "\\\""
  | '\\' => "\\\\"
  | '\x08' => "\\b"
  | '\x09' => "\\t"
  | '\x0a' => "\\n"
  | '\x0c' => "\\f"
  | '\x0d' => "\\r"
  | c => if c.toNat < 32 then "\\u00" ++ hexPair c.toNat else c.toString

def quote (s : String) : String :=
  "\"" ++ String.join (s.toList.map escapeChar) ++ "\""

def indent (depth : Nat) : String := String.ofList (List.replicate (2 * depth) ' ')

/-- Items between brackets, one on a line; nothing stands between the brackets of none. -/
def bracketed (opening closing : String) (depth : Nat) (items : List String) : String :=
  if items.isEmpty then opening ++ closing
  else
    let lines := items.map fun item => "\n" ++ indent (depth + 1) ++ item
    opening ++ ",".intercalate lines ++ "\n" ++ indent depth ++ closing

mutual

/-- The document as text, with nested lines indented by two spaces. -/
def render (depth : Nat) : Json → String
  | null => "null"
  | bool value => if value then "true" else "false"
  | number digits => digits
  | string value => quote value
  | list items => bracketed "[" "]" depth (renderItems (depth + 1) items)
  | record fields => bracketed "\x7b" "\x7d" depth (renderFields (depth + 1) fields)

def renderItems (depth : Nat) : List Json → List String
  | [] => []
  | item :: rest => render depth item :: renderItems depth rest

def renderFields (depth : Nat) : List (String × Json) → List String
  | [] => []
  | (key, value) :: rest =>
    (quote key ++ ": " ++ render depth value) :: renderFields depth rest

end

def file (j : Json) : String := j.render 0 ++ "\n"

end Json

end BatchAxpby
