/-! # Working directories

A working directory as data: folders, and files with their bytes. Reading and writing fail
with the same words as on the file system.
-/

namespace BatchAxpby

inductive Entry where
  | folder
  | file (content : ByteArray)

/-- What lies in a working directory, by place; later entries come first. A place is the list of
names that lead to it, with double dots for the folders around the directory. -/
structure Directory where
  entries : List (List String × Entry) := []

inductive FileError where
  | notFound
  | isFolder
  | notFolder
  | nameTooLong
  | nulByte
  | notText
  | other (reason : String)
  deriving DecidableEq, Repr

def FileError.text : FileError → String
  | notFound => "No such file or directory (os error 2)"
  | isFolder => "Is a directory (os error 21)"
  | notFolder => "Not a directory (os error 20)"
  | nameTooLong => "File name too long (os error 36)"
  | nulByte => "file name contained an unexpected NUL byte"
  | notText => "stream did not contain valid UTF-8"
  | other reason => reason

/-- A path: its names and dots, whether it starts at the root, and whether a slash ends it. -/
structure Path where
  parts : List String
  absolute : Bool
  slashEnds : Bool

/-- Reads a path. Several slashes count as one. -/
def Path.ofText (text : String) : Path where
  parts := (text.splitOn "/").filter (· != "")
  absolute := text.startsWith "/"
  slashEnds := text.endsWith "/"

namespace Directory

def root : List String := ["/"]

/-- Whether a folder lies around the directory or is the directory itself. -/
def isAround (folder : List String) : Bool := folder = root || folder.all (· == "..")

/-- The entry at a place. Every path to something leads through folders. -/
def get? (d : Directory) (place : List String) : Option Entry :=
  if isAround place then some .folder
  else match d.entries.find? (·.1 == place) with
    | some (_, entry) => some entry
    | none =>
      if d.entries.any fun entry => place.isPrefixOf entry.1 then some .folder else none

def insert (d : Directory) (place : List String) (entry : Entry) : Directory :=
  ⟨(place, entry) :: d.entries⟩

/-- The folder that holds a folder; the root holds itself. -/
def parent (folder : List String) : List String :=
  if folder = root then root
  else if isAround folder then folder ++ [".."]
  else folder.dropLast

def maxName : Nat := 255

def maxPath : Nat := 4095

def checkName (name : String) : Except FileError Unit :=
  if maxName < name.utf8ByteSize then .error .nameTooLong else .ok ()

/-- Where a path leads: to a folder, or to a name in a folder. -/
inductive Target where
  | folder
  | name (folder : List String) (name : String)

/-- Follows the parts of a path from a folder; all but the last have to be folders. -/
def follow (d : Directory) : (here : List String) → List String → Except FileError Target
  | _, [] => .ok .folder
  | here, part :: rest =>
    if part = "." then follow d here rest
    else if part = ".." then follow d (parent here) rest
    else if rest.isEmpty then .ok (.name here part)
    else do
      checkName part
      match d.get? (here ++ [part]) with
      | some .folder => follow d (here ++ [part]) rest
      | some (.file _) => .error .notFolder
      | none => .error .notFound

def locate (d : Directory) (text : String) : Except FileError Target :=
  let path := Path.ofText text
  if text.contains '\x00' then .error .nulByte
  else if text.isEmpty then .error .notFound
  else if maxPath < text.utf8ByteSize then .error .nameTooLong
  else d.follow (if path.absolute then root else []) path.parts

/-- The text of a file. A slash after its name asks for a folder. -/
def read (d : Directory) (path : String) : Except FileError String := do
  match ← d.locate path with
  | .folder => throw .isFolder
  | .name folder name =>
    checkName name
    match d.get? (folder ++ [name]) with
    | none => throw .notFound
    | some .folder => throw .isFolder
    | some (.file content) =>
      if (Path.ofText path).slashEnds then throw .notFolder
      match String.fromUTF8? content with
      | some text => return text
      | none => throw .notText

/-- Replaces the content of a file, or makes it. A slash after its name is refused before the
name is looked up. -/
def write (d : Directory) (path : String) (text : String) : Except FileError Directory := do
  match ← d.locate path with
  | .folder => throw .isFolder
  | .name folder name =>
    if (Path.ofText path).slashEnds then throw .isFolder
    checkName name
    match d.get? (folder ++ [name]) with
    | some .folder => throw .isFolder
    | _ => return d.insert (folder ++ [name]) (.file text.toUTF8)

end Directory

end BatchAxpby
