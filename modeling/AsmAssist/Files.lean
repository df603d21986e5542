import AsmAssist.Text.Bytes

/- Files as data: a tree that is fixed while the program runs, and the paths that lead into it. -/

namespace AsmAssist

inductive FileError where
  | missing (path : Bytes)
  | notDirectory (path : Bytes)
  | directory (path : Bytes)
  | invalid (path : Bytes)
  | tooLong (path : Bytes)
deriving DecidableEq, Repr

/-- A directory is noticed only when it is read. -/
def FileError.message : FileError → Bytes
  | missing path => .ofString "open " ++ path ++ .ofString ": no such file or directory"
  | notDirectory path => .ofString "open " ++ path ++ .ofString ": not a directory"
  | directory path => .ofString "read " ++ path ++ .ofString ": is a directory"
  | invalid path => .ofString "open " ++ path ++ .ofString ": invalid argument"
  | tooLong path => .ofString "open " ++ path ++ .ofString ": file name too long"

/-- Files by the names of the directories above them and their own, from the root. A directory
    exists if it is listed or something lies in it. `home` is where relative paths start. -/
structure Files where
  files : List (List Bytes × Bytes)
  directories : List (List Bytes)
  home : List Bytes

namespace Files

def slash : UInt8 := '/'.toUInt8

def here : Bytes := [0x2E]

def above : Bytes := [0x2E, 0x2E]

def isAbsolute (path : Bytes) : Bool := path.head? == some slash

inductive Entry where
  | file (content : Bytes)
  | directory
deriving DecidableEq, Repr

/-- The file written last under a name counts. -/
def entry? (fs : Files) (place : List Bytes) : Option Entry :=
  match fs.files.findRev? (·.1 == place) with
  | some (_, content) => some (.file content)
  | none =>
      if (fs.files.map (·.1) ++ fs.directories).any place.isPrefixOf then some .directory else none

def nameLimit : Nat := 255

def pathLimit : Nat := 4095

/-- Follows the parts of a path from a place. Only directories have parts in them, and the empty
    part after a last slash is one. -/
def walk (fs : Files) (path : Bytes) (place : List Bytes) : List Bytes → Except FileError Entry
  | [] =>
      match fs.entry? place with
      | some found => .ok found
      | none => .error (.missing path)
  | part :: parts =>
      match fs.entry? place with
      | none => .error (.missing path)
      | some (.file _) => .error (.notDirectory path)
      | some .directory =>
          if nameLimit < part.length then .error (.tooLong path)
          else if part.isEmpty || part == here then walk fs path place parts
          else if part == above then walk fs path place.dropLast parts
          else walk fs path (place ++ [part]) parts

def find (fs : Files) (path : Bytes) : Except FileError Entry :=
  if path.isEmpty then .error (.missing path)
  else if path.contains 0 then .error (.invalid path)
  else if pathLimit < path.length then .error (.tooLong path)
  else walk fs path (if isAbsolute path then [] else fs.home) (Sequence.splitOn slash path)

def has (fs : Files) (path : Bytes) : Bool :=
  match fs.find path with
  | .ok _ => true
  | .error _ => false

def read (fs : Files) (path : Bytes) : Except FileError Bytes :=
  match fs.find path with
  | .ok (.file content) => .ok content
  | .ok .directory => .error (.directory path)
  | .error e => .error e

/-- Adds a part to the parts of a shortened path, which are held from the last to the first. -/
def shorten (isRooted : Bool) (parts : List Bytes) (part : Bytes) : List Bytes :=
  if part.isEmpty || part == here then parts
  else if part == above then
    match parts with
    | [] => if isRooted then [] else [above]
    | last :: before => if last == above then above :: parts else before
  else part :: parts

/-- The shortest path that leads the same way. -/
def clean (path : Bytes) : Bytes :=
  let isRooted := isAbsolute path
  let parts := ((Sequence.splitOn slash path).foldl (shorten isRooted) []).reverse
  let joined := Bytes.join [slash] parts
  if isRooted then slash :: joined else if joined.isEmpty then here else joined

/-- The path of a name in a directory; no directory is the one where relative paths start. -/
def inDirectory (directory name : Bytes) : Bytes :=
  if directory.isEmpty then clean name else clean (directory ++ slash :: name)

/-- Files named relative to a directory, beside other directories that are empty. -/
def ofNamed (home : List Bytes) (directories : List (List Bytes))
    (named : List (Bytes × Bytes)) : Files where
  files := named.map fun (name, content) =>
    ((Sequence.splitOn slash name).foldl (shorten true) home.reverse |>.reverse, content)
  directories := home :: directories
  home := home

end Files

end AsmAssist
