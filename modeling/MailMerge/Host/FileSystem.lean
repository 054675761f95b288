/-
# Files

The files a program can reach, as a value: absolute locations with what stands there, and the
working directory from which relative paths start. Looking up a path follows it part by part and
fails the way a file system does.
-/

import MailMerge.Text.Lines
import MailMerge.Text.Utf8

namespace MailMerge.Host

open MailMerge.Text

/-- Why a file cannot be used. -/
inductive FileFault where
  | notFound
  | permissionDenied
  | notADirectory
  | isADirectory
  | nameTooLong
  /-- The path holds the NUL character. -/
  | nulInPath
  /-- A text was wanted and the bytes are no UTF-8. -/
  | notText
  deriving DecidableEq, Repr

/-- The text of a fault. -/
def FileFault.message : FileFault → String
  | .notFound => "No such file or directory (os error 2)"
  | .permissionDenied => "Permission denied (os error 13)"
  | .notADirectory => "Not a directory (os error 20)"
  | .isADirectory => "Is a directory (os error 21)"
  | .nameTooLong => "File name too long (os error 36)"
  | .nulInPath => "file name contained an unexpected NUL byte"
  | .notText => "stream did not contain valid UTF-8"

/-- What stands at a location. -/
inductive Node where
  | file (content : List UInt8) (executable : Bool)
  | directory
  deriving DecidableEq, Repr

/-- A place in the tree of directories: the names from the root down. -/
abbrev Location := List String

/-- The reachable files. -/
structure FileSystem where
  nodes : List (Location × Node)
  workingDirectory : Location
  deriving Repr

/-- The greatest length of one name, in bytes. -/
def nameLimit : Nat := 255

/-- The greatest length of a path, in bytes. -/
def pathLimit : Nat := 4095

namespace FileSystem

/-- No files but the root directory. -/
def empty : FileSystem := ⟨[], []⟩

/-- What stands at a location. The root is a directory. -/
def node? (files : FileSystem) (location : Location) : Option Node :=
  if location.isEmpty then some .directory else files.nodes.lookup location

/-- Put a node at a location, in place of what may stand there. -/
def put (files : FileSystem) (location : Location) (node : Node) : FileSystem :=
  { files with nodes := (location, node) :: files.nodes.filter fun entry => entry.1 != location }

/-- Make a directory and those above it. -/
def makeDirectory (files : FileSystem) (location : Location) : FileSystem :=
  ((List.range location.length).map fun n => location.take (n + 1)).foldl
    (fun files location => if (files.node? location).isSome then files
      else files.put location .directory) files

/-- Make a file, with the directories above it. -/
def makeFile (files : FileSystem) (location : Location) (content : List UInt8)
    (executable : Bool) : FileSystem :=
  (files.makeDirectory location.dropLast).put location (.file content executable)

/-- Follow the parts of a path from a location. A part can only be taken from a directory. -/
def walk (files : FileSystem) (here : Location) : List (List Char) → Except FileFault Location
  | [] => .ok here
  | part :: parts =>
    match files.node? here with
    | none => .error .notFound
    | some (.file ..) => .error .notADirectory
    | some .directory =>
      if part = [] ∨ part = ['.'] then walk files here parts
      else if part = ['.', '.'] then walk files here.dropLast parts
      else if nameLimit < encodedLength part then .error .nameTooLong
      else
        let next := here ++ [String.ofList part]
        if (files.node? next).isSome then walk files next parts else .error .notFound

/-- Where the parts of a path start: at the root after a leading slash, else at the working
directory. -/
def start (files : FileSystem) (path : List Char) : Location :=
  match path with
  | '/' :: _ => []
  | _ => files.workingDirectory

/-- A path that can be followed at all. -/
def checkPath (path : List Char) : Except FileFault Unit :=
  if path.contains (Char.ofNat 0) then .error .nulInPath
  else if path.isEmpty then .error .notFound
  else if pathLimit < encodedLength path then .error .nameTooLong
  else .ok ()

/-- The location of something that exists. -/
def locate (files : FileSystem) (path : String) : Except FileFault Location := do
  checkPath path.toList
  files.walk (files.start path.toList) (partsAt '/' path.toList)

/-- The bytes of a file. -/
def readBytes (files : FileSystem) (path : String) : Except FileFault (List UInt8) := do
  let location ← files.locate path
  match files.node? location with
  | some (.file content _) => .ok content
  | some .directory => .error .isADirectory
  | none => .error .notFound

/-- The text of a file. -/
def readText (files : FileSystem) (path : String) : Except FileFault String := do
  match decode? (← files.readBytes path) with
  | some text => .ok (String.ofList text)
  | none => .error .notText

/-- The bytes of a file that can be run. -/
def readProgram (files : FileSystem) (path : String) : Except FileFault (List UInt8) := do
  let location ← files.locate path
  match files.node? location with
  | some (.file content true) => .ok content
  | some _ => .error .permissionDenied
  | none => .error .notFound

/-- Write a file, new or not. Its directory must exist. -/
def write (files : FileSystem) (path : String) (content : List UInt8) :
    Except FileFault FileSystem := do
  match files.locate path with
  | .ok location =>
    match files.node? location with
    | some (.file _ executable) => .ok (files.put location (.file content executable))
    | _ => .error .isADirectory
  | .error .notFound =>
    checkPath path.toList
    let parts := partsAt '/' path.toList
    let above ← files.walk (files.start path.toList) parts.dropLast
    match files.node? above, parts.getLast? with
    | some .directory, some (name :: rest) =>
      .ok (files.put (above ++ [String.ofList (name :: rest)]) (.file content false))
    | _, _ => .error .notFound
  | .error fault => .error fault

end FileSystem

end MailMerge.Host
