/-
# Programs

Running a program of the host: where a command is looked for, and how a run ends. A command with a
slash is a path; any other is looked for in the directories of the search path, and a program that
may not be run there is only remembered. A program is a script whose first line names a shell.
-/

import MailMerge.Host.Script

namespace MailMerge.Host

open MailMerge.Text

/-- Why a program does not start. -/
inductive StartFault where
  | file (fault : FileFault)
  /-- The file names no interpreter. -/
  | notRunnable
  /-- The command holds the NUL character. -/
  | nulInCommand
  deriving DecidableEq, Repr

/-- The text of a fault. -/
def StartFault.message : StartFault → String
  | .file fault => fault.message
  | .notRunnable => "Exec format error (os error 8)"
  | .nulInCommand => "nul byte found in provided data"

/-- How the run of a program ends. -/
inductive ProgramEnd where
  | notStarted (fault : StartFault)
  /-- The program ran; whether it succeeded, and what it wrote to the error output. -/
  | finished (succeeded : Bool) (errors : List UInt8)
  deriving DecidableEq, Repr

/-- The run of a program: the files after it and how it ended. -/
structure ProgramRun where
  files : FileSystem
  ending : ProgramEnd
  deriving Repr

/-- A call of a program. -/
structure ProgramCall where
  command : String
  arguments : List (List Char)
  input : List UInt8
  deriving DecidableEq, Repr

/-- The programs of a host. -/
abbrev Programs := FileSystem → ProgramCall → ProgramRun

/-- A character between the parts of the first line of a script. -/
def isGap (byte : UInt8) : Bool := byte == 32 || byte == 9

/-- The interpreter that the first line of a script names. -/
def interpreter? (program : List UInt8) : Option (List Char) :=
  match program with
  | 35 :: 33 :: rest =>
    let line := (rest.takeWhile fun byte => byte != 10).dropWhile isGap
    let name := line.takeWhile fun byte => !isGap byte
    if name.isEmpty then none else some (decodeLossy name)
  | _ => none

/-- The shells of the host. -/
def shells : List (List Char) :=
  ["/bin/sh", "/bin/bash", "/bin/dash", "/usr/bin/sh", "/usr/bin/bash", "/usr/bin/dash"].map
    String.toList

/-- The script at a path. A lacking interpreter is reported like a lacking file. -/
def readScript (files : FileSystem) (path : List Char) : Except StartFault (List UInt8) := do
  let program ← (files.readProgram (String.ofList path)).mapError .file
  match interpreter? program with
  | none => .error .notRunnable
  | some name => if shells.contains name then .ok program else .error (.file .notFound)

/-- A fault after which the next directory is tried. -/
def goesOn : FileFault → Bool
  | .notFound | .notADirectory | .permissionDenied => true
  | _ => false

/-- Look for a command in directories. When it is in none of them, the last fault counts, unless a
program was refused before. -/
def searchIn (files : FileSystem) (command : List Char) (refused : FileFault) :
    List (List Char) → Except StartFault (List UInt8)
  | [] => .error (.file refused)
  | directory :: directories =>
    let path := if directory.isEmpty then command else directory ++ '/' :: command
    match readScript files path with
    | .error (.file fault) =>
      if goesOn fault then
        searchIn files command (if refused = .permissionDenied then refused else fault) directories
      else .error (.file fault)
    | found => found

/-- The program of a command. -/
def findProgram (searchPath : List Char) (files : FileSystem) (command : String) :
    Except StartFault (List UInt8) :=
  let name := command.toList
  if name.contains (Char.ofNat 0) then .error .nulInCommand
  else if name.isEmpty ∨ name.contains '/' then readScript files name
  else searchIn files name .notFound (partsAt ':' searchPath)

/-- The programs of a host whose programs are scripts. -/
def scriptPrograms (searchPath : List Char) : Programs := fun files call =>
  match findProgram searchPath files call.command with
  | .error fault => ⟨files, .notStarted fault⟩
  | .ok program =>
    let state := runScript files (decodeLossy program) call.arguments call.input
    ⟨state.files, .finished (state.status == 0) state.errors⟩

end MailMerge.Host
