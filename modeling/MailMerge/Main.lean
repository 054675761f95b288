/-
# The program

What a call needs of the machine is read beforehand: the variables of the process, the files that
the call names, the clock and chance. The answer is then computed, printed as diagnostics, and the
files that it changed are written. Files have the types of known endings, and domains outside ASCII
are checked without the tables of Unicode.
-/

import MailMerge.CommandLine
import MailMerge.Time.Clock
import Std.Time.DateTime.Timestamp

namespace MailMerge

open MailMerge.Delivery MailMerge.Host MailMerge.Json MailMerge.Mail MailMerge.Template
open MailMerge.Text MailMerge.Time

/-! ## What a call names -/

/-- The variables that a call looks at. -/
def callVariables : List String :=
  ["PATH", "MAILER_TRACE", "MAILER_HOST", "MAILER_PORT", "MAILER_SENDMAIL",
    "MAILER_SENDMAIL_COMMAND", "MAILER_USERNAME", "MAILER_PASSWORD", "MAILER_TLS",
    "MAILER_TIMEOUT_SECS", "MAILER_HELLO_NAME"]

/-- The directories where programs are looked for when no variable names them. -/
def usualDirectories : String := "/bin:/usr/bin"

/-- Where programs are looked for. -/
def searchPath (environment : Environment) : List Char :=
  ((environment.lookup "PATH").getD usualDirectories).toList

/-- The paths at which the mail program may stand. -/
def programPaths (environment : Environment) : List String :=
  let command := ((Options.ofEnvironment environment).command.getD usualCommand).toList
  if command.contains '/' then [String.ofList command]
  else (partsAt ':' (searchPath environment)).map fun directory =>
    String.ofList (if directory.isEmpty then command else directory ++ '/' :: command)

/-- The paths of the files that the values of a call name. -/
def attachmentPaths (files : FileSystem) (path : String) : List String :=
  match readValues files path with
  | .error _ => []
  | .ok values =>
    match Attachment.readAll values.attachments? with
    | .ok attachments => attachments.filterMap Attachment.path
    | .error _ => []

/-- The paths among the arguments of a call: a template on one line, and a file with values. -/
def argumentPaths : List String → List String
  | [] => []
  | template :: rest => (if isPathLike template.toList then [template] else []) ++ rest.take 1

/-- A path with those it leads through, shortest first. -/
def pathsAlong (path : String) : List String :=
  let parts := partsAt '/' path.toList
  (List.range parts.length).map fun n => String.ofList (joinWith ['/'] (parts.take (n + 1)))

/-- The location of a path when every part is a directory. -/
def plainLocation (files : FileSystem) (path : String) : Location :=
  (partsAt '/' path.toList).foldl
    (fun here part =>
      if part = [] ∨ part = ['.'] then here
      else if part = ['.', '.'] then here.dropLast
      else here ++ [String.ofList part])
    (files.start path.toList)

/-! ## The machine -/

/-- Read what stands at a path. What cannot be read is as if it were not there. -/
def readNode (files : FileSystem) (path : String) : IO FileSystem := do
  if path.isEmpty || path.contains (Char.ofNat 0) then return files
  match ← (IO.FS.readBinFile path).toBaseIO with
  | .ok content =>
    let content := content.toList
    return files.makeFile (plainLocation files path) content (interpreter? content).isSome
  | .error _ =>
    match ← (do (← IO.FS.realPath path).isDir).toBaseIO with
    | .ok true => return files.makeDirectory (plainLocation files path)
    | _ => return files

/-- Read what stands at paths and on the way to them. -/
def readNodes (files : FileSystem) (paths : List String) : IO FileSystem :=
  (paths.flatMap pathsAlong).foldlM readNode files

/-- The variables that a call looks at, as far as they are set. -/
def readEnvironment : IO Environment := do
  let found ← callVariables.mapM fun name => do return (← IO.getEnv name).map (name, ·)
  return found.filterMap id

/-- The characters of a boundary. -/
def boundaryAlphabet : List Char :=
  "ABCDEFGHIJKLMNOPQRSTUVWXYZabcdefghijklmnopqrstuvwxyz0123456789".toList

/-- The length of a boundary. -/
def boundaryLength : Nat := 40

/-- The time and a boundary that occurs in no other mail. -/
def readStamp : IO Stamp := do
  let now ← Std.Time.Timestamp.now
  let nanoseconds := now.toNanosecondsSinceUnixEpoch.val.toNat
  let boundary ← (List.range boundaryLength).mapM fun _ => do
    return boundaryAlphabet.getD (← IO.rand 0 (boundaryAlphabet.length - 1)) 'A'
  return ⟨.ofSeconds (nanoseconds / 1000000000) (nanoseconds % 1000000000), boundary⟩

/-- Write the files of one world that are not in another. -/
def writeChanges (before after : FileSystem) : IO Unit :=
  for (location, node) in after.nodes do
    match node with
    | .file content _ =>
      if before.node? location != some node then
        let path := String.ofList (location.flatMap fun name => '/' :: name.toList)
        IO.FS.writeBinFile path ⟨content.toArray⟩
    | .directory => pure ()

/-- Answer a call of the program. -/
def answerProcess (arguments : List String) : IO UInt32 := do
  let environment ← readEnvironment
  let workingDirectory := plainLocation .empty (← IO.currentDir).toString
  let start := { FileSystem.empty.makeDirectory workingDirectory with workingDirectory }
  let named ← readNodes start (argumentPaths arguments)
  let attached := (arguments[1]?.map (attachmentPaths named)).getD []
  let files ← readNodes named (attached ++ programPaths environment)
  let result := answerCall ⟨.isolated, scriptPrograms (searchPath environment)⟩ (← readStamp)
    ⟨files, [], false⟩ ⟨arguments, environment⟩
  (← IO.getStderr).putStr (String.ofList result.output)
  writeChanges files result.world.files
  return UInt32.ofNat result.code

end MailMerge

/-- The entry point. -/
def main (arguments : List String) : IO UInt32 :=
  MailMerge.answerProcess arguments
