/-
# Template input

What a caller hands over as a template: text, bytes or a path. Text without a line feed is taken
for a path, since no template has its parts on one line, and bytes are text once decoded. At most
one file is read, and what it holds is the template, whatever it looks like.
-/

import MailMerge.Host.FileSystem
import MailMerge.Log

namespace MailMerge.Template

open MailMerge.Host MailMerge.Text

/-- A template as it is handed over. -/
inductive Input where
  | text (text : String)
  | bytes (bytes : List UInt8)
  /-- Always read from a file. -/
  | path (path : String)
  deriving DecidableEq, Repr

/-- Where the text of a template is found. -/
inductive Source where
  | inline (text : String)
  | file (path : String)
  deriving DecidableEq, Repr

/-- A text that is read as a path. -/
def isPathLike (text : List Char) : Bool :=
  !text.contains '\n'

/-- Take a text for a path or for a template. -/
def Source.ofText (text : List Char) : Source :=
  if isPathLike text then .file (String.ofList text) else .inline (String.ofList text)

/-- Where the template of an input is found. -/
def Input.source : Input → Source
  | .text given => .ofText given.toList
  | .bytes given => .ofText (decodeLossy given)
  | .path given => .file given

/-- A template file that cannot be read. -/
structure Unreadable where
  path : String
  fault : FileFault
  deriving DecidableEq, Repr

/-- The text of the failure to read a template file. -/
def Unreadable.message (unreadable : Unreadable) : String :=
  "Failed to read template file " ++ unreadable.path ++ ": " ++ unreadable.fault.message

/-- The template of a source. -/
def Source.resolve (files : FileSystem) : Source → Except Unreadable String
  | .inline text => .ok text
  | .file path => (files.readText path).mapError fun fault => ⟨path, fault⟩

/-- What finding a template leaves in the log. -/
def Source.log : Source → List LogRecord
  | .inline _ => []
  | .file path => [.of .debug "Loading template file" [("path", path)]]

/-- The template of an input. -/
def Input.resolve (files : FileSystem) (input : Input) : Except Unreadable String :=
  input.source.resolve files

end MailMerge.Template
