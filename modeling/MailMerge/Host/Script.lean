/-
# Shell scripts

The programs of a host are small shell scripts: commands on lines or between semicolons, with quoted
words, the arguments of the script and output that goes to a file or to the error output. Commands
copy the input, print texts or end the script.
-/

import MailMerge.Host.FileSystem
import MailMerge.Text.Numeral

namespace MailMerge.Host

open MailMerge.Text

/-- A token of a command line. -/
inductive ShellToken where
  | word (text : List Char)
  /-- All arguments of the script. -/
  | arguments
  /-- The output goes to the file that follows. -/
  | into
  /-- The output goes to the error output. -/
  | toErrors
  /-- Another command follows. -/
  | next
  deriving DecidableEq, Repr

/-- How the characters of a word are quoted. -/
inductive Quoting where
  | bare
  | single
  | double
  deriving DecidableEq, Repr

/-- The token of a word that has ended, if one was being read. -/
def endWord (word : Option (List Char)) : List ShellToken :=
  match word with
  | some text => [.word text]
  | none => []

/-- The tokens of a command line. `word` holds what was read of a word. -/
def shellTokens (quoting : Quoting) (word : Option (List Char)) : List Char → List ShellToken
  | [] => endWord word
  | c :: rest =>
    let extended := some (word.getD [] ++ [c])
    match quoting with
    | .single =>
      if c = '\'' then shellTokens .bare word rest else shellTokens .single extended rest
    | .double =>
      if c = '"' then shellTokens .bare word rest else shellTokens .double extended rest
    | .bare =>
      match c, rest with
      | ' ', rest | '\t', rest => endWord word ++ shellTokens .bare none rest
      | '"', '$' :: '@' :: '"' :: rest =>
        endWord word ++ .arguments :: shellTokens .bare none rest
      | '>', '&' :: '2' :: rest => endWord word ++ .toErrors :: shellTokens .bare none rest
      | '>', rest => endWord word ++ .into :: shellTokens .bare none rest
      | ';', rest => endWord word ++ .next :: shellTokens .bare none rest
      | '\'', rest => shellTokens .single (some (word.getD [])) rest
      | '"', rest => shellTokens .double (some (word.getD [])) rest
      | _, rest => shellTokens .bare extended rest

/-- Where the output of a command goes. -/
inductive OutputTarget where
  | nowhere
  | file (path : List Char)
  | errors
  deriving DecidableEq, Repr

/-- A command with its arguments and the target of its output. -/
structure Command where
  words : List (List Char)
  target : OutputTarget
  deriving DecidableEq, Repr

/-- The commands of a row of tokens in a script with the given arguments. There is at least one,
which may be empty. -/
def commandsOfTokens (arguments : List (List Char)) : List ShellToken → Command × List Command
  | [] => (⟨[], .nowhere⟩, [])
  | .next :: rest =>
    let (command, commands) := commandsOfTokens arguments rest
    (⟨[], .nowhere⟩, command :: commands)
  | .into :: .word path :: rest =>
    let (command, commands) := commandsOfTokens arguments rest
    ({ command with target := .file path }, commands)
  | .into :: rest => commandsOfTokens arguments rest
  | .toErrors :: rest =>
    let (command, commands) := commandsOfTokens arguments rest
    ({ command with target := .errors }, commands)
  | .arguments :: rest =>
    let (command, commands) := commandsOfTokens arguments rest
    ({ command with words := arguments ++ command.words }, commands)
  | .word text :: rest =>
    let (command, commands) := commandsOfTokens arguments rest
    ({ command with words := text :: command.words }, commands)

/-! ## Printing -/

/-- An octal digit. -/
def isOctalDigit (c : Char) : Bool :=
  '0' ≤ c && c ≤ '7'

/-- A piece of a format. -/
inductive FormatPiece where
  | byte (byte : UInt8)
  /-- The place of an argument. -/
  | argument
  deriving DecidableEq, Repr

/-- The pieces of a character that stands for itself. -/
def literalPieces (c : Char) : List FormatPiece :=
  (encode [c]).map .byte

/-- The pieces of a format. Three octal digits behind a backslash are a byte. -/
def formatPieces : List Char → List FormatPiece
  | [] => []
  | '%' :: 's' :: rest => .argument :: formatPieces rest
  | '%' :: '%' :: rest => .byte 37 :: formatPieces rest
  | '\\' :: 'n' :: rest => .byte 10 :: formatPieces rest
  | '\\' :: 't' :: rest => .byte 9 :: formatPieces rest
  | '\\' :: '\\' :: rest => .byte 92 :: formatPieces rest
  | '\\' :: a :: b :: c :: rest =>
    if isOctalDigit a && isOctalDigit b && isOctalDigit c then
      .byte (UInt8.ofNat ((digitValue a * 8 + digitValue b) * 8 + digitValue c)) ::
        formatPieces rest
    else .byte 92 :: formatPieces (a :: b :: c :: rest)
  | c :: rest => literalPieces c ++ formatPieces rest

/-- The bytes of pieces with the given arguments. A lacking argument is empty. -/
def fillPieces (arguments : List (List Char)) : List FormatPiece → List UInt8
  | [] => []
  | .byte byte :: pieces => byte :: fillPieces arguments pieces
  | .argument :: pieces => encode (arguments.headD []) ++ fillPieces arguments.tail pieces

/-- The bytes of pieces, repeated until the arguments are used up. `rounds` is an upper bound on
the repetitions. -/
def printPieces (pieces : List FormatPiece) : Nat → List (List Char) → List UInt8
  | 0, _ => []
  | rounds + 1, arguments =>
    let left := arguments.drop (pieces.count .argument)
    fillPieces arguments pieces ++
      if left.isEmpty ∨ !pieces.contains .argument then [] else printPieces pieces rounds left

/-- The bytes that a format prints. -/
def printFormat (format : List Char) (arguments : List (List Char)) : List UInt8 :=
  printPieces (formatPieces format) (arguments.length + 1) arguments

/-! ## Running -/

/-- A script that is being run. -/
structure ScriptState where
  files : FileSystem
  /-- The input that has not been read. -/
  input : List UInt8
  /-- What was written to the error output. -/
  errors : List UInt8
  /-- The status of the last command. -/
  status : Nat
  deriving Repr

namespace ScriptState

/-- Send the output of a command to its target. -/
def output (state : ScriptState) (target : OutputTarget) (bytes : List UInt8) : ScriptState :=
  match target with
  | .nowhere => state
  | .errors => { state with errors := state.errors ++ bytes }
  | .file path =>
    if path = "/dev/null".toList then state
    else match state.files.write (String.ofList path) bytes with
      | .ok files => { state with files }
      | .error _ => { state with status := 2 }

/-- Run a command. The command that ends the script is told apart from the others; without a
number it keeps the status, and an empty command does too. -/
def run (state : ScriptState) (command : Command) : ScriptState × Bool :=
  let before := state.status
  let state := { state with status := 0 }
  match command.words with
  | [] => ({ state with status := before }, false)
  | name :: arguments =>
    let print := fun bytes => (state.output command.target bytes, false)
    match String.ofList name with
    | "cat" => ({ state with input := [] }.output command.target state.input, false)
    | "echo" => print (encode (joinWith [' '] arguments ++ ['\n']))
    | "printf" => print (printFormat (arguments.headD []) arguments.tail)
    | "exit" =>
      ({ state with status := ((arguments.head?.bind (numeralBelow? 256)).getD before) }, true)
    | "true" | ":" => (state, false)
    | "false" => ({ state with status := 1 }, false)
    | _ => ({ state with status := 127 }, false)

/-- Run commands in order, up to one that ends the script. -/
def runAll (state : ScriptState) : List Command → ScriptState
  | [] => state
  | command :: commands =>
    match state.run command with
    | (state, true) => state
    | (state, false) => state.runAll commands

end ScriptState

/-- The commands of a script. Lines that begin with a number sign are comments. -/
def scriptCommands (arguments : List (List Char)) (script : List Char) : List Command :=
  ((lines script).filter fun line => line.head? != some '#').flatMap fun line =>
    let (command, commands) := commandsOfTokens arguments (shellTokens .bare none line)
    command :: commands

/-- Run a script on an input. -/
def runScript (files : FileSystem) (script : List Char) (arguments : List (List Char))
    (input : List UInt8) : ScriptState :=
  ScriptState.runAll ⟨files, input, [], 0⟩ (scriptCommands arguments script)

end MailMerge.Host
