/-
# Delivery through a program

A mail is piped into the mail program of the host, with the envelope as its arguments. A program
that does not start, or that ends without success, fails the delivery with what it said.
-/

import MailMerge.Delivery.Basic
import MailMerge.Host.Program
import MailMerge.Text.Utf8Fault

namespace MailMerge.Delivery

open MailMerge.Host MailMerge.Json MailMerge.Mail MailMerge.Text MailMerge.Trace

/-- The name of the transport. -/
def programName : String := "sendmail"

/-- The mail program of a host. -/
def usualCommand : String := "sendmail"

/-- The arguments that tell a mail program the envelope. A lone dot in the input does not end
it. -/
def programArguments (envelope : Envelope) : List (List Char) :=
  ["-i".toList, "-f".toList, envelope.sender.text, "--".toList] ++
    envelope.recipients.map Address.text

/-- Why a mail program failed, if it did. -/
def programFailure? : ProgramEnd → Option String
  | .notStarted fault => some ("internal client error: " ++ fault.message)
  | .finished true _ => none
  | .finished false errors =>
    match readUtf8 errors with
    | .ok text => some ("internal client error: " ++ String.ofList text)
    | .error fault => some ("response error: " ++ fault.message)

/-- The event before the program runs. -/
def programOpening (command : String) (mail : Mail) : Event :=
  report .info ("Piping message to " ++ command)
    [("command", .string command), ("recipients", .ofNat mail.envelope.recipients.length)]

/-- Pipe a mail into a program: the events, the reason of a failure and the files afterwards. -/
def pipeToProgram (programs : Programs) (command : String) (files : FileSystem) (mail : Mail) :
    List Event × Except String Unit × FileSystem :=
  let run := programs files ⟨command, programArguments mail.envelope, encode mail.wire⟩
  let opening := programOpening command mail
  match programFailure? run.ending with
  | some reason =>
    ([opening, report .error "sendmail delivery failed" [("reason", .string reason)]],
      .error reason, run.files)
  | none => ([opening, report .info "Message handed to local MTA" []], .ok (), run.files)

/-- Delivery through a program. -/
def program [InternationalDomains] [FileTypes] (programs : Programs)
    (command : Option String) : Transport :=
  .ofMail programName fun world mail =>
    let (events, result, files) :=
      pipeToProgram programs (command.getD usualCommand) world.files mail
    (events, result.mapError (.transport programName), { world with files })

end MailMerge.Delivery
