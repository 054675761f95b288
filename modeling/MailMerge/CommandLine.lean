/-
# The command line

One call of the program: a template, and a file with values if one is named. Options come from the
variables of the process. What is printed tells the way of delivery, what the transport reported
and the end; a failure is printed with what led to it.
-/

import MailMerge.Json.Complaint
import MailMerge.Mailer.Basic

namespace MailMerge

open MailMerge.Delivery MailMerge.Host MailMerge.Json MailMerge.Mail MailMerge.Template
open MailMerge.Text MailMerge.Trace

/-- A call of the program. -/
structure Invocation where
  arguments : List String
  environment : Environment

/-- The end of a call: its exit code, what it printed as diagnostics and the world afterwards. -/
structure CallResult where
  code : Nat
  output : List Char
  world : World

/-- What is printed when no template is named. -/
def usage : List String := [
  "Usage: template-mailer <template> [values.json]",
  "  <template>     template file, or inline text containing a newline",
  "  [values.json]  JSON object of substitution values"]

/-- A line of output. -/
def outputLine (text : List Char) : List Char := text ++ ['\n']

/-- A failure with the failures that led to it, nearest first. -/
structure Failure where
  context : String
  causes : List String
  deriving DecidableEq, Repr

/-- A text with every line but the first behind an indentation. -/
def indented (indentation text : List Char) : List Char :=
  joinWith ('\n' :: indentation) (partsAt '\n' text)

/-- A number at the end of a field of five characters. -/
def rightAligned (n : Nat) : List Char :=
  List.replicate (5 - (decimalDigits n).length) ' ' ++ decimalDigits n

/-- Causes behind their numbers. -/
def numberedCauses (index : Nat) : List String → List (List Char)
  | [] => []
  | cause :: causes =>
    (rightAligned index ++ ':' :: ' ' :: indented (List.replicate 7 ' ') cause.toList) ::
      numberedCauses (index + 1) causes

/-- The output of a failure. A single cause is not numbered. -/
def Failure.write (failure : Failure) : List Char :=
  let causes := match failure.causes with
    | [cause] => [List.replicate 4 ' ' ++ indented (List.replicate 4 ' ') cause.toList]
    | causes => numberedCauses 0 causes
  let heading := outputLine ("Error: " ++ failure.context).toList
  if causes.isEmpty then heading
  else heading ++ '\n' :: outputLine "Caused by:".toList ++ causes.flatMap outputLine

/-- The failure of a send. -/
def SendFailure.failure (failure : SendFailure) : Failure :=
  ⟨"send failed", failure.message :: failure.cause?.toList⟩

/-- Read the values of a file. -/
def readValues (files : FileSystem) (path : String) : Except Failure Values :=
  match files.readText path with
  | .error fault => .error ⟨"reading values from " ++ path, [fault.message]⟩
  | .ok text =>
    match Value.parse text with
    | .error _ => .error ⟨"parsing " ++ path, [complaintAbout text]⟩
    | .ok value =>
      match Values.ofValue? value with
      | some values => .ok values
      | none => .error ⟨path ++ " must contain a JSON object", []⟩

/-- The line that tells the way of delivery. -/
def routeLine (options : Options) : List Char :=
  let way := match options.route with
    | .program _ => "sendmail"
    | .relay host port => "smtp://" ++ host ++ ":" ++ decimal port.val
  outputLine ("   Transport: " ++ way).toList

/-- The line of a trace entry. -/
def entryLine (entry : Entry) : List Char :=
  outputLine ("   [" ++ entry.level.name ++ "] " ++ entry.message ++ " " ++
    (Value.object entry.extra).compact).toList

/-- The exit code of a call without a template. -/
def usageCode : Nat := 2

/-- The exit code of a call that failed. -/
def failureCode : Nat := 1

variable [InternationalDomains] [FileTypes]

/-- Send a template with the options that the variables give. -/
def callMailer (host : Host) (stamp : Stamp) (world : World) (environment : Environment)
    (template : String) (values : Option Values) : CallResult :=
  let options := Options.ofEnvironment environment
  let agent := (environment.lookup "MAILER_TRACE").map fun _ => Agent.logger
  let sent := ({ options, agent } : Mailer).send host stamp world (.text template) values
  let report := routeLine options ++ sent.outcome.trace.flatMap entryLine
  match sent.outcome.result with
  | .ok () => ⟨0, report ++ outputLine "   Sent.".toList, sent.world⟩
  | .error failure => ⟨failureCode, report ++ failure.failure.write, sent.world⟩

/-- Answer a call. Arguments after the second are ignored. -/
def answerCall (host : Host) (stamp : Stamp) (world : World) (invocation : Invocation) :
    CallResult :=
  match invocation.arguments with
  | [] => ⟨usageCode, usage.flatMap fun line => outputLine line.toList, world⟩
  | [template] => callMailer host stamp world invocation.environment template none
  | template :: path :: _ =>
    match readValues world.files path with
    | .ok values => callMailer host stamp world invocation.environment template (some values)
    | .error failure => ⟨failureCode, failure.write, world⟩

end MailMerge
