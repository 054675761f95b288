/-
# The mailer

One send takes a template from its source to a transport: the template is found, filled in, made a
message and delivered. A template that cannot be found or is no message never reaches a transport.
Whatever happens, the outcome tells the result, the filled-in template and what the transport
reported.
-/

import MailMerge.Delivery.Keeping
import MailMerge.Delivery.Program
import MailMerge.Delivery.Relay
import MailMerge.Message.Composition
import MailMerge.Options.Setting
import MailMerge.Template.Input
import MailMerge.Text.Quoted

namespace MailMerge

open MailMerge.Delivery MailMerge.Host MailMerge.Mail MailMerge.Message MailMerge.Template
open MailMerge.Text MailMerge.Trace

/-- What of the host a mailer uses. -/
structure Host where
  network : Network
  programs : Programs

/-- Why a send failed. -/
inductive SendFailure where
  | unreadable (unreadable : Unreadable)
  | rejected (rejection : Rejection)
  | delivery (failure : DeliveryFailure)

namespace SendFailure

/-- The text of a failure. -/
def message : SendFailure → String
  | .unreadable given => given.message
  | .rejected given => given.message
  | .delivery given => "Transport error: " ++ given.message

/-- The failure that led to this one, if there is another. -/
def cause? : SendFailure → Option String
  | .unreadable given => some given.fault.message
  | .rejected _ => none
  | .delivery given => some given.message

end SendFailure

/-- What a send reports back. -/
structure SendOutcome where
  result : Except SendFailure Unit
  /-- The template as it was filled in; absent when it was not found. -/
  template : Option String
  /-- What the transport reported; empty when no transport was reached. -/
  trace : List Entry

/-- A mailer. -/
structure Mailer where
  options : Options := {}
  markup : Markup := .placeholder
  /-- A transport in place of the one that the options select. -/
  custom : Option Transport := none
  /-- A listener to the events of every send. -/
  agent : Option Agent := none

/-- Everything a send leaves behind. -/
structure Sent where
  outcome : SendOutcome
  /-- The agent after it heard the events. -/
  agent : Option Agent
  world : World
  log : List LogRecord

/-- Hand the failure, the template and the trace of an outcome to a callback. -/
def SendOutcome.withCallback {α : Type} (outcome : SendOutcome)
    (callback : Option SendFailure → Option String → List Entry → α) : α :=
  match outcome.result with
  | .ok () => callback none outcome.template outcome.trace
  | .error failure => callback (some failure) outcome.template outcome.trace

variable [InternationalDomains] [FileTypes]

/-- The transport that options select. -/
def Options.transport (options : Options) (host : Host) : Transport :=
  match options.route with
  | .relay .. => relay host.network options
  | .program command => program host.programs command

/-- What selecting a transport leaves in the log: the options that it does not use. -/
def Options.selectionLog (options : Options) : List LogRecord :=
  if options.unrecognised.isEmpty then []
  else [.of .debug "Options not used by the built-in transports"
    [("options", String.ofList (quotedList options.unrecognised))]]

namespace Mailer

/-- The transport of a mailer. -/
def transport (mailer : Mailer) (host : Host) : Transport :=
  mailer.custom.getD (mailer.options.transport host)

/-- What choosing the transport leaves in the log. -/
def selectionLog (mailer : Mailer) : List LogRecord :=
  if mailer.custom.isSome then [] else mailer.options.selectionLog

/-- Deliver a message that a template gave. -/
def deliver (mailer : Mailer) (host : Host) (stamp : Stamp) (world : World) (rendered : String)
    (message : Message) : Sent :=
  let transport := mailer.transport host
  let place := [("transport", transport.name), ("to", message.recipients)]
  let attempt := transport.deliver stamp world message
  let recording := attempt.events.foldl (fun recording event => recording.record stamp.now event)
    (Recording.start mailer.agent)
  let (result, ending) : Except SendFailure Unit × LogRecord :=
    match attempt.result with
    | .ok () => (.ok (), .of .info "Email sent" place)
    | .error failure => (.error (.delivery failure), .of .error "Email delivery failed"
        (place ++ [("error", (SendFailure.delivery failure).message)]))
  { outcome := ⟨result, some rendered, recording.entries⟩
    agent := recording.agent
    world := attempt.world
    log := mailer.selectionLog ++ [.of .debug "Delivering message" place] ++ attempt.log ++
      (mailer.agent.map (Agent.log attempt.events)).getD [] ++ [ending] }

/-- Send a template that was found. -/
def sendFound (mailer : Mailer) (host : Host) (stamp : Stamp) (world : World) (text : String)
    (values : Option Values) : Sent :=
  let rendered := render mailer.markup text values
  match assemble rendered values with
  | .ok message => mailer.deliver host stamp world rendered message
  | .error rejection =>
    { outcome := ⟨.error (.rejected rejection), some rendered, []⟩
      agent := mailer.agent
      world
      log := [.of .warn "Template rejected" [("error", rejection.message)]] }

/-- Send a template. -/
def send (mailer : Mailer) (host : Host) (stamp : Stamp) (world : World) (input : Input)
    (values : Option Values) : Sent :=
  let source := input.source
  match source.resolve world.files with
  | .ok text =>
    let sent := mailer.sendFound host stamp world text values
    { sent with log := source.log ++ sent.log }
  | .error unreadable =>
    { outcome := ⟨.error (.unreadable unreadable), none, []⟩
      agent := mailer.agent
      world
      log := source.log ++
        [.of .warn "Template could not be resolved" [("error", unreadable.message)]] }

end Mailer

end MailMerge
