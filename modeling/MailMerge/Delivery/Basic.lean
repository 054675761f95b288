/-
# Attempts to deliver

What a transport does with a message: it reports events, changes the world around it and succeeds
or fails. The world holds what outlives a delivery: the files of the host and the messages that were
kept instead of being sent.
-/

import MailMerge.Host.FileSystem
import MailMerge.Mail.Build
import MailMerge.Trace.Basic

namespace MailMerge.Delivery

open MailMerge.Host MailMerge.Json MailMerge.Mail MailMerge.Trace

/-- Why a message was not delivered. -/
inductive DeliveryFailure where
  | build (failure : BuildFailure)
  /-- A transport gave up, by its name and with a reason. -/
  | transport (name : String) (reason : String)

/-- The text of a failure. -/
def DeliveryFailure.message : DeliveryFailure → String
  | .build failure => failure.message
  | .transport name reason => name ++ " delivery failed: " ++ reason

/-- What outlives a delivery. -/
structure World where
  files : FileSystem
  /-- Messages kept instead of being sent, oldest first. -/
  kept : List Message
  /-- Messages are turned away instead of being kept. -/
  turnsAway : Bool

/-- What a transport did with a message. -/
structure Attempt where
  events : List Event
  result : Except DeliveryFailure Unit
  world : World
  /-- Diagnostic records of its own. -/
  log : List LogRecord

/-- A way to deliver messages. -/
structure Transport where
  name : String
  deliver : Stamp → World → Message → Attempt

/-- An event with annotations. -/
def report (level : Level) (message : String) (annotations : List (String × Value)) : Event :=
  ⟨level, message, Members.ofList annotations⟩

/-- The event of a message that is no mail. -/
def buildFailed (failure : BuildFailure) : Event :=
  report .error "Failed to build message" [("reason", .string failure.message)]

/-- A transport that builds a mail first. `send` is only asked when there is one. -/
def Transport.ofMail [InternationalDomains] [FileTypes] (name : String)
    (send : World → Mail → List Event × Except DeliveryFailure Unit × World) : Transport where
  name
  deliver stamp world message :=
    let log := buildLog message
    match build world.files stamp message with
    | .error failure => ⟨[buildFailed failure], .error (.build failure), world, log⟩
    | .ok mail =>
      let (events, result, world) := send world mail
      ⟨events, result, world, log⟩

end MailMerge.Delivery
