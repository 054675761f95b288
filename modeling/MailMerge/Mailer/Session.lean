/-
# Sessions

A mailer at work: operations on it one after the other, each with an answer. Sends share the options
and the agent of the mailer and the world around it, and nothing else is carried from one to the
next.
-/

import MailMerge.Mailer.Basic

namespace MailMerge

open MailMerge.Delivery MailMerge.Json MailMerge.Mail MailMerge.Template MailMerge.Trace

/-- A mailer and the world around it. -/
structure Session where
  mailer : Mailer
  world : World

/-- An operation on a session. -/
inductive Operation where
  | send (input : Input) (values : Option Values)
  | set (key : String) (value : Value)
  | setAll (members : Members)
  /-- Let an agent hear the events of later sends. -/
  | attach (agent : Agent)
  /-- Take what the agent holds. -/
  | takeHeard
  /-- Let the keeping transport turn messages away, or keep them again. -/
  | turnAway (turnsAway : Bool)
  /-- Take the messages that were kept. -/
  | takeKept

/-- The answer to an operation. -/
inductive Answer where
  | sent (outcome : SendOutcome)
  | done
  | invalid (invalid : InvalidOption)
  | heard (entries : List Entry)
  | kept (messages : List Message)

/-- What an operation leads to. -/
structure SessionStep where
  session : Session
  answer : Answer
  log : List LogRecord

namespace Session

/-- The session with other options. -/
def withOptions (session : Session) (options : Options) : Session :=
  { session with mailer := { session.mailer with options } }

/-- The session with another agent. -/
def withAgent (session : Session) (agent : Option Agent) : Session :=
  { session with mailer := { session.mailer with agent } }

/-- Perform an operation. -/
def perform [InternationalDomains] [FileTypes] (host : Host) (stamp : Stamp)
    (session : Session) : Operation → SessionStep
  | .send input values =>
    let sent := session.mailer.send host stamp session.world input values
    ⟨{ session.withAgent sent.agent with world := sent.world }, .sent sent.outcome, sent.log⟩
  | .set key value =>
    match session.mailer.options.set key value with
    | .ok options => ⟨session.withOptions options, .done, []⟩
    | .error invalid => ⟨session, .invalid invalid, []⟩
  | .setAll members =>
    match session.mailer.options.setAll members with
    | (options, .ok ()) => ⟨session.withOptions options, .done, []⟩
    | (options, .error invalid) => ⟨session.withOptions options, .invalid invalid, []⟩
  | .attach agent => ⟨session.withAgent (some agent), .done, []⟩
  | .takeHeard =>
    let agent := session.mailer.agent
    ⟨session.withAgent (agent.map Agent.emptied), .heard ((agent.map Agent.entries).getD []), []⟩
  | .turnAway turnsAway =>
    ⟨{ session with world := { session.world with turnsAway } }, .done, []⟩
  | .takeKept =>
    ⟨{ session with world := { session.world with kept := [] } }, .kept session.world.kept, []⟩

end Session

end MailMerge
