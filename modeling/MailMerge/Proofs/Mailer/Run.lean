/-
# Runs of a session

What a run of operations carries from one send to the next. Each send is accounted
for by itself. Over the whole run the transport is asked to deliver each accepted
message once, in the order of the sends, and nothing else: this is seen with a
transport that keeps whatever it is asked to deliver and otherwise answers at will.
The keeping transport holds those of them that came while it was working.
-/

import Mathlib.Data.List.Basic
import MailMerge.Mailer.Session
import MailMerge.Proofs.Mailer.Send

namespace MailMerge

open MailMerge.Delivery MailMerge.Mail MailMerge.Message MailMerge.Template MailMerge.Trace

variable [InternationalDomains] [FileTypes]

/-- One operation of a run: the session before it and what it led to. -/
structure Turn where
  before : Session
  stamp : Stamp
  operation : Operation
  step : SessionStep

namespace Session

/-- The operations of a run, each with the session it found. -/
def history (host : Host) : Session → List (Stamp × Operation) → List Turn
  | _, [] => []
  | session, (stamp, operation) :: steps =>
    let step := session.perform host stamp operation
    ⟨session, stamp, operation, step⟩ :: history host step.session steps

/-- The session that a run leads to. -/
def after (host : Host) (session : Session) (steps : List (Stamp × Operation)) : Session :=
  steps.foldl (fun session (stamp, operation) => (session.perform host stamp operation).session)
    session

/-- The session with a transport in place of the one its options select. -/
def withTransport (session : Session) (transport : Transport) : Session :=
  { session with mailer := { session.mailer with custom := some transport } }

end Session

namespace Turn

/-- The message that a send of the run hands to its transport. -/
def accepted? (turn : Turn) : Option Message :=
  match turn.operation with
  | .send input values => turn.before.mailer.accepted? turn.before.world input values
  | _ => none

/-- The accepted message, if the keeping transport was working. -/
def kept? (turn : Turn) : Option Message :=
  if turn.before.world.turnsAway then none else turn.accepted?

/-- The messages that were taken from those kept. -/
def taken (turn : Turn) : List Message :=
  match turn.step.answer with
  | .kept messages => messages
  | _ => []

/-- The operation answers with the outcome of a send, which leaves the mailer as it was but for
its agent. -/
structure Reports (turn : Turn) (sent : Sent) : Prop where
  answer : turn.step.answer = .sent sent.outcome
  mailer : turn.step.session.mailer = { turn.before.mailer with agent := sent.agent }
  world : turn.step.session.world = sent.world
  log : turn.step.log = sent.log

end Turn

/-- The messages taken during a run, then those still kept at its end. -/
def Session.collected (host : Host) (session : Session) (steps : List (Stamp × Operation)) :
    List Message :=
  (session.history host steps).flatMap Turn.taken ++ (session.after host steps).world.kept

/-- A transport that keeps every message it is asked to deliver and answers at will. -/
def witnessing (name : String) (answer : Stamp → World → Message →
    List Event × Except DeliveryFailure Unit × List LogRecord) : Transport where
  name
  deliver stamp world message :=
    let (events, result, log) := answer stamp world message
    ⟨events, result, { world with kept := world.kept ++ [message] }, log⟩

namespace Session

/-- A turn of a run is an operation performed. -/
theorem step_of_mem_history {host : Host} {session : Session}
    {steps : List (Stamp × Operation)} {turn : Turn} (hturn : turn ∈ session.history host steps) :
    turn.step = turn.before.perform host turn.stamp turn.operation := by
  induction steps generalizing session with
  | nil => cases hturn
  | cons step steps ih =>
      rw [history] at hturn
      rcases List.mem_cons.1 hturn with rfl | hturn
      · rfl
      · exact ih hturn

/-- No operation changes the transport of the session. -/
theorem custom_perform (host : Host) (session : Session) (stamp : Stamp) (operation : Operation) :
    (session.perform host stamp operation).session.mailer.custom = session.mailer.custom := by
  cases operation with
  | send input values => rfl
  | set key value =>
      rw [perform]
      split <;> rfl
  | setAll members =>
      rw [perform]
      split <;> rfl
  | attach agent => rfl
  | takeHeard => rfl
  | turnAway turnsAway => rfl
  | takeKept => rfl

section Kept

variable {transport : Transport} {gain : World → Message → List Message}

/-- One operation: what is taken and what is held afterwards are what was held before and what
the transport gained from an accepted send. -/
theorem taken_append_kept_perform (hgain : ∀ stamp world message,
      (transport.deliver stamp world message).world.kept = world.kept ++ gain world message)
    (host : Host) {session : Session} (custom : session.mailer.custom = some transport)
    (stamp : Stamp) (operation : Operation) :
    let turn : Turn := ⟨session, stamp, operation, session.perform host stamp operation⟩
    turn.taken ++ turn.step.session.world.kept =
      session.world.kept ++ turn.accepted?.toList.flatMap (gain session.world) := by
  cases operation with
  | send input values =>
      have account := Mailer.accounts_send session.mailer host stamp session.world input values
      have htransport : session.mailer.transport host = transport := by
        rw [Mailer.transport, custom, Option.getD_some]
      show [] ++ (session.mailer.send host stamp session.world input values).world.kept =
        session.world.kept ++ (session.mailer.accepted? session.world input
          values).toList.flatMap (gain session.world)
      cases haccepted : session.mailer.accepted? session.world input values with
      | some message =>
          rw [(account.delivered message haccepted).world, htransport, hgain, List.nil_append,
            Option.toList_some, List.flatMap_singleton]
      | none =>
          obtain ⟨failure, -, refused⟩ := account.refused haccepted
          rw [refused.world, List.nil_append, Option.toList_none, List.flatMap_nil,
            List.append_nil]
  | set key value =>
      simp only [perform, Turn.accepted?, Turn.taken]
      cases session.mailer.options.set key value <;> simp [withOptions]
  | setAll members =>
      simp only [perform, Turn.accepted?, Turn.taken]
      obtain ⟨options, result⟩ := session.mailer.options.setAll members
      cases result <;> simp [withOptions]
  | attach agent => simp [perform, Turn.accepted?, Turn.taken, withAgent]
  | takeHeard => simp [perform, Turn.accepted?, Turn.taken, withAgent]
  | turnAway turnsAway => simp [perform, Turn.accepted?, Turn.taken]
  | takeKept => simp [perform, Turn.accepted?, Turn.taken]

/-- A whole run: nothing that the transport gained is lost, doubled or out of order. -/
theorem collected_eq (hgain : ∀ stamp world message,
      (transport.deliver stamp world message).world.kept = world.kept ++ gain world message)
    (host : Host) {session : Session} (custom : session.mailer.custom = some transport)
    (steps : List (Stamp × Operation)) :
    session.collected host steps =
      session.world.kept ++ (session.history host steps).flatMap fun turn =>
        turn.accepted?.toList.flatMap (gain turn.before.world) := by
  -- The session that the first operation leads to has the same transport.
  induction steps generalizing session with
  | nil => simp [collected, history, after]
  | cons step steps ih =>
      obtain ⟨stamp, operation⟩ := step
      have hstep := taken_append_kept_perform hgain host custom stamp operation
      have hrest := ih ((custom_perform host session stamp operation).trans custom)
      rw [collected] at hrest
      rw [collected, history, List.flatMap_cons, List.flatMap_cons, after, List.foldl_cons,
        ← after, List.append_assoc, hrest, ← List.append_assoc, hstep, List.append_assoc]

end Kept

/-- The account of a run. Each send reports what it accounts for. A transport that keeps whatever
it is asked to deliver holds the accepted messages of the run, each once and in order; the keeping
transport holds those that came while it was working. -/
theorem history_accounts (host : Host) (session : Session) (steps : List (Stamp × Operation)) :
    (∀ turn ∈ session.history host steps, ∀ input values,
        turn.operation = .send input values →
        ∃ sent, turn.Reports sent ∧
          turn.before.mailer.Accounts host turn.stamp turn.before.world input values sent) ∧
      (∀ name answer,
        (session.withTransport (witnessing name answer)).collected host steps =
          session.world.kept ++
            ((session.withTransport (witnessing name answer)).history host steps).filterMap
              Turn.accepted?) ∧
      (session.withTransport keeping).collected host steps =
        session.world.kept ++
          ((session.withTransport keeping).history host steps).filterMap Turn.kept? := by
  refine ⟨?_, ?_, ?_⟩
  · intro turn hturn input values hoperation
    have hstep := step_of_mem_history hturn
    rw [hoperation] at hstep
    refine ⟨turn.before.mailer.send host turn.stamp turn.before.world input values, ?_,
      Mailer.accounts_send ..⟩
    constructor
    · rw [hstep, perform]
    · rw [hstep, perform]
      rfl
    · rw [hstep, perform]
    · rw [hstep, perform]
  · intro name answer
    have hgain : ∀ stamp world message,
        ((witnessing name answer).deliver stamp world message).world.kept =
          world.kept ++ [message] := fun _ _ _ => rfl
    rw [collected_eq hgain host rfl, List.filterMap_eq_flatMap_toList]
    simp only [List.flatMap_singleton']
    rfl
  · have hgain : ∀ stamp world message,
        (keeping.deliver stamp world message).world.kept =
          world.kept ++ if world.turnsAway then [] else [message] := by
      intro stamp world message
      simp only [keeping]
      split <;> simp
    rw [collected_eq hgain host rfl, List.filterMap_eq_flatMap_toList]
    congr 1
    apply List.flatMap_congr
    intro turn _
    rw [Turn.kept?]
    cases turn.before.world.turnsAway with
    | true =>
        cases turn.accepted? <;> rfl
    | false =>
        cases turn.accepted? <;> rfl

end Session

end MailMerge
