/-
# What an agent hears

An agent that keeps what it hears holds the same entries that the sends give back to
their callers. The two live differently long: the trace of a send begins empty and goes
to the caller at its end, while the agent holds everything until it is taken. Over a run
nothing is heard that no send reports, and nothing that a send reports goes unheard.
Apart from what it hears, an agent changes nothing about a send.
-/

import MailMerge.Proofs.Mail.Recipients
import MailMerge.Proofs.Mailer.Run

namespace MailMerge.Trace

open MailMerge.Json

/-- What an entry tells of its event. -/
def Entry.told (entry : Entry) : Level × String × Members :=
  (entry.level, entry.message, entry.extra)

/-- An agent hears one after the other the events that are recorded beside it. -/
theorem agent_foldl_record (now : Time.Utc) (events : List Event) {recording : Recording}
    {held : List Entry} (attached : recording.agent = some (.recorder held)) :
    (events.foldl (fun recording event => recording.record now event) recording).agent =
      some (.recorder (held ++ events.map (Event.entry now))) := by
  induction events generalizing recording held with
  | nil => rw [List.foldl_nil, attached, List.map_nil, List.append_nil]
  | cons event events ih =>
      have hnext : (recording.record now event).agent =
          some (.recorder (held ++ [event.entry now])) := by
        rw [Recording.record, attached]
        rfl
      rw [List.foldl_cons, ih hnext, List.map_cons, List.append_assoc, List.singleton_append]

end MailMerge.Trace

namespace MailMerge

open MailMerge.Delivery MailMerge.Mail MailMerge.Message MailMerge.Template MailMerge.Trace

/-! ## One send -/

namespace Mailer

variable [InternationalDomains] [FileTypes] {mailer : Mailer} {held : List Entry}

theorem agent_deliver (attached : mailer.agent = some (.recorder held)) (host : Host)
    (stamp : Stamp) (world : World) (rendered : String) (message : Message) :
    (mailer.deliver host stamp world rendered message).agent =
      some (.recorder
        (held ++ (mailer.deliver host stamp world rendered message).outcome.trace)) := by
  have htrace := (delivered_deliver mailer host stamp world rendered message).trace
  rw [htrace, deliver]
  exact agent_foldl_record stamp.now _ attached

/-- A send adds to what the agent holds just what it reports to its caller. -/
theorem agent_send (attached : mailer.agent = some (.recorder held)) (host : Host)
    (stamp : Stamp) (world : World) (input : Input) (values : Option Values) :
    (mailer.send host stamp world input values).agent =
      some (.recorder (held ++ (mailer.send host stamp world input values).outcome.trace)) := by
  have hrefused : mailer.agent = some (.recorder (held ++ [])) := by
    rw [attached, List.append_nil]
  rw [send]
  cases input.source.resolve world.files with
  | error unreadable => exact hrefused
  | ok text =>
      simp only [sendFound]
      cases assemble (render mailer.markup text values) values with
      | error rejection => exact hrefused
      | ok message => exact agent_deliver attached host stamp world _ message

/-- An agent hears what a send does; it changes neither the outcome nor the world. -/
theorem send_withAgent (mailer : Mailer) (agent : Option Agent) (host : Host)
    (stamp : Stamp) (world : World) (input : Input) (values : Option Values) :
    (({ mailer with agent } : Mailer).send host stamp world input values).outcome =
        (mailer.send host stamp world input values).outcome ∧
      (({ mailer with agent } : Mailer).send host stamp world input values).world =
        (mailer.send host stamp world input values).world := by
  rw [send, send]
  cases input.source.resolve world.files with
  | error unreadable => exact ⟨rfl, rfl⟩
  | ok text =>
      simp only [sendFound]
      cases assemble (render mailer.markup text values) values with
      | error rejection => exact ⟨rfl, rfl⟩
      | ok message =>
          simp only [deliver, entries_foldl_record, Recording.start]
          exact ⟨rfl, rfl⟩

end Mailer

/-! ## Runs -/

namespace Turn

/-- The trace that a send of the run reports to its caller. -/
def trace (turn : Turn) : List Entry :=
  match turn.step.answer with
  | .sent outcome => outcome.trace
  | _ => []

/-- The entries that were taken from the agent. -/
def heard (turn : Turn) : List Entry :=
  match turn.step.answer with
  | .heard entries => entries
  | _ => []

/-- The events of the attempt that a send of the run makes; none when its template is refused. -/
def events [InternationalDomains] [FileTypes] (host : Host) (turn : Turn) : List Event :=
  match turn.accepted? with
  | some message =>
    ((turn.before.mailer.transport host).deliver turn.stamp turn.before.world message).events
  | none => []

end Turn

namespace Session

section Attached

variable [InternationalDomains] [FileTypes] {session : Session} {held : List Entry}

/-- One operation: what is taken from the agent and what it holds afterwards are what it held
before and what a send reports. -/
theorem heard_append_held_perform (attached : session.mailer.agent = some (.recorder held))
    (host : Host) (stamp : Stamp) {operation : Operation}
    (stays : ∀ agent, operation ≠ .attach agent) :
    ∃ holding,
      (session.perform host stamp operation).session.mailer.agent = some (.recorder holding) ∧
      Turn.heard ⟨session, stamp, operation, session.perform host stamp operation⟩ ++ holding =
        held ++ Turn.trace ⟨session, stamp, operation, session.perform host stamp operation⟩ := by
  cases operation with
  | send input values =>
      exact ⟨_, Mailer.agent_send attached host stamp session.world input values, rfl⟩
  | set key value =>
      refine ⟨held, ?_, ?_⟩
      · rw [perform]
        split <;> exact attached
      · simp only [Turn.heard, Turn.trace, perform]
        cases session.mailer.options.set key value <;> simp
  | setAll members =>
      refine ⟨held, ?_, ?_⟩
      · rw [perform]
        split <;> exact attached
      · simp only [Turn.heard, Turn.trace, perform]
        obtain ⟨options, result⟩ := session.mailer.options.setAll members
        cases result <;> simp
  | attach agent => exact absurd rfl (stays agent)
  | takeHeard =>
      refine ⟨[], ?_, ?_⟩
      · simp only [perform, withAgent, attached]
        rfl
      · simp [Turn.heard, Turn.trace, perform, attached, Agent.entries]
  | turnAway turnsAway => exact ⟨held, attached, by simp [Turn.heard, Turn.trace, perform]⟩
  | takeKept => exact ⟨held, attached, by simp [Turn.heard, Turn.trace, perform]⟩

/-- A whole run: everything that the sends report is heard, once and in order, whenever and however
often it is taken. -/
theorem heard_append_held (attached : session.mailer.agent = some (.recorder held))
    (host : Host) {steps : List (Stamp × Operation)}
    (stays : ∀ step ∈ steps, ∀ agent, step.2 ≠ .attach agent) :
    ∃ holding, (session.after host steps).mailer.agent = some (.recorder holding) ∧
      (session.history host steps).flatMap Turn.heard ++ holding =
        held ++ (session.history host steps).flatMap Turn.trace := by
  -- What the agent holds is carried along: each operation moves the boundary by what it takes.
  induction steps generalizing session held with
  | nil =>
      refine ⟨held, attached, ?_⟩
      simp [history]
  | cons step steps ih =>
      obtain ⟨stamp, operation⟩ := step
      obtain ⟨between, hbetween, hstep⟩ :=
        heard_append_held_perform attached host stamp (stays (stamp, operation) (by simp))
      obtain ⟨holding, hafter, hrest⟩ :=
        ih hbetween fun step hstep => stays step (List.mem_cons_of_mem _ hstep)
      refine ⟨holding, hafter, ?_⟩
      rw [history, List.flatMap_cons, List.flatMap_cons, List.append_assoc, hrest,
        ← List.append_assoc, hstep, List.append_assoc]

/-- The trace of a send is made of the events of its own attempt, recorded in order. -/
theorem trace_eq_of_mem_history {host : Host} {steps : List (Stamp × Operation)} {turn : Turn}
    (hturn : turn ∈ session.history host steps) :
    turn.trace = (turn.events host).map (Event.entry turn.stamp.now) := by
  have hstep := step_of_mem_history hturn
  unfold Turn.trace Turn.events Turn.accepted?
  rw [hstep]
  cases turn.operation with
  | send input values =>
      have account :=
        Mailer.accounts_send turn.before.mailer host turn.stamp turn.before.world input values
      simp only [perform]
      cases haccepted : turn.before.mailer.accepted? turn.before.world input values with
      | some message => exact (account.delivered message haccepted).trace
      | none =>
          obtain ⟨failure, -, refused⟩ := account.refused haccepted
          exact refused.trace
  | set key value =>
      simp only [perform]
      cases turn.before.mailer.options.set key value <;> rfl
  | setAll members =>
      simp only [perform]
      obtain ⟨options, result⟩ := turn.before.mailer.options.setAll members
      cases result <;> rfl
  | attach agent => rfl
  | takeHeard => rfl
  | turnAway turnsAway => rfl
  | takeKept => rfl

/-- The agent sees exactly what the callers get back. Over a run in which no other agent is
attached, the entries taken from the agent and those it still holds are those it was attached with
and then the traces of the sends, one after the other; and the trace of each send is made of the
events of its own attempt to deliver. -/
theorem told_of_attached (host : Host) (session : Session) (stamp : Stamp) (held : List Entry)
    {steps : List (Stamp × Operation)}
    (stays : ∀ step ∈ steps, ∀ agent, step.2 ≠ .attach agent) :
    let listening := (session.perform host stamp (.attach (.recorder held))).session
    (∃ holding, (listening.after host steps).mailer.agent = some (.recorder holding) ∧
        ((listening.history host steps).flatMap Turn.heard ++ holding).map Entry.told =
          (held ++ (listening.history host steps).flatMap Turn.trace).map Entry.told) ∧
      ∀ turn ∈ listening.history host steps,
        turn.trace = (turn.events host).map (Event.entry turn.stamp.now) := by
  intro listening
  refine ⟨?_, fun turn hturn => trace_eq_of_mem_history hturn⟩
  have attached : listening.mailer.agent = some (.recorder held) := rfl
  obtain ⟨holding, hafter, hheard⟩ := heard_append_held attached host stays
  exact ⟨holding, hafter, congrArg (List.map Entry.told) hheard⟩

end Attached

/-- A mailer that keeps its messages, before any agent is attached. -/
def rehearsal : Session where
  mailer := { options := .forRelay "localhost" ⟨25, by decide⟩, custom := some keeping }
  world := ⟨bareFiles, [], false⟩

/-- A template that is accepted. -/
def rehearsedTemplate : Input := .text "To: a@x.com\nFrom: b@x.com\nSubject: S\n\nhello"

/-- A send that is kept, one that is turned away, one that is refused and one more that is kept,
with the log of the agent taken in between. -/
def rehearsedSteps : List (Stamp × Operation) :=
  [(newYear, .send rehearsedTemplate none), (newYear, .turnAway true),
    (newYear, .send rehearsedTemplate none), (newYear, .takeHeard),
    (newYear, .send (.text "To: a@x.com\n\nhello") none), (newYear, .turnAway false),
    (newYear, .send rehearsedTemplate none)]

/-- A host without a network and without programs. -/
def bareHost : Host :=
  ⟨.isolated, fun files _ => ⟨files, .notStarted (.file .notFound)⟩⟩

theorem told_of_attached_rehearsal :
    (∀ step ∈ rehearsedSteps, ∀ agent, step.2 ≠ .attach agent) ∧
      let listening := (rehearsal.perform bareHost newYear (.attach (.recorder []))).session
      (∃ holding,
          (listening.after bareHost rehearsedSteps).mailer.agent = some (.recorder holding) ∧
          ((listening.history bareHost rehearsedSteps).flatMap Turn.heard ++ holding).map
              Entry.told =
            ((listening.history bareHost rehearsedSteps).flatMap Turn.trace).map Entry.told) ∧
        (listening.history bareHost rehearsedSteps).map (fun turn => turn.trace.length) =
          [1, 0, 2, 0, 0, 0, 1] ∧
        (listening.history bareHost rehearsedSteps).map (fun turn => turn.heard.length) =
          [0, 0, 0, 3, 0, 0, 0] := by
  have stays : ∀ step ∈ rehearsedSteps, ∀ agent, step.2 ≠ .attach agent := by
    simp [rehearsedSteps]
  obtain ⟨hheard, -⟩ := told_of_attached bareHost rehearsal newYear [] stays
  exact ⟨stays, hheard, by decide +kernel, by decide +kernel⟩

end Session

end MailMerge
