/-
# Delivery traces

What a transport reports while it delivers. An event has a level, a message and annotations; an
entry is an event with the time it was recorded. Two names belong to the entry itself, so an
annotation of such a name is kept under a longer one. Entries are kept oldest first.
-/

import MailMerge.Json.Printer
import MailMerge.Log
import MailMerge.Time.Utc

namespace MailMerge.Trace

open MailMerge.Json MailMerge.Time

/-- The level of an event, from the least severe on. -/
inductive Level where
  | trace
  | debug
  | info
  | warn
  | error
  | fatal
  deriving DecidableEq, Repr

namespace Level

/-- Every level, from the least severe on. -/
def all : List Level := [.trace, .debug, .info, .warn, .error, .fatal]

/-- The name of a level. -/
def name : Level → String
  | .trace => "trace"
  | .debug => "debug"
  | .info => "info"
  | .warn => "warn"
  | .error => "error"
  | .fatal => "fatal"

/-- The place of a level in the order of severity. -/
def rank : Level → Nat
  | .trace => 0
  | .debug => 1
  | .info => 2
  | .warn => 3
  | .error => 4
  | .fatal => 5

/-- The level of a name. -/
def ofName? (name : String) : Option Level :=
  all.find? fun level => level.name == name

/-- The severity at which an event of a level is logged. -/
def severity : Level → Severity
  | .trace => .trace
  | .debug => .debug
  | .info => .info
  | .warn => .warn
  | .error | .fatal => .error

end Level

/-- Something a transport reports. -/
structure Event where
  level : Level
  message : String
  annotations : Members

/-- Names that belong to an entry itself. -/
def reservedNames : List String := ["timestamp", "level"]

/-- The name under which an annotation is kept. -/
def annotationName (name : String) : String :=
  if reservedNames.contains name then "annotation." ++ name else name

/-- An event with the time it was recorded. -/
structure Entry where
  message : String
  timestamp : Utc
  level : Level
  /-- The annotations, none under a reserved name. -/
  extra : Members

/-- The entry of an event recorded at a given time. -/
def Event.entry (now : Utc) (event : Event) : Entry where
  message := event.message
  timestamp := now
  level := event.level
  extra := Members.ofList (event.annotations.map fun (name, value) => (annotationName name, value))

/-- The log record of an event. The two highest levels share a severity and so name their level. -/
def Event.logRecord (event : Event) : LogRecord :=
  let fields := [("component", "mailer"), ("annotations", (Value.object event.annotations).compact)]
  match event.level with
  | .error | .fatal =>
    .of event.level.severity event.message (fields ++ [("level", event.level.name)])
  | _ => .of event.level.severity event.message fields

/-- A listener that sees every event of every send. -/
inductive Agent where
  /-- Keeps the entries until they are taken. -/
  | recorder (entries : List Entry)
  /-- Writes each event to the log. -/
  | logger

namespace Agent

/-- The agent after events that were recorded at a given time. -/
def hear (now : Utc) (events : List Event) : Agent → Agent
  | .recorder entries => .recorder (entries ++ events.map (Event.entry now))
  | .logger => .logger

/-- What the agent writes to the log on hearing events. -/
def log (events : List Event) : Agent → List LogRecord
  | .recorder _ => []
  | .logger => events.map Event.logRecord

/-- What the agent holds. -/
def entries : Agent → List Entry
  | .recorder entries => entries
  | .logger => []

/-- The agent after what it holds was taken. -/
def emptied : Agent → Agent
  | .recorder _ => .recorder []
  | .logger => .logger

end Agent

/-- The trace of one send: what was recorded, and the agent that hears the same events. -/
structure Recording where
  entries : List Entry
  agent : Option Agent

namespace Recording

/-- Nothing recorded yet. -/
def start (agent : Option Agent) : Recording := ⟨[], agent⟩

/-- Record an event and pass it on. -/
def record (recording : Recording) (now : Utc) (event : Event) : Recording where
  entries := recording.entries ++ [event.entry now]
  agent := recording.agent.map (Agent.hear now [event])

/-- The recording after its entries were taken. -/
def taken (recording : Recording) : Recording :=
  { recording with entries := [] }

/-- The recording after the agent's entries were taken. -/
def agentTaken (recording : Recording) : Recording :=
  { recording with agent := recording.agent.map Agent.emptied }

/-- What the agent holds. -/
def agentEntries (recording : Recording) : List Entry :=
  (recording.agent.map Agent.entries).getD []

end Recording

end MailMerge.Trace
