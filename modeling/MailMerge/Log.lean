/-
# Diagnostic records

What the library tells its operator while it works: a severity and named texts, one of which is
the message. Records are values that every operation returns beside its result, oldest first.
-/

namespace MailMerge

/-- The severity of a diagnostic record. -/
inductive Severity where
  | trace
  | debug
  | info
  | warn
  | error
  deriving DecidableEq, Repr

/-- A diagnostic record. -/
structure LogRecord where
  severity : Severity
  fields : List (String × String)
  deriving DecidableEq, Repr

/-- A record with a message and further fields. -/
def LogRecord.of (severity : Severity) (message : String)
    (fields : List (String × String)) : LogRecord :=
  ⟨severity, ("message", message) :: fields⟩

end MailMerge
