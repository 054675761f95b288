/-
# Delivery options

How mail is delivered: over the network to a relay, or through the mail program of the host. The
options of the relay stay as they are while the mail program is selected. What has no field of its
own is kept under its key, for transports that understand it.
-/

import MailMerge.Json.Value

namespace MailMerge

open MailMerge.Json

/-- How the connection to a relay is secured. -/
inductive Security where
  /-- Not at all. -/
  | plain
  /-- By an upgrade after the greeting. -/
  | startTls
  /-- From the first byte. -/
  | wrapper
  deriving DecidableEq, Repr

/-- The label of a security in traces. -/
def Security.label : Security → String
  | .plain => "None"
  | .startTls => "StartTls"
  | .wrapper => "Wrapper"

/-- The number of a port. -/
abbrev Port := Fin 65536

/-- Lengths of time are below this bound, two to the sixty-fourth. -/
abbrev secondsBound : Nat := 18446744073709551616

/-- A length of time in whole seconds. -/
abbrev Seconds := Fin secondsBound

/-- Delivery options. Without any setting, mail goes to a relay on this host. -/
structure Options where
  host : String := "127.0.0.1"
  port : Port := 25
  /-- Deliver through the mail program of the host. -/
  sendmail : Bool := false
  /-- The mail program, when it is not the usual one. -/
  command : Option String := none
  username : Option String := none
  password : Option String := none
  security : Security := .plain
  timeout : Option Seconds := none
  /-- The name with which the relay is greeted. -/
  helloName : Option String := none
  /-- Options without a field of their own. -/
  extra : Members := []

/-- The way of delivery that options select. -/
inductive Route where
  | relay (host : String) (port : Port)
  | program (command : Option String)
  deriving DecidableEq, Repr

namespace Options

/-- The options for a relay. -/
def forRelay (host : String) (port : Port) : Options :=
  { host, port }

/-- The way of delivery. -/
def route (options : Options) : Route :=
  if options.sendmail then .program options.command else .relay options.host options.port

/-- The keys of the options without a field of their own. -/
def unrecognised (options : Options) : List String :=
  options.extra.keys

end Options

end MailMerge
