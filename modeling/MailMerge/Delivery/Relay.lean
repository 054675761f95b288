/-
# Delivery through a relay

A mail is handed to a relay over the network. The trace tells that the mail was built and where it
goes before anything is tried; a secured connection that cannot be prepared ends the delivery
without a further event, and every other end is reported.
-/

import MailMerge.Delivery.Basic
import MailMerge.Host.Network

namespace MailMerge.Delivery

open MailMerge.Host MailMerge.Json MailMerge.Mail MailMerge.Text MailMerge.Trace

/-- The name of the transport. -/
def relayName : String := "smtp"

/-- How options address a relay. Credentials need both a user and a password. -/
def relayCall (options : Options) : RelayCall where
  host := options.host
  port := options.port
  security := options.security
  credentials := match options.username, options.password with
    | some username, some password => some (username, password)
    | _, _ => none
  timeout := options.timeout
  helloName := options.helloName

/-- The events before a relay is asked. -/
def relayOpening (options : Options) (mail : Mail) : List Event :=
  [report .debug "Message built"
      [("bytes", .ofNat (encodedLength mail.wire)),
        ("recipients", .ofNat mail.envelope.recipients.length)],
    report .info ("Connecting to " ++ options.host ++ ":" ++ decimal options.port.val)
      [("host", .string options.host), ("port", .ofNat options.port.val),
        ("tls", .string options.security.label)]]

/-- The event of a mail that a relay accepted. -/
def relayAccepted (reply : RelayReply) : Event :=
  report .info "Message accepted"
    [("code", .string reply.code), ("response", .array (reply.lines.map .string))]

/-- The event of a conversation that failed. -/
def relayRefused (fault : RelayFault) : Event :=
  report .error "SMTP delivery failed"
    [("reason", .string fault.reason),
      ("code", (fault.code.map Value.string).getD .null),
      ("permanent", .bool fault.isPermanent), ("transient", .bool fault.isTransient)]

/-- Prepare the connection that options ask for. -/
def prepareRelay (network : Network) (options : Options) : Except String Unit :=
  if options.security = .plain then .ok () else network.prepare options.host

/-- Hand a mail to a relay: the events, and the reason of a failure. -/
def handToRelay (network : Network) (options : Options) (mail : Mail) :
    List Event × Except String Unit :=
  let opening := relayOpening options mail
  match prepareRelay network options with
  | .error reason => (opening, .error reason)
  | .ok () =>
    match network.converse (relayCall options) mail.envelope mail.wire with
    | .ok reply => (opening ++ [relayAccepted reply], .ok ())
    | .error fault => (opening ++ [relayRefused fault], .error fault.reason)

/-- Delivery through a relay. -/
def relay [InternationalDomains] [FileTypes] (network : Network) (options : Options) : Transport :=
  .ofMail relayName fun world mail =>
    let (events, result) := handToRelay network options mail
    (events, result.mapError (.transport relayName), world)

end MailMerge.Delivery
