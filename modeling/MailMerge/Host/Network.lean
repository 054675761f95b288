/-
# The network

What a relay is asked and what comes back. A conversation with a relay is prepared first, which can
fail before any connection is made; the conversation itself ends with a reply or a fault.
-/

import MailMerge.Mail.Basic
import MailMerge.Options.Basic

namespace MailMerge.Host

open MailMerge.Mail MailMerge.Text

/-- How a relay is addressed. -/
structure RelayCall where
  host : String
  port : Port
  security : Security
  /-- User and password. -/
  credentials : Option (String × String)
  timeout : Option Seconds
  helloName : Option String
  deriving DecidableEq, Repr

/-- The reply of a relay that accepted a mail. -/
structure RelayReply where
  code : String
  lines : List String
  deriving DecidableEq, Repr

/-- Why a conversation with a relay failed. -/
structure RelayFault where
  reason : String
  /-- The code of the reply that ended the conversation. -/
  code : Option String
  isPermanent : Bool
  isTransient : Bool
  deriving DecidableEq, Repr

/-- The network of a host. -/
structure Network where
  /-- Prepare a secured connection to a host, or tell why that is not possible. -/
  prepare : String → Except String Unit
  /-- Hand an envelope and a text to a relay. -/
  converse : RelayCall → Envelope → List Char → Except RelayFault RelayReply

/-- A fault before any reply. -/
def RelayFault.ofConnection (reason : String) : RelayFault :=
  ⟨"Connection error: " ++ reason, none, false, false⟩

/-- A network without any route. A host name is judged before a route is looked for. -/
def Network.isolated : Network where
  prepare _ := .ok ()
  converse call _ _ :=
    if call.host.toList.contains (Char.ofNat 0) then
      .error (.ofConnection "file name contained an unexpected NUL byte")
    else .error (.ofConnection "Network is unreachable (os error 101)")

end MailMerge.Host
