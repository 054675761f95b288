/-
# Keeping messages

A transport that keeps messages instead of sending them, or turns them away. It serves where what
would be sent is to be looked at.
-/

import MailMerge.Delivery.Basic

namespace MailMerge.Delivery

open MailMerge.Json MailMerge.Trace

/-- The name of the transport. -/
def keepingName : String := "capture"

/-- Why a message is turned away. -/
def turnedAway : String := "550 mailbox unavailable"

/-- The transport that keeps messages. -/
def keeping : Transport where
  name := keepingName
  deliver _ world message :=
    let greeting := report .debug "EHLO capture"
      [("to", .string message.recipients), ("level", .ofNat 1)]
    if world.turnsAway then
      ⟨[greeting, report .error turnedAway []], .error (.transport keepingName turnedAway),
        world, []⟩
    else ⟨[greeting], .ok (), { world with kept := world.kept ++ [message] }, []⟩

end MailMerge.Delivery
