/-
# The template that a send reports

A send reports the template as it was filled in, whatever comes of it. This text decides
by itself what was done: composed again, without values and with either markup, it gives
the message that was handed to the transport, which had the attachments of the values
besides, or it is rejected for the reason for which the send was. Nothing that a value
brings along is filled in or taken for a line ending a second time.
-/

import MailMerge.Proofs.Mailer.Agent
import MailMerge.Proofs.Message.Canonical
import MailMerge.Proofs.Message.ReservedEntry

namespace MailMerge

open MailMerge.Delivery MailMerge.Host MailMerge.Mail MailMerge.Message MailMerge.Template
open MailMerge.Trace

/-! ## Composing a rendered template -/

namespace Message

/-- A rendered template composes, without values, to what it was composed to, less the
attachments; and it is rejected when it was rejected before. -/
theorem compose_render (markup other : Markup) (text : String) (values : Option Values) :
    compose other (render markup text values) none =
      (compose markup text values).map fun message => { message with attachments := none } := by
  have hsettled : render other (render markup text values) none = render markup text values :=
    render_of_not_mem (return_not_mem_render markup text values)
  rw [compose, compose, hsettled, assemble_eq_map _ values, assemble_eq_map _ none]
  cases assemble (render markup text values) none <;> rfl

end Message

namespace Mailer

variable {mailer : Mailer} {host : Host} {stamp : Stamp} {world : World} {input : Input}
  {values : Option Values} {message : Message}

/-! ## What a send reports and hands over -/

/-- The template that is reported is the one that was found, filled in. -/
theorem template_send_eq_some_iff [InternationalDomains] [FileTypes] {template : String} :
    (mailer.send host stamp world input values).outcome.template = some template ↔
      ∃ text, input.resolve world.files = .ok text ∧
        render mailer.markup text values = template := by
  rw [send, Input.resolve]
  cases input.source.resolve world.files with
  | error unreadable => simp
  | ok text =>
      simp only [sendFound]
      cases assemble (render mailer.markup text values) values with
      | error rejection => simp
      | ok message => simp [deliver]

/-- The mailer with another choice of transport. -/
def withCustom (mailer : Mailer) (custom : Option Transport) : Mailer :=
  { mailer with custom }

/-- The send hands the message to its transport: whichever transport stands in the place of
its own, the send leaves the marks of one attempt of this transport to deliver the message. -/
def HandsOver [InternationalDomains] [FileTypes]
    (mailer : Mailer) (host : Host) (stamp : Stamp) (world : World) (input : Input)
    (values : Option Values) (message : Message) : Prop :=
  ∀ custom : Option Transport,
    Delivered (mailer.withCustom custom) stamp
      (((mailer.withCustom custom).transport host).deliver stamp world message)
      ((mailer.withCustom custom).send host stamp world input values)

/-- What a transport that keeps whatever it is asked to deliver holds after a send. -/
theorem kept_send_witnessing [InternationalDomains] [FileTypes]
    (mailer : Mailer) (host : Host) (stamp : Stamp) (world : World)
    (input : Input) (values : Option Values) (name : String)
    (answer : Stamp → World → Message → List Event × Except DeliveryFailure Unit × List LogRecord) :
    ((mailer.withCustom (some (witnessing name answer))).send host stamp world input
        values).world.kept =
      world.kept ++ (mailer.accepted? world input values).toList := by
  have account := accounts_send (mailer.withCustom (some (witnessing name answer))) host stamp
    world input values
  cases haccepted : mailer.accepted? world input values with
  | some message =>
      rw [(account.delivered message haccepted).world]
      rfl
  | none =>
      obtain ⟨_, -, refused⟩ := account.refused haccepted
      rw [refused.world, Option.toList_none, List.append_nil]

/-- A message is handed over when the template was accepted as this message and no other. -/
theorem handsOver_iff [InternationalDomains] [FileTypes] :
    mailer.HandsOver host stamp world input values message ↔
      mailer.accepted? world input values = some message := by
  constructor
  · intro handed
    have hkept := kept_send_witnessing mailer host stamp world input values ""
      fun _ _ _ => ([], .ok (), [])
    rw [(handed _).world] at hkept
    have hlist : [message] = (mailer.accepted? world input values).toList :=
      List.append_cancel_left hkept
    exact Option.toList_eq_singleton_iff.1 hlist.symm
  · intro haccepted custom
    exact (accounts_send (mailer.withCustom custom) host stamp world input values).delivered
      message haccepted

/-- What a transport makes of a message is no rejection of the template. -/
theorem Delivered.result_ne_rejected {attempt : Attempt} {sent : Sent}
    (delivered : Delivered mailer stamp attempt sent) (rejection : Rejection) :
    sent.outcome.result ≠ .error (.rejected rejection) := by
  rw [delivered.result]
  cases attempt.result with
  | ok => rintro ⟨⟩
  | error failure => rintro ⟨⟩

theorem accepted?_of_found {text : String} (found : input.resolve world.files = .ok text) :
    mailer.accepted? world input values = (compose mailer.markup text values).toOption := by
  rw [accepted?, found]

theorem refusal?_of_found {text : String} {rejection : Rejection}
    (found : input.resolve world.files = .ok text)
    (rejected : compose mailer.markup text values = .error rejection) :
    mailer.refusal? world input values = some (.rejected rejection) := by
  rw [refusal?, found]
  simp only [rejected]

/-- The template that a send reports decides as the send did. Composed again, with either markup
and without values, it gives the message that was handed over, less its attachments, or it is
rejected as the send was; and one of the two happened. -/
theorem compose_reported [InternationalDomains] [FileTypes] (other : Markup) {template : String}
    (reported : (mailer.send host stamp world input values).outcome.template = some template) :
    (∀ message, mailer.HandsOver host stamp world input values message →
        compose other template none = .ok { message with attachments := none }) ∧
      (∀ rejection,
        (mailer.send host stamp world input values).outcome.result =
            .error (.rejected rejection) →
          compose other template none = .error rejection) ∧
      ((∃ message, mailer.HandsOver host stamp world input values message) ∨
        ∃ rejection, (mailer.send host stamp world input values).outcome.result =
          .error (.rejected rejection)) := by
  have account := accounts_send mailer host stamp world input values
  obtain ⟨text, found, rfl⟩ := template_send_eq_some_iff.1 reported
  simp only [handsOver_iff, accepted?_of_found found, compose_render]
  cases hcomposed : compose mailer.markup text values with
  | ok message =>
      have delivered := account.delivered message
        ((accepted?_of_found found).trans (congrArg Except.toOption hcomposed))
      refine ⟨?_, ?_, .inl ⟨message, rfl⟩⟩
      · rintro _ ⟨rfl⟩
        rfl
      · intro rejection hrejected
        exact absurd hrejected (delivered.result_ne_rejected rejection)
  | error rejection =>
      obtain ⟨failure, hrefusal, refused⟩ := account.refused
        ((accepted?_of_found found).trans (congrArg Except.toOption hcomposed))
      obtain rfl : SendFailure.rejected rejection = failure :=
        Option.some.inj ((refusal?_of_found found hcomposed).symm.trans hrefusal)
      refine ⟨?_, ?_, .inr ⟨rejection, refused.result⟩⟩
      · rintro message ⟨⟩
      · intro other hother
        cases refused.result.symm.trans hother
        rfl

/-- A template for values that bring a header, a line ending of another kind and texts that look
like references. -/
def reminderTemplate : String :=
  "To: {{to}}\nFrom: b@x.com\nSubject: {{about}}\n\n{{text}}"

/-- The values for the reminder. -/
def reminderValues : Values :=
  ⟨[("about", .string "{{text}} [/to]"), ("attachments", .array []),
    ("text", .string "<p>\r\n\r{{to}}</p>"), ("to", .string "a@x.com\rX-Note: {{about}}")]⟩

/-- The reminder as it is filled in. -/
def filledReminder : String :=
  "To: a@x.com\nX-Note: {{about}}\nFrom: b@x.com\nSubject: {{text}} [/to]\n\n<p>\n\n{{to}}</p>"

/-- The message of the reminder. -/
def reminder : Message where
  sender := "b@x.com"
  recipients := "a@x.com"
  subject := "{{text}} [/to]"
  copies := none
  blindCopies := none
  headers := some ⟨[("X-Note", "{{about}}")], by decide⟩
  attachments := some (.array [])
  body := .html "<p>\n\n{{to}}</p>"

theorem compose_reported_reminder :
    let mailer : Mailer := { custom := some keeping }
    let world : World := ⟨bareFiles, [], false⟩
    let input : Input := .text reminderTemplate
    let sent := mailer.send Session.bareHost newYear world input (some reminderValues)
    sent.outcome.template = some filledReminder ∧
      mailer.HandsOver Session.bareHost newYear world input (some reminderValues) reminder ∧
      compose .bracket filledReminder none = .ok { reminder with attachments := none } := by
  intro mailer world input sent
  have hrender : render .placeholder reminderTemplate (some reminderValues) = filledReminder := by
    decide +kernel
  have found : input.resolve world.files = .ok reminderTemplate := by
    decide +kernel
  have reported : sent.outcome.template = some filledReminder :=
    template_send_eq_some_iff.2 ⟨reminderTemplate, found, hrender⟩
  have handed :
      mailer.HandsOver Session.bareHost newYear world input (some reminderValues) reminder := by
    rw [handsOver_iff, accepted?_of_found found, compose, hrender]
    rfl
  exact ⟨reported, handed, (compose_reported .bracket reported).1 reminder handed⟩

end Mailer

end MailMerge
