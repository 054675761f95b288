/-
# One send

What one send leaves behind, told once for its three courses. A template that is not
found and one that is no message never reach the transport; from an accepted message
everything follows by a single attempt of the transport to deliver it.
-/

import MailMerge.Mailer.Basic

namespace MailMerge

open MailMerge.Delivery MailMerge.Mail MailMerge.Message MailMerge.Template MailMerge.Trace

/-! ## Notices in a log -/

/-- A severity that an operator sees by default. -/
def Severity.isNotice : Severity → Bool
  | .trace | .debug => false
  | .info | .warn | .error => true

/-- The message of a record. -/
def LogRecord.message? (record : LogRecord) : Option String :=
  record.fields.lookup "message"

/-- Apart from the records of others, a log holds one notice, which ends it and tells whether a
send has succeeded. -/
def Announces (log others : List LogRecord) (result : Except SendFailure Unit) : Prop :=
  ∃ quiet ending, log = quiet ++ others ++ [ending] ∧
    (quiet ++ [ending]).filter (fun record => record.severity.isNotice) = [ending] ∧
    (ending.message? = some "Email sent" ↔ result = .ok ())

theorem announces_of_quiet {log quiet others : List LogRecord} {ending : LogRecord}
    {result : Except SendFailure Unit} (hquiet : ∀ record ∈ quiet, record.severity = .debug)
    (hlog : log = quiet ++ others ++ [ending])
    (hending : ending.severity.isNotice = true)
    (hmessage : ending.message? = some "Email sent" ↔ result = .ok ()) :
    Announces log others result := by
  refine ⟨quiet, ending, hlog, ?_, hmessage⟩
  have hnone : quiet.filter (fun record => record.severity.isNotice) = [] := by
    rw [List.filter_eq_nil_iff]
    intro record hrecord
    rw [hquiet record hrecord]
    decide
  rw [List.filter_append, hnone, List.nil_append, List.filter_cons, if_pos hending,
    List.filter_nil]

theorem severity_of_mem_sourceLog {source : Source} {record : LogRecord}
    (hrecord : record ∈ source.log) : record.severity = .debug := by
  cases source with
  | inline text => cases hrecord
  | file path =>
      rw [Source.log, List.mem_singleton] at hrecord
      rw [hrecord]
      rfl

theorem severity_of_mem_selectionLog {mailer : Mailer} {record : LogRecord}
    (hrecord : record ∈ mailer.selectionLog) : record.severity = .debug := by
  unfold Mailer.selectionLog Options.selectionLog at hrecord
  split at hrecord
  · cases hrecord
  · split at hrecord
    · cases hrecord
    · rw [List.mem_singleton] at hrecord
      rw [hrecord]
      rfl

/-! ## Recorded events -/

theorem entries_foldl_record (now : Time.Utc) (events : List Event) (recording : Recording) :
    (events.foldl (fun recording event => recording.record now event) recording).entries =
      recording.entries ++ events.map (Event.entry now) := by
  induction events generalizing recording with
  | nil => simp
  | cons event events ih =>
      rw [List.foldl_cons, ih, Recording.record, List.map_cons, List.append_assoc,
        List.singleton_append]

namespace Mailer

variable [InternationalDomains] [FileTypes]

/-- The message that a send hands to its transport, when its template is found and accepted. -/
def accepted? (mailer : Mailer) (world : World) (input : Input) (values : Option Values) :
    Option Message :=
  match input.resolve world.files with
  | .ok text => (compose mailer.markup text values).toOption
  | .error _ => none

/-- The failure that keeps a send from its transport. -/
def refusal? (mailer : Mailer) (world : World) (input : Input) (values : Option Values) :
    Option SendFailure :=
  match input.resolve world.files with
  | .ok text =>
    match compose mailer.markup text values with
    | .ok _ => none
    | .error rejection => some (.rejected rejection)
  | .error unreadable => some (.unreadable unreadable)

/-- What the agent of a mailer writes to the log on hearing events. -/
def heardLog (mailer : Mailer) (events : List Event) : List LogRecord :=
  (mailer.agent.map (Agent.log events)).getD []

/-- What a send leaves behind when it is accepted: the marks of one attempt to deliver. -/
structure Delivered (mailer : Mailer) (stamp : Stamp) (attempt : Attempt) (sent : Sent) :
    Prop where
  result : sent.outcome.result = attempt.result.mapError .delivery
  trace : sent.outcome.trace = attempt.events.map (Event.entry stamp.now)
  world : sent.world = attempt.world
  log : Announces sent.log (attempt.log ++ mailer.heardLog attempt.events) sent.outcome.result

/-- What a send leaves behind when it is refused: no trace, and the world as it was. -/
structure Refused (mailer : Mailer) (world : World) (failure : SendFailure) (sent : Sent) :
    Prop where
  result : sent.outcome.result = .error failure
  trace : sent.outcome.trace = []
  world : sent.world = world
  agent : sent.agent = mailer.agent
  log : Announces sent.log [] sent.outcome.result

theorem delivered_deliver (mailer : Mailer) (host : Host) (stamp : Stamp) (world : World)
    (rendered : String) (message : Message) :
    Delivered mailer stamp ((mailer.transport host).deliver stamp world message)
      (mailer.deliver host stamp world rendered message) := by
  have hquiet (place : List (String × String)) :
      ∀ record ∈ mailer.selectionLog ++ [.of .debug "Delivering message" place],
        record.severity = .debug := by
    intro record hrecord
    rcases List.mem_append.1 hrecord with hrecord | hrecord
    · exact severity_of_mem_selectionLog hrecord
    · rw [List.mem_singleton] at hrecord
      rw [hrecord]
      rfl
  simp only [deliver]
  generalize (mailer.transport host).deliver stamp world message = attempt
  obtain ⟨events, result, after, log⟩ := attempt
  cases result with
  | ok =>
      constructor
      · rfl
      · simp [entries_foldl_record, Recording.start]
      · rfl
      · apply announces_of_quiet (hquiet _)
        · simp only [List.append_assoc]
          rfl
        · rfl
        · exact ⟨fun _ => rfl, fun _ => rfl⟩
  | error failure =>
      constructor
      · rfl
      · simp [entries_foldl_record, Recording.start]
      · rfl
      · apply announces_of_quiet (hquiet _)
        · simp only [List.append_assoc]
          rfl
        · rfl
        · constructor
          · intro heq
            exact absurd (Option.some.inj heq) (by decide)
          · intro heq
            cases heq

variable {mailer : Mailer} {world : World}

/-- A send that is accepted attempts one delivery, of the accepted message. -/
theorem delivered_send (host : Host) (stamp : Stamp) {input : Input} {values : Option Values}
    {message : Message} (accepted : mailer.accepted? world input values = some message) :
    Delivered mailer stamp ((mailer.transport host).deliver stamp world message)
        (mailer.send host stamp world input values) ∧
      (mailer.send host stamp world input values).outcome.template ≠ none := by
  unfold accepted? Input.resolve at accepted
  split at accepted
  · next text hresolve =>
    obtain ⟨result, trace, after, log⟩ :=
      delivered_deliver mailer host stamp world (render mailer.markup text values) message
    have hassemble : assemble (render mailer.markup text values) values = .ok message := by
      rw [compose] at accepted
      cases hassemble : assemble (render mailer.markup text values) values with
      | ok given =>
          rw [hassemble] at accepted
          cases accepted
          rfl
      | error rejection =>
          rw [hassemble] at accepted
          cases accepted
    have hsend : mailer.send host stamp world input values =
        { mailer.deliver host stamp world (render mailer.markup text values) message with
          log := input.source.log ++
            (mailer.deliver host stamp world (render mailer.markup text values) message).log } := by
      rw [send, hresolve]
      simp only [sendFound, hassemble]
    rw [hsend]
    refine ⟨⟨result, trace, after, ?_⟩, ?_⟩
    · obtain ⟨quiet, ending, hlog, hnotice, hmessage⟩ := log
      refine ⟨input.source.log ++ quiet, ending, ?_, ?_, hmessage⟩
      · simp only [hlog, List.append_assoc]
      · have hnone : input.source.log.filter (fun record => record.severity.isNotice) = [] := by
          rw [List.filter_eq_nil_iff]
          intro record hrecord
          rw [severity_of_mem_sourceLog hrecord]
          decide
        rw [List.append_assoc, List.filter_append, hnone, List.nil_append, hnotice]
    · unfold deliver
      simp
  · cases accepted

/-- A send that is refused attempts no delivery, and has a template unless none was found. -/
theorem refused_send (host : Host) (stamp : Stamp) {input : Input} {values : Option Values}
    (refused : mailer.accepted? world input values = none) :
    ∃ failure, mailer.refusal? world input values = some failure ∧
      Refused mailer world failure (mailer.send host stamp world input values) ∧
      ((mailer.send host stamp world input values).outcome.template = none ↔
        ∃ unreadable, failure = .unreadable unreadable) := by
  unfold accepted? Input.resolve at refused
  unfold refusal? Input.resolve send
  split at refused
  · next text hresolve =>
    unfold compose at refused ⊢
    simp only [hresolve, sendFound]
    cases hassemble : assemble (render mailer.markup text values) values with
    | ok message =>
        rw [hassemble] at refused
        cases refused
    | error rejection =>
        refine ⟨.rejected rejection, rfl, ⟨rfl, rfl, rfl, rfl, ?_⟩, ?_⟩
        · apply announces_of_quiet fun record hrecord => severity_of_mem_sourceLog hrecord
          · rw [List.append_nil]
          · rfl
          · constructor
            · intro heq
              exact absurd (Option.some.inj heq) (by decide)
            · intro heq
              cases heq
        · simp
  · next unreadable hresolve =>
    simp only [hresolve]
    refine ⟨.unreadable unreadable, rfl, ⟨rfl, rfl, rfl, rfl, ?_⟩, ?_⟩
    · apply announces_of_quiet fun record hrecord => severity_of_mem_sourceLog hrecord
      · rw [List.append_nil]
      · rfl
      · constructor
        · intro heq
          exact absurd (Option.some.inj heq) (by decide)
        · intro heq
          cases heq
    · simp

/-- The account of a send: accepted or refused, with a template unless none was found, and with
nothing traced unless the transport was reached. -/
structure Accounts (mailer : Mailer) (host : Host) (stamp : Stamp) (world : World) (input : Input)
    (values : Option Values) (sent : Sent) : Prop where
  delivered : ∀ message, mailer.accepted? world input values = some message →
    Delivered mailer stamp ((mailer.transport host).deliver stamp world message) sent
  refused : mailer.accepted? world input values = none →
    ∃ failure, mailer.refusal? world input values = some failure ∧
      Refused mailer world failure sent
  template : sent.outcome.template = none ↔
    ∃ unreadable, sent.outcome.result = .error (.unreadable unreadable)
  trace : ∀ failure, sent.outcome.result = .error failure →
    (∀ reason, failure ≠ .delivery reason) → sent.outcome.trace = []
  callback : ∀ {α : Type} (callback : Option SendFailure → Option String → List Entry → α),
    sent.outcome.withCallback callback =
      callback (match sent.outcome.result with | .ok () => none | .error failure => some failure)
        sent.outcome.template sent.outcome.trace

theorem accounts_send (mailer : Mailer) (host : Host) (stamp : Stamp) (world : World)
    (input : Input) (values : Option Values) :
    Accounts mailer host stamp world input values
      (mailer.send host stamp world input values) := by
  have callback {α : Type} (outcome : SendOutcome)
      (callback : Option SendFailure → Option String → List Entry → α) :
      outcome.withCallback callback =
        callback (match outcome.result with | .ok () => none | .error failure => some failure)
          outcome.template outcome.trace := by
    unfold SendOutcome.withCallback
    cases outcome.result <;> rfl
  cases haccepted : mailer.accepted? world input values with
  | some message =>
      obtain ⟨delivered, template⟩ := delivered_send host stamp haccepted
      have reason : ∀ failure,
          (mailer.send host stamp world input values).outcome.result = .error failure →
          ∃ reason, failure = .delivery reason := by
        intro failure hresult
        rw [delivered.result] at hresult
        cases hattempt : ((mailer.transport host).deliver stamp world message).result with
        | ok =>
            rw [hattempt] at hresult
            cases hresult
        | error given =>
            rw [hattempt] at hresult
            cases hresult
            exact ⟨given, rfl⟩
      constructor
      · intro other hother
        cases hother.symm.trans haccepted
        exact delivered
      · intro hnone
        cases hnone.symm.trans haccepted
      · constructor
        · intro hnone
          exact absurd hnone template
        · rintro ⟨unreadable, hresult⟩
          obtain ⟨given, heq⟩ := reason _ hresult
          cases heq
      · intro failure hresult other
        obtain ⟨given, rfl⟩ := reason failure hresult
        exact absurd rfl (other given)
      · exact callback _
  | none =>
      obtain ⟨failure, hrefusal, refused, template⟩ := refused_send host stamp haccepted
      constructor
      · intro message hsome
        cases hsome.symm.trans haccepted
      · intro _
        exact ⟨failure, hrefusal, refused⟩
      · rw [template, refused.result]
        constructor
        · rintro ⟨unreadable, rfl⟩
          exact ⟨unreadable, rfl⟩
        · rintro ⟨unreadable, heq⟩
          cases heq
          exact ⟨unreadable, rfl⟩
      · intro _ _ _
        exact refused.trace
      · exact callback _

end Mailer

end MailMerge
