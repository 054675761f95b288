/-
# What an attempt reports

Each transport that sends mail tells how its attempt ended: the last event of the attempt has the
level of an error exactly when the delivery failed. One end is not told. Where a secured connection
to a relay cannot be prepared, the delivery fails after the event that it is about to connect, and
no event says so.
-/

import MailMerge.Delivery.Program
import MailMerge.Delivery.Relay
import MailMerge.Proofs.Mail.Recipients

namespace MailMerge.Delivery

open MailMerge.Host MailMerge.Json MailMerge.Mail MailMerge.Trace

/-! ## Reports -/

/-- The last event has the level of an error. -/
def EndsInError (events : List Event) : Prop :=
  events.getLast?.map (·.level) = some .error

instance (events : List Event) : Decidable (EndsInError events) :=
  inferInstanceAs (Decidable (_ = _))

/-- The delivery failed. -/
def Attempt.Failed (attempt : Attempt) : Prop :=
  attempt.result.isOk = false

instance (attempt : Attempt) : Decidable attempt.Failed :=
  inferInstanceAs (Decidable (_ = _))

/-- The attempt tells by its last event whether it failed. -/
def Attempt.TellsEnd (attempt : Attempt) : Prop :=
  EndsInError attempt.events ↔ attempt.Failed

instance (attempt : Attempt) : Decidable attempt.TellsEnd :=
  inferInstanceAs (Decidable (_ ↔ _))

theorem endsInError_append_singleton (events : List Event) (event : Event) :
    EndsInError (events ++ [event]) ↔ event.level = .error := by
  rw [EndsInError, List.getLast?_concat, Option.map_some, Option.some.injEq]

section Results

variable {ε ε' α : Type}

theorem isOk_mapError (f : ε → ε') (result : Except ε α) :
    (result.mapError f).isOk = result.isOk := by
  cases result <;> rfl

/-- An event of the level of an error stands at the end of a failure. -/
theorem endsInError_append_iff_of_error (events : List Event) {event : Event} {failure : ε}
    (level : event.level = .error) :
    EndsInError (events ++ [event]) ↔ (.error failure : Except ε α).isOk = false := by
  rw [endsInError_append_singleton, level]
  exact iff_of_true rfl rfl

/-- An event of another level stands at the end of a success. -/
theorem endsInError_append_iff_of_ok (events : List Event) {event : Event} {value : α}
    (level : event.level ≠ .error) :
    EndsInError (events ++ [event]) ↔ (.ok value : Except ε α).isOk = false := by
  rw [endsInError_append_singleton]
  exact iff_of_false level Bool.true_eq_false.mp

end Results

/-! ## The two ways of delivery -/

/-- A program that is asked to take a mail always tells how that ended. -/
theorem endsInError_pipeToProgram_iff (programs : Programs) (command : String)
    (files : FileSystem) (mail : Mail) :
    EndsInError (pipeToProgram programs command files mail).1 ↔
      (pipeToProgram programs command files mail).2.1.isOk = false := by
  unfold pipeToProgram
  dsimp only
  split
  · exact endsInError_append_iff_of_error [_] rfl
  · exact endsInError_append_iff_of_ok [_] Level.noConfusion

theorem pipeToProgram_ne_nil (programs : Programs) (command : String) (files : FileSystem)
    (mail : Mail) : (pipeToProgram programs command files mail).1 ≠ [] := by
  unfold pipeToProgram
  dsimp only
  split <;> exact List.cons_ne_nil _ _

/-- Before a relay is asked, nothing is told of a failure. -/
theorem not_endsInError_relayOpening (options : Options) (mail : Mail) :
    ¬ EndsInError (relayOpening options mail) :=
  fun hend => by cases Option.some.inj hend

/-- A relay that is asked to take a mail tells how that ended, and no end of a delivery through a
relay remains untold but that of a connection that cannot be prepared. -/
theorem endsInError_handToRelay_iff (network : Network) (options : Options) (mail : Mail) :
    (EndsInError (handToRelay network options mail).1 ↔
        (handToRelay network options mail).2.isOk = false) ↔
      (prepareRelay network options).isOk := by
  unfold handToRelay
  cases prepareRelay network options with
  | error reason =>
      constructor
      · intro tells
        exact absurd (tells.2 rfl) (not_endsInError_relayOpening options mail)
      · intro prepared
        cases prepared
  | ok =>
      refine iff_of_true ?_ rfl
      dsimp only
      split
      · exact endsInError_append_iff_of_ok _ Level.noConfusion
      · exact endsInError_append_iff_of_error _ rfl

theorem handToRelay_ne_nil (network : Network) (options : Options) (mail : Mail) :
    (handToRelay network options mail).1 ≠ [] := by
  unfold handToRelay
  dsimp only
  split
  · exact List.cons_ne_nil _ _
  · split <;> exact List.cons_ne_nil _ _

/-! ## Attempts -/

/-- A transport that sends mail, with what it needs of the host. -/
inductive Carrier where
  | relay (network : Network) (options : Options)
  | program (programs : Programs) (command : Option String)

namespace Carrier

/-- The transport. -/
def transport [InternationalDomains] [FileTypes] : Carrier → Transport
  | .relay network options => Delivery.relay network options
  | .program programs command => Delivery.program programs command

/-- A secured connection is asked for and cannot be prepared. -/
def CannotPrepare : Carrier → Prop
  | .relay network options =>
    options.security ≠ .plain ∧ ∃ reason, network.prepare options.host = .error reason
  | .program .. => False

theorem prepareRelay_isOk_iff {network : Network} {options : Options} :
    (prepareRelay network options).isOk ↔ ¬ (relay network options).CannotPrepare := by
  rw [prepareRelay, CannotPrepare]
  split
  · next hplain => simp [hplain, Except.isOk, Except.toBool]
  · next hsecured =>
    cases network.prepare options.host <;> simp [hsecured, Except.isOk, Except.toBool]

/-- A message that is no mail is told by a single event, and nothing of the host is asked. -/
theorem deliver_of_build_error [InternationalDomains] [FileTypes]
    (carrier : Carrier) {stamp : Stamp} {world : World}
    {message : Message} {failure : BuildFailure}
    (unbuilt : build world.files stamp message = .error failure) :
    carrier.transport.deliver stamp world message =
      ⟨[buildFailed failure], .error (.build failure), world, buildLog message⟩ := by
  cases carrier <;>
    simp only [transport, Delivery.relay, Delivery.program, Transport.ofMail, unbuilt]

/-- How a mail is carried is told, unless a secured connection cannot be prepared for it. -/
theorem deliver_of_build_ok [InternationalDomains] [FileTypes]
    (carrier : Carrier) {stamp : Stamp} {world : World}
    {message : Message} {mail : Mail} (built : build world.files stamp message = .ok mail) :
    (carrier.transport.deliver stamp world message).events ≠ [] ∧
      ((carrier.transport.deliver stamp world message).TellsEnd ↔ ¬ carrier.CannotPrepare) := by
  cases carrier with
  | relay network options =>
      rw [← prepareRelay_isOk_iff, ← endsInError_handToRelay_iff network options mail]
      simp only [Attempt.TellsEnd, Attempt.Failed, transport, Delivery.relay, Transport.ofMail,
        built, isOk_mapError, and_true]
      exact handToRelay_ne_nil network options mail
  | program programs command =>
      have tells := endsInError_pipeToProgram_iff programs (command.getD usualCommand)
        world.files mail
      simp only [Attempt.TellsEnd, Attempt.Failed, transport, Delivery.program, Transport.ofMail,
        built, isOk_mapError, CannotPrepare, tells, not_false_eq_true, and_true]
      exact pipeToProgram_ne_nil programs (command.getD usualCommand) world.files mail

end Carrier

/-- Whatever the host does, an attempt records something. Its last event has the level of an error
exactly when it failed, unless the message became a mail for which a secured connection cannot be
prepared; and a message that is no mail is told by a single event, with nothing else done. -/
theorem deliver_tellsEnd_iff [InternationalDomains] [FileTypes]
    (carrier : Carrier) (stamp : Stamp) (world : World)
    (message : Message) :
    (carrier.transport.deliver stamp world message).events ≠ [] ∧
      ((carrier.transport.deliver stamp world message).TellsEnd ↔
        ¬ ((build world.files stamp message).isOk ∧ carrier.CannotPrepare)) ∧
      ∀ failure, build world.files stamp message = .error failure →
        carrier.transport.deliver stamp world message =
          ⟨[buildFailed failure], .error (.build failure), world, buildLog message⟩ := by
  cases hbuild : build world.files stamp message with
  | error failure =>
      rw [carrier.deliver_of_build_error hbuild]
      refine ⟨List.cons_ne_nil _ _, iff_of_true ?_ ?_, ?_⟩
      · exact endsInError_append_iff_of_error [] rfl
      · rintro ⟨built, -⟩
        cases built
      · rintro _ ⟨rfl⟩
        rfl
  | ok mail =>
      obtain ⟨hne, htells⟩ := carrier.deliver_of_build_ok hbuild
      refine ⟨hne, htells.trans (not_congr ?_), fun _ heq => by cases heq⟩
      exact ⟨fun cannot => ⟨rfl, cannot⟩, fun both => both.2⟩

/-- A network for which no connection can be secured. -/
def unsecuredNetwork : Network where
  prepare _ := .error "no usable cipher suites configured"
  converse _ _ _ := .error (.ofConnection "Network is unreachable (os error 101)")

/-- The failure of a delivery that was to be secured leaves two events, none of them an error. -/
theorem deliver_untold :
    let carrier := Carrier.relay unsecuredNetwork { security := .startTls }
    let attempt := carrier.transport.deliver newYear ⟨bareFiles, [], false⟩ newsletter
    attempt.Failed ∧ attempt.events.map (·.level) = [.debug, .info] ∧ ¬ attempt.TellsEnd := by
  decide +kernel

end MailMerge.Delivery
