/-
# Setting an option of a mailer

However the options came about and whatever was done with the mailer since, setting one option
either changes nothing at all or changes the place that its key denotes and no other. The options
without a field stay apart from the fields: none of them has a key that denotes a field, and every
operation keeps it so.
-/

import MailMerge.Proofs.Mailer.Agent
import MailMerge.Proofs.Options.Place

namespace MailMerge

open MailMerge.Json MailMerge.Stage MailMerge.Mail

/-! ## Options apart from the fields -/

namespace Options

/-- Options before any is set by its key: those that hold without any setting, those of a relay,
those of an environment and those of a text. -/
inductive IsInitial : Options → Prop
  | defaults : IsInitial {}
  | relay (host : String) (port : Port) : IsInitial (.forRelay host port)
  | environment (environment : Environment) : IsInitial (.ofEnvironment environment)
  | text {text : String} {options : Options} (given : parse text = .ok options) : IsInitial options

/-- No key of a field is among the keys of the options without a field. -/
def KeepsApart (options : Options) : Prop :=
  ∀ field : OptionField, ∀ name ∈ field.keys, name ∉ options.extra.keys

variable {options changed : Options} {key : String} {value : Value}

theorem keepsApart_of_extra_eq_nil (hextra : options.extra = []) : options.KeepsApart := by
  intro field name _ hname
  rw [hextra] at hname
  cases hname

/-- The only key that setting an option can add is its own, and only if it denotes no field. -/
theorem KeepsApart.set (apart : options.KeepsApart) (hset : options.set key value = .ok changed) :
    changed.KeepsApart := by
  intro field name hfield hname
  rw [Options.set] at hset
  cases hkey : OptionField.ofKey? key with
  | some found =>
      rw [hkey] at hset
      simp only [found.assign_eq_map_put, map_eq_ok_iff] at hset
      obtain ⟨content, -, rfl⟩ := hset
      rw [OptionField.extra_put] at hname
      exact apart field name hfield hname
  | none =>
      rw [hkey] at hset
      cases hset
      rcases Members.mem_keys_insert hname with rfl | hname
      · cases hkey.symm.trans (OptionField.ofKey?_eq_some_iff.2 hfield)
      · exact apart field name hfield hname

/-- What a map leaves behind, whether all of its options are set or not. -/
theorem KeepsApart.setAll (apart : options.KeepsApart) (members : Members) :
    (options.setAll members).1.KeepsApart := by
  induction members generalizing options with
  | nil => exact apart
  | cons member members ih =>
      obtain ⟨key, value⟩ := member
      rw [Options.setAll]
      cases hset : options.set key value with
      | error invalid => exact apart
      | ok changed => exact ih (apart.set hset)

theorem IsInitial.keepsApart (initial : options.IsInitial) : options.KeepsApart := by
  cases initial with
  | defaults => exact keepsApart_of_extra_eq_nil rfl
  | relay host port => exact keepsApart_of_extra_eq_nil rfl
  | environment environment => exact keepsApart_of_extra_eq_nil rfl
  | @text text _ given =>
      rw [parse] at given
      split at given
      · cases given
      · next members _ =>
          have start : ({} : Options).KeepsApart := keepsApart_of_extra_eq_nil rfl
          have hleft := start.setAll members
          split at given
          · next heq =>
              cases given
              rwa [heq] at hleft
          · cases given
      · cases given

end Options

/-! ## Operations -/

namespace Session

theorem keepsApart_perform [InternationalDomains] [FileTypes] (host : Host) {session : Session}
    (apart : session.mailer.options.KeepsApart) (stamp : Stamp) (operation : Operation) :
    (session.perform host stamp operation).session.mailer.options.KeepsApart := by
  cases operation with
  | set key value =>
      rw [perform]
      cases hset : session.mailer.options.set key value with
      | error invalid => exact apart
      | ok changed => exact apart.set hset
  | setAll members =>
      have hleft := apart.setAll members
      rw [perform]
      cases hset : session.mailer.options.setAll members with
      | mk left result =>
          rw [hset] at hleft
          cases result <;> exact hleft
  | send input values => exact apart
  | attach agent => exact apart
  | takeHeard => exact apart
  | turnAway turnsAway => exact apart
  | takeKept => exact apart

theorem keepsApart_after [InternationalDomains] [FileTypes] (host : Host) {session : Session}
    (apart : session.mailer.options.KeepsApart) (steps : List (Stamp × Operation)) :
    (session.after host steps).mailer.options.KeepsApart := by
  induction steps generalizing session with
  | nil => exact apart
  | cons step steps ih => exact ih (keepsApart_perform host apart step.1 step.2)

/-- To set an option is to put what its value stands for into the place of its key, or to answer
with a refusal. -/
theorem perform_set [InternationalDomains] [FileTypes]
    (host : Host) (session : Session) (stamp : Stamp) (key : String)
    (value : Value) :
    session.perform host stamp (.set key value) =
      match (OptionPlace.ofKey key).read key value with
      | .ok content =>
        let changed := (OptionPlace.ofKey key).put session.mailer.options content
        ⟨session.withOptions changed, .done, []⟩
      | .error invalid => ⟨session, .invalid invalid, []⟩ := by
  rw [perform, Options.set_eq_map_put]
  cases (OptionPlace.ofKey key).read key value <;> rfl

/-- Setting an option changes one place or nothing. Whatever was done with a mailer, the options
without a field are still apart from the fields. An option that is refused leaves the session as it
is. One that is set puts what its value stands for into the place of its key; every other place
holds what it held, and setting the option once more changes nothing. -/
theorem perform_set_one_place [InternationalDomains] [FileTypes] (host : Host) {session : Session}
    (initial : session.mailer.options.IsInitial) (steps : List (Stamp × Operation)) (stamp : Stamp)
    (key : String) (value : Value) :
    let reached := session.after host steps
    let place := OptionPlace.ofKey key
    let step := reached.perform host stamp (.set key value)
    reached.mailer.options.KeepsApart ∧
      ((∃ invalid, place.read key value = .error invalid ∧
          step = ⟨reached, .invalid invalid, []⟩) ∨
        ∃ content, place.read key value = .ok content ∧
          step = ⟨reached.withOptions (place.put reached.mailer.options content), .done, []⟩ ∧
          place.held? step.session.mailer.options = some content ∧
          (∀ other, other ≠ place →
            other.held? step.session.mailer.options = other.held? reached.mailer.options) ∧
          ∀ later, step.session.perform host later (.set key value) =
            ⟨step.session, .done, []⟩) := by
  intro reached place step
  refine ⟨keepsApart_after host initial.keepsApart steps, ?_⟩
  have hstep : step = _ := perform_set host reached stamp key value
  cases given : place.read key value with
  | error invalid =>
      rw [given] at hstep
      exact .inl ⟨invalid, rfl, hstep⟩
  | ok content =>
      rw [given] at hstep
      refine .inr ⟨content, rfl, hstep, ?_, fun other different => ?_, fun later => ?_⟩
      · rw [hstep]
        exact OptionPlace.held?_put_self _ content
      · rw [hstep]
        exact OptionPlace.held?_put_of_ne _ different content
      · rw [perform_set, given, hstep]
        simp only [withOptions, OptionPlace.put_put]

/-- A mailer for another port than the usual one. -/
def portMailer : Session where
  mailer := { options := .ofEnvironment [("MAILER_PORT", "2525")] }
  world := ⟨bareFiles, [], false⟩

/-- Options that are set up to one that is refused, and one more. -/
def halfSetSteps : List (Stamp × Operation) :=
  [(newYear, .setAll [("dsn", .bool true), ("port", .ofNat 70000), ("user", .string "ann")]),
    (newYear, .set "pass" (.string "secret"))]

theorem perform_set_one_place_secure :
    portMailer.mailer.options.IsInitial ∧
      let reached := portMailer.after bareHost halfSetSteps
      let step := reached.perform bareHost newYear (.set "secure" (.string "SSL"))
      reached.mailer.options.KeepsApart ∧ reached.mailer.options.extra.keys = ["dsn"] ∧
        (reached.mailer.options.port = 2525 ∧ step.session.mailer.options.port = 2525) ∧
        step.session.mailer.options.security = .wrapper ∧
        step.session.perform bareHost newYear (.set "secure" (.string "SSL")) =
          ⟨step.session, .done, []⟩ := by
  have initial : portMailer.mailer.options.IsInitial := .environment _
  obtain ⟨apart, houtcome⟩ :=
    perform_set_one_place bareHost initial halfSetSteps newYear "secure" (.string "SSL")
  refine ⟨initial, apart, by decide +kernel, by decide +kernel, by decide +kernel, ?_⟩
  rcases houtcome with ⟨invalid, hread, -⟩ | ⟨content, -, -, -, -, hrepeat⟩
  · have accepted : OptionField.read .security "secure" (.string "SSL") = .ok Security.wrapper := rfl
    cases accepted.symm.trans hread
  · exact hrepeat newYear

end Session

end MailMerge
