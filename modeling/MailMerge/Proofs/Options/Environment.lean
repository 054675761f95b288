/-
# Variables against keys

Options are read from the variables of a process by one reader and set by key and value by another.
The two agree on every text: what the variables give is what setting one field after the other
gives, each by the text of its variable, where a refused value is passed over. The fields may be
taken in any order, since what a variable does to its own field does not depend on the others.
-/

import Mathlib.Data.List.Perm.Basic
import MailMerge.Options.Setting

namespace MailMerge

open MailMerge.Json MailMerge.Text

/-! ## The variable and the key of a field -/

namespace OptionField

/-- The variable of a field, without the beginning that all of them share. -/
def shellName : OptionField → String
  | .host => "HOST"
  | .port => "PORT"
  | .sendmail => "SENDMAIL"
  | .command => "SENDMAIL_COMMAND"
  | .username => "USERNAME"
  | .password => "PASSWORD"
  | .security => "TLS"
  | .timeout => "TIMEOUT_SECS"
  | .helloName => "HELLO_NAME"

/-- The key of a field that is spelled like its variable. -/
def key (field : OptionField) : String :=
  lowercase field.shellName

theorem ofKey?_key (field : OptionField) : ofKey? field.key = some field := by
  cases field <;> rfl

/-- The value that the text of a variable offers to its field. A blank text offers nothing to a
field that may stay empty, and seconds are offered as a number. -/
def offered? (text : String) : OptionField → Option Value
  | .command | .username | .password | .helloName =>
    if isAllBlank text.toList then none else some (.string text)
  | .timeout => (readSeconds? text).map fun time => .ofNat time.val
  | .host | .port | .sendmail | .security => some (.string text)

end OptionField

namespace Options

theorem set_key (options : Options) (field : OptionField) (value : Value) :
    options.set field.key value = field.assign field.key value options := by
  rw [set, OptionField.ofKey?_key]

/-- The text of the variable of a field. -/
def variableText? (environment : Environment) (field : OptionField) : Option String :=
  environment.lookup ("MAILER_" ++ field.shellName)

/-- Set a field by the value that its variable offers, if there is one and it is accepted. -/
def setFromVariable (environment : Environment) (options : Options) (field : OptionField) :
    Options :=
  match (variableText? environment field).bind field.offered? with
  | none => options
  | some value =>
    match options.set field.key value with
    | .ok changed => changed
    | .error _ => options

/-! ## One field -/

/-- The options with what a variable gives to one field. -/
def take (environment : Environment) (options : Options) (field : OptionField) : Options :=
  let given : Option String := variableText? environment field
  let filled : Option String := given.filter fun text => !isAllBlank text.toList
  match field with
  | .host => { options with host := given.getD options.host }
  | .port => { options with port := (given.bind readPort?).getD options.port }
  | .sendmail => { options with sendmail := (given.bind readFlag?).getD options.sendmail }
  | .command => { options with command := filled.or options.command }
  | .username => { options with username := filled.or options.username }
  | .password => { options with password := filled.or options.password }
  | .security =>
    let read? := given.bind fun text => (Security.read text).toOption
    { options with security := read?.getD options.security }
  | .timeout => { options with timeout := (given.bind readSeconds?).or options.timeout }
  | .helloName => { options with helloName := filled.or options.helloName }

/-- Seconds survive the way through a JSON number. -/
theorem toNat?_ofNat (time : Seconds) : (Number.ofNat time.val).toNat? = some time.val := by
  have hbound : time.val < 18446744073709551616 := time.isLt
  simp only [Number.ofNat, Integer.ofNat, Number.toNat?]
  rw [if_pos (by omega)]
  congr 1
  omega

theorem boundedBy_val {bound : Nat} (n : Fin bound) : boundedBy bound n.val = some n :=
  dif_pos n.isLt

/-- Setting a field from its variable is taking what the variable gives. -/
theorem setFromVariable_eq_take (environment : Environment) (options : Options)
    (field : OptionField) :
    setFromVariable environment options field = take environment options field := by
  rw [setFromVariable, take.eq_def]
  cases variableText? environment field with
  | none => cases field <;> rfl
  | some text =>
    simp only [Option.bind_some, set_key]
    cases field with
    | host => rfl
    | port =>
      simp only [OptionField.offered?, OptionField.assign]
      cases readPort? text <;> rfl
    | sendmail =>
      simp only [OptionField.offered?, OptionField.assign]
      cases readFlag? text <;> rfl
    | security =>
      simp only [OptionField.offered?, OptionField.assign]
      cases Security.read text <;> rfl
    | timeout =>
      simp only [OptionField.offered?, OptionField.assign]
      cases readSeconds? text with
      | none => rfl
      | some time =>
        simp only [Option.map_some, Value.ofNat, toNat?_ofNat, Option.bind_some, boundedBy_val]
        rfl
    | command | username | password | helloName =>
      simp only [OptionField.offered?, Option.filter_some]
      cases isAllBlank text.toList <;> rfl

/-! ## All fields -/

/-- What a variable gives to its field does not depend on when it is taken. -/
theorem take_comm (environment : Environment) (options : Options) (field other : OptionField) :
    take environment (take environment options field) other =
      take environment (take environment options other) field := by
  cases field <;> cases other <;> rfl

/-- The options that the variables give, one field after the other. -/
theorem ofEnvironment_eq_foldl_take (environment : Environment) :
    ofEnvironment environment = OptionField.all.foldl (take environment) {} := by
  simp only [OptionField.all, List.foldl_cons, List.foldl_nil, take, Option.or_none]
  rfl

/-- What the variables of a process give is what comes of setting each field once, in any order,
by the value that its variable offers, where nothing offered and a refused value are passed over. -/
theorem ofEnvironment_eq_foldl_setFromVariable (environment : Environment)
    {order : List OptionField} (horder : order.Perm OptionField.all) :
    ofEnvironment environment = order.foldl (setFromVariable environment) {} := by
  have hstep : setFromVariable environment = take environment :=
    funext fun options => funext fun field => setFromVariable_eq_take environment options field
  rw [hstep, ofEnvironment_eq_foldl_take]
  exact horder.symm.foldl_eq' (fun a _ b _ options => take_comm environment options a b) {}

/-- Variables with a port beyond the greatest, a padded truth value, a security in capitals, a
blank name and a time with a plus sign and a leading zero. -/
def shellVariables : Environment :=
  [("MAILER_PORT", "65536"), ("MAILER_SENDMAIL", " Yes "), ("MAILER_TLS", "STARTTLS"),
    ("MAILER_USERNAME", " "), ("MAILER_TIMEOUT_SECS", "+030")]

theorem ofEnvironment_eq_foldl_setFromVariable_reverse :
    OptionField.all.reverse.Perm OptionField.all ∧
      ofEnvironment shellVariables =
        OptionField.all.reverse.foldl (setFromVariable shellVariables) {} ∧
      (ofEnvironment shellVariables).port = 25 ∧
      (ofEnvironment shellVariables).sendmail = true ∧
      (ofEnvironment shellVariables).security = .startTls ∧
      (ofEnvironment shellVariables).username = none ∧
      (ofEnvironment shellVariables).timeout = some 30 := by
  refine ⟨List.reverse_perm _, ?_, ?_⟩
  · exact ofEnvironment_eq_foldl_setFromVariable shellVariables (List.reverse_perm _)
  · decide +kernel

end Options

end MailMerge
