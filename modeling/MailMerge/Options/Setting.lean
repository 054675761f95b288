/-
# Setting options

An option is set by a key and a JSON value. A key denotes a field or, when it denotes none, is
kept with its value as it is. A value that its field does not accept changes nothing; of several
settings those before the first refused one stay.
-/

import MailMerge.Json.Reader
import MailMerge.Options.Basic
import MailMerge.Text.Ascii
import MailMerge.Text.Blank
import MailMerge.Text.Numeral

namespace MailMerge

open MailMerge.Json MailMerge.Text

/-- What is wrong with a value. -/
inductive Complaint where
  | notText
  | notAPort
  | notABoolean
  | notASecurity
  /-- A word that names no security, trimmed and in lower case. -/
  | unknownSecurity (word : String)
  | notSeconds
  deriving DecidableEq, Repr

/-- The text of a complaint. -/
def Complaint.message : Complaint → String
  | .notText => "expected a string"
  | .notAPort => "expected a port number"
  | .notABoolean => "expected a boolean"
  | .notASecurity => "expected a TLS mode"
  | .unknownSecurity word => "unknown TLS mode '" ++ word ++ "'"
  | .notSeconds => "expected whole seconds"

/-- A refused value and the key it is blamed on. -/
structure InvalidOption where
  key : String
  complaint : Complaint
  deriving DecidableEq, Repr

/-- The text of a refusal. -/
def InvalidOption.message (invalid : InvalidOption) : String :=
  "Invalid configuration value for " ++ invalid.key ++ ": " ++ invalid.complaint.message

/-! ## Words -/

/-- An option word without surrounding blanks and in lower case. -/
def optionWord (text : String) : String :=
  lowercase (String.ofList (trim text.toList))

/-- The security that a word names. A word that names none is blamed on the key `tls`. -/
def Security.read (text : String) : Except InvalidOption Security :=
  let word := optionWord text
  if ["", "none", "plain", "false"].contains word then .ok .plain
  else if ["starttls", "required"].contains word then .ok .startTls
  else if ["wrapper", "tls", "ssl", "secure", "true"].contains word then .ok .wrapper
  else .error ⟨"tls", .unknownSecurity word⟩

/-- The truth value that a word names. -/
def readFlag? (text : String) : Option Bool :=
  let word := optionWord text
  if ["1", "true", "yes", "on"].contains word then some true
  else if ["0", "false", "no", "off", ""].contains word then some false
  else none

/-- A number below a bound. -/
def boundedBy (bound n : Nat) : Option (Fin bound) :=
  if h : n < bound then some ⟨n, h⟩ else none

/-- The port that a numeral names. -/
def readPort? (text : String) : Option Port :=
  (numeralBelow? 65536 text.toList).bind (boundedBy 65536)

/-- The time that a numeral names. -/
def readSeconds? (text : String) : Option Seconds :=
  (numeralBelow? secondsBound text.toList).bind (boundedBy secondsBound)

/-! ## Fields -/

/-- A field of the options. -/
inductive OptionField where
  | host
  | port
  | sendmail
  | command
  | username
  | password
  | security
  | timeout
  | helloName
  deriving DecidableEq, Repr

namespace OptionField

/-- Every field. -/
def all : List OptionField :=
  [.host, .port, .sendmail, .command, .username, .password, .security, .timeout, .helloName]

/-- The keys that denote a field. -/
def keys : OptionField → List String
  | .host => ["host"]
  | .port => ["port"]
  | .sendmail => ["sendmail"]
  | .command => ["sendmail_command", "path"]
  | .username => ["username", "user"]
  | .password => ["password", "pass"]
  | .security => ["tls", "secure"]
  | .timeout => ["timeout_secs"]
  | .helloName => ["hello_name", "name"]

/-- The field that a key denotes. -/
def ofKey? (key : String) : Option OptionField :=
  all.find? fun field => field.keys.contains key

/-- Blame a missing value on a key. -/
def orBlame {α : Type} (key : String) (complaint : Complaint) :
    Option α → Except InvalidOption α
  | some a => .ok a
  | none => .error ⟨key, complaint⟩

/-- A text, or a complaint about the value of a key. -/
def expectText (key : String) : Value → Except InvalidOption String
  | .string s => .ok s
  | _ => .error ⟨key, .notText⟩

/-- Give a field the value that a JSON value stands for, in the options at hand. -/
def assign (field : OptionField) (key : String) (value : Value) (options : Options) :
    Except InvalidOption Options :=
  match field with
  | .host => (expectText key value).map fun host => { options with host }
  | .port =>
    let port? := match value with
      | .number n => n.toNat?.bind (boundedBy 65536)
      | .string s => readPort? s
      | _ => none
    (orBlame key .notAPort port?).map fun port => { options with port }
  | .sendmail =>
    let flag? := match value with
      | .bool b => some b
      | .string s => readFlag? s
      | _ => none
    (orBlame key .notABoolean flag?).map fun sendmail => { options with sendmail }
  | .command => (expectText key value).map fun command => { options with command := some command }
  | .username => (expectText key value).map fun name => { options with username := some name }
  | .password => (expectText key value).map fun word => { options with password := some word }
  | .security =>
    let security : Except InvalidOption Security := match value with
      | .bool true => .ok .wrapper
      | .bool false => .ok .plain
      | .string s => Security.read s
      | _ => .error ⟨key, .notASecurity⟩
    security.map fun security => { options with security }
  | .timeout =>
    let time? := match value with
      | .number n => n.toNat?.bind (boundedBy secondsBound)
      | _ => none
    (orBlame key .notSeconds time?).map fun time => { options with timeout := some time }
  | .helloName => (expectText key value).map fun name => { options with helloName := some name }

end OptionField

namespace Options

/-- Set one option. -/
def set (options : Options) (key : String) (value : Value) : Except InvalidOption Options :=
  match OptionField.ofKey? key with
  | some field => field.assign key value options
  | none => .ok { options with extra := options.extra.insert key value }

/-- Set several options in order, up to the first that is refused. -/
def setAll (options : Options) : Members → Options × Except InvalidOption Unit
  | [] => (options, .ok ())
  | (key, value) :: members =>
    match options.set key value with
    | .ok options => options.setAll members
    | .error invalid => (options, .error invalid)

end Options

/-! ## Reading options -/

/-- Why a text gives no options. -/
inductive OptionsFailure where
  | unreadable (failure : ReadFailure)
  | notAnObject
  | invalid (invalid : InvalidOption)
  deriving DecidableEq, Repr

/-- Set options from a JSON text on top of those that hold without any setting. -/
def Options.parse (text : String) : Except OptionsFailure Options :=
  match Value.parse text with
  | .error failure => .error (.unreadable failure)
  | .ok (.object members) =>
    match ({} : Options).setAll members with
    | (options, .ok ()) => .ok options
    | (_, .error invalid) => .error (.invalid invalid)
  | .ok _ => .error .notAnObject

/-- The text of the failure to find an object of options. -/
def notAnObjectMessage : String :=
  "Failed to parse configuration: configuration must be a JSON object"

/-- The variables of a process. -/
abbrev Environment := List (String × String)

/-- The options that variables give. A variable with a value that its field does not accept is
passed over, and so is a blank one where the field may stay empty. -/
def Options.ofEnvironment (environment : Environment) : Options :=
  let given (name : String) : Option String := environment.lookup ("MAILER_" ++ name)
  let filled (name : String) : Option String :=
    (given name).filter fun text => !isAllBlank text.toList
  let defaults : Options := {}
  { host := (given "HOST").getD defaults.host
    port := ((given "PORT").bind readPort?).getD defaults.port
    sendmail := ((given "SENDMAIL").bind readFlag?).getD defaults.sendmail
    command := filled "SENDMAIL_COMMAND"
    username := filled "USERNAME"
    password := filled "PASSWORD"
    security := ((given "TLS").bind fun text => (Security.read text).toOption).getD
      defaults.security
    timeout := (given "TIMEOUT_SECS").bind readSeconds?
    helloName := filled "HELLO_NAME" }

end MailMerge
