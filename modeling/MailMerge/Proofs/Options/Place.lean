/-
# Places of options

A key denotes a place in the options: its field, or an entry of its own. To set an option is to read
a content from the value, which the options have no part in, and to put it into the place of the
key. What is put into a place replaces what it held, and no other place is touched; so contents for
different places may be put in any order.
-/

import MailMerge.Options.Setting
import MailMerge.Proofs.Json.Entries
import MailMerge.Proofs.Stage

namespace MailMerge

open MailMerge.Json MailMerge.Stage

/-! ## Entries -/

namespace Options

/-- The options with a value kept under a key that denotes no field. -/
def keep (options : Options) (key : String) (value : Value) : Options :=
  { options with extra := options.extra.insert key value }

theorem keep_keep (options : Options) (key : String) (first second : Value) :
    (options.keep key first).keep key second = options.keep key second :=
  congrArg (fun extra => { options with extra }) (Members.insert_insert ..)

theorem keep_comm (options : Options) {first second : String} (different : first ≠ second)
    (value held : Value) :
    (options.keep first value).keep second held = (options.keep second held).keep first value :=
  congrArg (fun extra => { options with extra }) (Members.insert_comm _ different value held)

end Options

/-! ## Fields -/

namespace OptionField

/-- A key denotes a field exactly when it is one of the keys of the field. -/
theorem ofKey?_eq_some_iff {key : String} {field : OptionField} :
    ofKey? key = some field ↔ key ∈ field.keys := by
  constructor
  · intro found
    simpa using List.find?_some found
  · intro hkey
    cases field <;> simp only [keys, List.mem_cons, List.not_mem_nil, or_false] at hkey
    case command | username | password | security | helloName =>
      rcases hkey with rfl | rfl
      · rfl
      · rfl
    all_goals
      subst hkey
      rfl

/-- What a field holds. -/
def Content : OptionField → Type
  | .host => String
  | .port => Port
  | .sendmail => Bool
  | .command | .username | .password | .helloName => Option String
  | .security => Security
  | .timeout => Option Seconds

/-- What options hold in a field. -/
def get (options : Options) : (field : OptionField) → field.Content
  | .host => options.host
  | .port => options.port
  | .sendmail => options.sendmail
  | .command => options.command
  | .username => options.username
  | .password => options.password
  | .security => options.security
  | .timeout => options.timeout
  | .helloName => options.helloName

/-- The options with another content in a field. -/
def put (options : Options) : (field : OptionField) → field.Content → Options
  | .host, content => { options with host := content }
  | .port, content => { options with port := content }
  | .sendmail, content => { options with sendmail := content }
  | .command, content => { options with command := content }
  | .username, content => { options with username := content }
  | .password, content => { options with password := content }
  | .security, content => { options with security := content }
  | .timeout, content => { options with timeout := content }
  | .helloName, content => { options with helloName := content }

variable {field other : OptionField} (options : Options)

theorem get_put_self (content : field.Content) :
    field.get (field.put options content) = content := by
  cases field <;> rfl

theorem get_put_of_ne (different : other ≠ field) (content : field.Content) :
    other.get (field.put options content) = other.get options := by
  cases field <;> cases other <;> first | rfl | exact absurd rfl different

theorem extra_put (content : field.Content) :
    (field.put options content).extra = options.extra := by
  cases field <;> rfl

theorem put_keep (content : field.Content) (key : String) (value : Value) :
    field.put (options.keep key value) content = (field.put options content).keep key value := by
  cases field <;> rfl

theorem put_put (first second : field.Content) :
    field.put (field.put options first) second = field.put options second := by
  cases field <;> rfl

theorem put_comm (different : other ≠ field) (content : field.Content) (held : other.Content) :
    other.put (field.put options content) held = field.put (other.put options held) content := by
  cases field <;> cases other <;> first | rfl | exact absurd rfl different

/-- The content that a value stands for in a field. A value that stands for none is blamed on a
key. -/
def read (field : OptionField) (key : String) (value : Value) :
    Except InvalidOption field.Content :=
  -- Any options would do in place of those of an empty environment.
  (field.assign key value (.ofEnvironment [])).map fun options => field.get options

/-- The options have no part in what a field is given, and the field alone is changed. -/
theorem assign_eq_map_put (field : OptionField) (key : String) (value : Value) :
    field.assign key value options = (field.read key value).map (field.put options) := by
  cases field <;> simp only [read, assign, map_map] <;> rfl

end OptionField

/-! ## Places -/

/-- A place in the options: a field, or the entry of a key. -/
inductive OptionPlace where
  | known (field : OptionField)
  | entry (key : String)
  deriving DecidableEq

namespace OptionPlace

/-- The place that a key denotes: its field or, where it has none, its own entry. -/
def ofKey (key : String) : OptionPlace :=
  match OptionField.ofKey? key with
  | some field => .known field
  | none => .entry key

/-- What a place can hold. -/
def Content : OptionPlace → Type
  | .known field => field.Content
  | .entry _ => Value

/-- What options hold in a place. A field always holds something. -/
def held? (options : Options) : (place : OptionPlace) → Option place.Content
  | .known field => some (field.get options)
  | .entry key => options.extra.get? key

/-- The options with another content in a place. -/
def put (options : Options) : (place : OptionPlace) → place.Content → Options
  | .known field, content => field.put options content
  | .entry key, value => options.keep key value

/-- The content that a value stands for in a place. An entry takes every value. -/
def read (key : String) (value : Value) : (place : OptionPlace) →
    Except InvalidOption place.Content
  | .known field => field.read key value
  | .entry _ => .ok value

theorem ofKey_eq_known_iff {key : String} {field : OptionField} :
    ofKey key = .known field ↔ key ∈ field.keys := by
  rw [← OptionField.ofKey?_eq_some_iff, ofKey]
  cases OptionField.ofKey? key with
  | none => simp
  | some found => simp

variable {place other : OptionPlace} (options : Options)

theorem held?_put_self (content : place.Content) :
    place.held? (place.put options content) = some content := by
  cases place with
  | known field => exact congrArg some (field.get_put_self options content)
  | entry key => exact (Members.get?_insert key).trans (if_pos rfl)

/-- Putting a content into a place leaves every other place as it is. -/
theorem held?_put_of_ne (different : other ≠ place) (content : place.Content) :
    other.held? (place.put options content) = other.held? options := by
  cases place with
  | known field =>
      cases other with
      | known second =>
          have hfield : second ≠ field := fun heq => different (congrArg _ heq)
          exact congrArg some (OptionField.get_put_of_ne options hfield content)
      | entry key => exact congrArg (Members.get? · key) (OptionField.extra_put options content)
  | entry key =>
      cases other with
      | known second => cases second <;> rfl
      | entry name =>
          have hkey : key ≠ name := fun heq => different (congrArg _ heq.symm)
          exact (Members.get?_insert name).trans (if_neg hkey)

/-- Of two contents for a place the later stays. -/
theorem put_put (first second : place.Content) :
    place.put (place.put options first) second = place.put options second := by
  cases place with
  | known field => exact OptionField.put_put options first second
  | entry key => exact Options.keep_keep options key first second

/-- Contents for different places may be put in either order. -/
theorem put_comm (different : other ≠ place) (content : place.Content) (held : other.Content) :
    other.put (place.put options content) held = place.put (other.put options held) content := by
  cases place with
  | known field =>
      cases other with
      | known second =>
          have hfield : second ≠ field := fun heq => different (congrArg _ heq)
          exact OptionField.put_comm options hfield content held
      | entry key => exact (OptionField.put_keep options content key held).symm
  | entry key =>
      cases other with
      | known second => exact OptionField.put_keep options held key content
      | entry name =>
          have hkey : key ≠ name := fun heq => different (congrArg _ heq.symm)
          exact Options.keep_comm options hkey content held

end OptionPlace

/-! ## Setting -/

/-- To set an option is to read its value and to put what was read into the place of its key. -/
theorem Options.set_eq_map_put (options : Options) (key : String) (value : Value) :
    options.set key value =
      ((OptionPlace.ofKey key).read key value).map ((OptionPlace.ofKey key).put options) := by
  rw [set, OptionPlace.ofKey]
  cases OptionField.ofKey? key with
  | none => rfl
  | some field => exact field.assign_eq_map_put options key value

end MailMerge
