/-
# The key that is blamed

A refusal names the key of the option that was refused. The parser of securities alone knows nothing
of keys: it blames a word it does not know on `tls`, and its field has a second key, `secure`. So
when options are set, the refusal names the first one that is refused, in the order of the keys,
unless this is a word for `secure`.
-/

import MailMerge.Proofs.Options.Sequence

namespace MailMerge

open MailMerge.Json MailMerge.Stage

variable {key : String} {value : Value} {invalid : InvalidOption}

/-! ## One option -/

namespace OptionField

/-- The key that the refusal of a value is blamed on. -/
def blamedKey (key : String) : OptionField → Value → String
  | .security, .string _ => "tls"
  | _, _ => key

theorem key_of_expectText (failed : expectText key value = .error invalid) : invalid.key = key := by
  cases value with
  | string s => cases failed
  | _ =>
      cases failed
      rfl

theorem key_of_orBlame {α : Type} {complaint : Complaint} {a? : Option α}
    (failed : orBlame key complaint a? = .error invalid) : invalid.key = key := by
  cases a? with
  | some a => cases failed
  | none =>
      cases failed
      rfl

theorem key_of_readSecurity {text : String} (failed : Security.read text = .error invalid) :
    invalid.key = "tls" := by
  simp only [Security.read] at failed
  split at failed
  · cases failed
  · split at failed
    · cases failed
    · split at failed
      · cases failed
      · cases failed
        rfl

theorem key_of_assign {field : OptionField} {options : Options}
    (failed : field.assign key value options = .error invalid) :
    invalid.key = field.blamedKey key value := by
  cases field with
  | host | command | username | password | helloName =>
      exact key_of_expectText (map_eq_error_iff.1 failed)
  | port | sendmail | timeout => exact key_of_orBlame (map_eq_error_iff.1 failed)
  | security =>
      have hread := map_eq_error_iff.1 failed
      cases value with
      | string s => exact key_of_readSecurity hread
      | bool b => cases b <;> cases hread
      | _ =>
          cases hread
          rfl

/-- The key that was given is blamed, unless it is `secure` and the value a word. -/
theorem blamedKey_eq_iff {field : OptionField} (hkey : key ∈ field.keys) :
    field.blamedKey key value = key ↔ ¬ (key = "secure" ∧ ∃ word, value = .string word) := by
  have hsecure : "secure" ∈ field.keys → field = .security := by
    cases field <;> decide
  cases field with
  | security =>
      simp only [keys, List.mem_cons, List.not_mem_nil, or_false] at hkey
      rcases hkey with rfl | rfl <;> cases value <;> simp [blamedKey]
  | _ =>
      refine iff_of_true rfl fun hword => ?_
      cases hsecure (hword.1 ▸ hkey)

end OptionField

namespace Options

variable {options left : Options} {members : Members}

/-- A refusal names the key that was given, unless this is `secure` and the value a word. It then
names `tls`. -/
theorem key_of_set (failed : options.set key value = .error invalid) :
    (invalid.key = key ↔ ¬ (key = "secure" ∧ ∃ word, value = .string word)) ∧
      (key = "secure" → ∀ word, value = .string word → invalid.key = "tls") := by
  rw [set] at failed
  cases hfield : OptionField.ofKey? key with
  | none =>
      rw [hfield] at failed
      cases failed
  | some field =>
      rw [hfield] at failed
      rw [OptionField.key_of_assign failed]
      refine ⟨OptionField.blamedKey_eq_iff (OptionField.ofKey?_eq_some_iff.1 hfield), ?_⟩
      rintro rfl word rfl
      cases hfield
      rfl

/-! ## Several options -/

/-- A refusal names the first option, in the order of the keys, that is refused. -/
def NamesFirstRefused (options : Options) (members : Members) (invalid : InvalidOption) : Prop :=
  ∃ value, options.IsFirstRefused members invalid.key value

/-- The first option that is refused is a word for `secure`. -/
def RefusesSecureWord (options : Options) (members : Members) : Prop :=
  ∃ word, options.IsFirstRefused members "secure" (.string word)

/-- What the refusal tells of a map whose options are not all set: the first that is refused or, if
this is a word for `secure`, the key `tls`. -/
structure TellsFirstRefused (options : Options) (members : Members) (invalid : InvalidOption) :
    Prop where
  names_iff : options.NamesFirstRefused members invalid ↔ ¬ options.RefusesSecureWord members
  tls : options.RefusesSecureWord members → invalid.key = "tls"

theorem tellsFirstRefused_of_setAll (ordered : members.keys.Pairwise (· < ·))
    (failed : options.setAll members = (left, .error invalid)) :
    options.TellsFirstRefused members invalid := by
  obtain ⟨key, value, hfirst, -, hrefused⟩ := exists_isFirstRefused ordered failed
  obtain ⟨hnamed, htls⟩ := key_of_set (hrefused options)
  have hsecure : options.RefusesSecureWord members ↔
      key = "secure" ∧ ∃ word, value = .string word := by
    constructor
    · rintro ⟨word, hword⟩
      obtain ⟨rfl, rfl⟩ := hfirst.unique ordered hword
      exact ⟨rfl, word, rfl⟩
    · rintro ⟨rfl, word, rfl⟩
      exact ⟨word, hfirst⟩
  have hnames : options.NamesFirstRefused members invalid ↔ invalid.key = key := by
    constructor
    · rintro ⟨_, hother⟩
      exact (hother.unique ordered hfirst).1
    · intro hkey
      exact ⟨value, hkey ▸ hfirst⟩
  refine ⟨by rw [hnames, hsecure, hnamed], fun hword => ?_⟩
  obtain ⟨hkey, word, hvalue⟩ := hsecure.1 hword
  exact htls hkey word hvalue

/-- When options are not all set, whether from a map or from a text that is an object, the refusal
names the first key whose value is refused unless this is a word for `secure`, and then `tls`. -/
theorem setAll_blame (options : Options) :
    (∀ (members : Members) (left : Options) (invalid : InvalidOption),
      members.keys.Pairwise (· < ·) → options.setAll members = (left, .error invalid) →
        options.TellsFirstRefused members invalid) ∧
      ∀ (text : String) (members : Members) (failure : OptionsFailure),
        Value.parse text = .ok (.object members) → parse text = .error failure →
          ∃ invalid, failure = .invalid invalid ∧
            ({} : Options).TellsFirstRefused members invalid := by
  refine ⟨fun members left invalid ordered failed => tellsFirstRefused_of_setAll ordered failed, ?_⟩
  intro text members failure hobject failed
  obtain ⟨entries, -, rfl⟩ := parse_eq_object_iff.1 hobject
  rw [parse, hobject] at failed
  simp only at failed
  split at failed
  · cases failed
  · next left invalid hset =>
      cases failed
      exact ⟨invalid, rfl,
        tellsFirstRefused_of_setAll (Members.pairwise_keys_ofList entries) hset⟩

/-- A port that is too great and a word that names no security. -/
def refusedOptions : Members :=
  [("port", .ofNat 70000), ("secure", .string "bogus")]

theorem setAll_blame_port :
    refusedOptions.keys.Pairwise (· < ·) ∧
      ({} : Options).setAll refusedOptions = ({}, .error ⟨"port", .notAPort⟩) ∧
        ({} : Options).NamesFirstRefused refusedOptions ⟨"port", .notAPort⟩ := by
  have ordered : refusedOptions.keys.Pairwise (· < ·) := by decide
  refine ⟨ordered, rfl, ((setAll_blame {}).1 _ _ _ ordered rfl).names_iff.2 ?_⟩
  rintro ⟨word, hword⟩
  obtain ⟨changed, hset⟩ :=
    hword.first ("port", .ofNat 70000) (by simp [refusedOptions]) (by decide)
  cases hset

/-- A word for `secure` is blamed on another key, which the options do not have. -/
theorem setAll_secure_bogus :
    ({} : Options).setAll [("secure", .string "bogus")] =
        ({}, .error ⟨"tls", .unknownSecurity "bogus"⟩) ∧
      ¬ ({} : Options).NamesFirstRefused [("secure", .string "bogus")]
        ⟨"tls", .unknownSecurity "bogus"⟩ := by
  refine ⟨rfl, ?_⟩
  rintro ⟨value, hfirst⟩
  simpa using hfirst.mem

end Options

end MailMerge
