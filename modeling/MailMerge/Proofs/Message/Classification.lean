/-
# What a rendered template is taken for

Every text is one of three things. It lacks a body, it has a body and does not fill one
of the required headers, or it is a message. Which one is told by its first empty line
and by the headers in front of it. A message loses no header and has none twice: those
with a field of their own become fields, and all others stay headers, in their order.
-/

import Mathlib.Data.List.Nodup
import MailMerge.Proofs.Message.Canonical
import MailMerge.Proofs.Text.Blank

namespace MailMerge.Message

open MailMerge.Mail MailMerge.Stage MailMerge.Template MailMerge.Text

/-! ## Headers that are lacking -/

/-- The required headers, in the order in which they are looked for. -/
def requiredHeaders : List RequiredHeader :=
  [.recipients, .sender, .subject]

namespace Headers

/-- A name has a value that is not empty. -/
def Fills (headers : Headers) (name : String) : Prop :=
  ∃ value, (name, value) ∈ headers.entries ∧ value ≠ ""

/-- A required header is the first that is lacking or empty. -/
def FirstLacking (headers : Headers) (header : RequiredHeader) : Prop :=
  ∃ before after, requiredHeaders = before ++ header :: after ∧
    (∀ earlier ∈ before, headers.Fills earlier.name) ∧ ¬ headers.Fills header.name

/-- The first required header that is lacking or empty. -/
def lacking? (headers : Headers) : Option RequiredHeader :=
  requiredHeaders.find? fun header => (headers.filled? header.name).isNone

variable {headers : Headers}

theorem fills_iff {name : String} : headers.Fills name ↔ (headers.filled? name).isNone = false := by
  rw [Option.isNone_eq_false_iff, Option.isSome_iff_exists]
  simp only [Fills, filled?_eq_some_iff, String.isEmpty_eq_false_iff]

theorem firstLacking_iff {header : RequiredHeader} :
    headers.FirstLacking header ↔ headers.lacking? = some header := by
  rw [lacking?, List.find?_eq_some_iff_append]
  simp only [FirstLacking, fills_iff, Bool.not_eq_false, Bool.not_eq_true']
  constructor
  · rintro ⟨before, after, hrequired, hbefore, hheader⟩
    exact ⟨hheader, before, after, hrequired, hbefore⟩
  · rintro ⟨hheader, before, after, hrequired, hbefore⟩
    exact ⟨before, after, hrequired, hbefore, hheader⟩

end Headers

/-- The three required headers are there, or the first that is lacking is the rejection. -/
theorem assemble_of_filled {rendered : String} (values : Option Values)
    (filled : isAllBlank (divide rendered.toList).2 = false) :
    match (Headers.ofBlock (divide rendered.toList).1).lacking? with
    | some header => assemble rendered values = .error (.missingHeader header)
    | none => ∃ message, assemble rendered values = .ok message := by
  rw [assemble]
  generalize divide rendered.toList = sides at filled ⊢
  obtain ⟨block, body⟩ := sides
  dsimp only at filled ⊢
  generalize Headers.ofBlock block = headers
  rw [if_neg (by simp [filled]), Headers.lacking?, requiredHeaders, List.find?_cons,
    List.find?_cons, List.find?_cons]
  unfold Headers.require RequiredHeader.name
  cases headers.filled? "To" with
  | none => rfl
  | some recipients =>
      cases headers.filled? "From" with
      | none => rfl
      | some sender =>
          cases headers.filled? "Subject" with
          | none => rfl
          | some subject => exact ⟨_, rfl⟩

/-! ## Where the headers go -/

/-- An entry of a header block that becomes a field: a required header, or a header for copies that
is not empty. -/
def BecomesField (entry : String × String) : Prop :=
  entry.1 ∈ requiredHeaders.map RequiredHeader.name ∨ entry.1 ∈ ["Cc", "Bcc"] ∧ entry.2 ≠ ""

instance : DecidablePred BecomesField :=
  fun entry => inferInstanceAs (Decidable (entry.1 ∈ _ ∨ entry.1 ∈ _ ∧ entry.2 ≠ ""))

/-- Every entry of a header block is in the message once, and no other is. -/
structure PlacesHeaders (message : Message) (headers : Headers) : Prop where
  recipients : ("To", message.recipients) ∈ headers.entries
  sender : ("From", message.sender) ∈ headers.entries
  subject : ("Subject", message.subject) ∈ headers.entries
  copies : ∀ value, message.copies = some value ↔ ("Cc", value) ∈ headers.entries ∧ value ≠ ""
  blindCopies :
    ∀ value, message.blindCopies = some value ↔ ("Bcc", value) ∈ headers.entries ∧ value ≠ ""
  /-- The other entries stay headers, in their order. -/
  others : headerEntries message = headers.entries.filter (¬ BecomesField ·)
  absent : message.headers = none ↔ ∀ entry ∈ headers.entries, BecomesField entry
  once : message.canonicalEntries.Perm headers.entries

namespace AssembledFrom

variable {message : Message} {headers : Headers} {body : List Char} {values : Option Values}

/-- The promoted names are those of the entries that become fields. -/
theorem mem_promoted_iff (made : AssembledFrom message headers body values) {name value : String}
    (hentry : (name, value) ∈ headers.entries) :
    name ∈ headers.promoted ↔ BecomesField (name, value) := by
  have hfilled : (headers.filled? name).isSome ↔ value ≠ "" := by
    rw [Headers.filled?, Headers.get?_eq_some_iff.2 hentry]
    simp
  have hrequired {other : String} (hother : headers.filled? name = some other) : value ≠ "" :=
    hfilled.1 (Option.isSome_iff_exists.2 ⟨other, hother⟩)
  have hmem : name ∈ promotedNames ↔
      name ∈ requiredHeaders.map RequiredHeader.name ∨ name ∈ ["Cc", "Bcc"] :=
    List.mem_append (s := ["To", "From", "Subject"])
  rw [Headers.promoted, List.mem_filter, hfilled, hmem, or_and_right, BecomesField]
  refine or_congr_left (and_iff_left_of_imp fun hname => ?_)
  simp only [requiredHeaders, List.map_cons, List.map_nil, List.mem_cons, List.not_mem_nil,
    or_false, RequiredHeader.name] at hname
  rcases hname with rfl | rfl | rfl
  · exact hrequired made.recipients
  · exact hrequired made.sender
  · exact hrequired made.subject

theorem others_promoted (made : AssembledFrom message headers body values) :
    headers.others headers.promoted = headers.entries.filter (¬ BecomesField ·) := by
  refine List.filter_congr fun entry hentry => ?_
  simp [made.mem_promoted_iff hentry]

theorem placesHeaders (made : AssembledFrom message headers body values) :
    PlacesHeaders message headers where
  recipients := (Headers.filled?_eq_some_iff.1 made.recipients).1
  sender := (Headers.filled?_eq_some_iff.1 made.sender).1
  subject := (Headers.filled?_eq_some_iff.1 made.subject).1
  copies value := by
    rw [← made.copies, Headers.filled?_eq_some_iff, String.isEmpty_eq_false_iff]
  blindCopies value := by
    rw [← made.blindCopies, Headers.filled?_eq_some_iff, String.isEmpty_eq_false_iff]
  others := made.headerEntries_eq.trans made.others_promoted
  absent := by
    rw [← made.headers, Headers.without?]
    simp [made.others_promoted]
  once := by
    refine (List.perm_ext_iff_of_nodup ?_ ?_).2 fun entry => made.mem_canonicalEntries_iff
    · exact List.Nodup.of_map Prod.fst made.nodup_canonicalEntries
    · exact List.Nodup.of_map Prod.fst headers.distinct

end AssembledFrom

/-! ## The three results -/

/-- A body holds a text, and it is HTML if an angle bracket opens the text. -/
structure Body.Holds (body : Body) (text : List Char) : Prop where
  content : body.content.toList = text
  html : (∃ content, body = .html content) ↔
    ∃ blanks rest, (∀ c ∈ blanks, isBlank c) ∧ text = blanks ++ '<' :: rest

/-- A text with a first empty line and something else than blanks behind it. -/
structure HasBody (text block body : List Char) : Prop extends HasEmptyLine text block body where
  filled : ∃ c ∈ body, ¬ isBlank c

/-- What a text is taken for. -/
structure Classifies (text : List Char) (result : Except Rejection Message) : Prop where
  missingBody : result = .error .missingBody ↔
    ¬ ['\n', '\n'] <:+: text ∨ ∃ block body, HasEmptyLine text block body ∧ ∀ c ∈ body, isBlank c
  missingHeader : ∀ block body, HasBody text block body → ∀ header,
    (result = .error (.missingHeader header) ↔ (Headers.ofBlock block).FirstLacking header)
  message : ∀ block body, HasBody text block body →
    (∀ header, ¬ (Headers.ofBlock block).FirstLacking header) →
      ∃ message, result = .ok message ∧ PlacesHeaders message (Headers.ofBlock block) ∧
        message.body.Holds body

theorem Body.holds_sniff (text : List Char) : (Body.sniff (String.ofList text)).Holds text where
  content := by rw [Body.content_sniff, String.toList_ofList]
  html := by
    rw [← exists_trimLeft_eq_cons_iff (by decide), Body.sniff, String.toList_ofList]
    split <;> simp_all

theorem divide_of_hasEmptyLine {text block body : List Char}
    (divided : HasEmptyLine text block body) : divide text = (block, body) := by
  rw [divide, splitAtEmptyLine_eq_some_iff.2 divided, Option.getD_some]

/-- Nothing but blanks are left for a body when there is no empty line or only blanks behind it. -/
theorem isAllBlank_divide_iff {text : List Char} :
    isAllBlank (divide text).2 ↔
      ¬ ['\n', '\n'] <:+: text ∨
        ∃ block body, HasEmptyLine text block body ∧ ∀ c ∈ body, isBlank c := by
  simp only [← splitAtEmptyLine_eq_none_iff, ← splitAtEmptyLine_eq_some_iff]
  rw [divide]
  cases splitAtEmptyLine text with
  | none => simp [isAllBlank]
  | some sides => simp [isAllBlank, Prod.ext_iff]

theorem HasBody.isAllBlank_divide {text block body : List Char} (has : HasBody text block body) :
    isAllBlank (divide text).2 = false := by
  rw [divide_of_hasEmptyLine has.toHasEmptyLine, isAllBlank, List.all_eq_false]
  exact has.filled

/-- The body is looked at before the headers. -/
theorem assemble_eq_missingBody_iff {rendered : String} {values : Option Values} :
    assemble rendered values = .error .missingBody ↔ isAllBlank (divide rendered.toList).2 := by
  constructor
  · intro hassemble
    by_contra hfilled
    have hresult := assemble_of_filled values (eq_false_of_ne_true hfilled)
    split at hresult <;> simp_all
  · intro hblank
    simp [assemble, hblank]

/-- Every text is taken for exactly one thing, and as a message it keeps all its headers. -/
theorem assemble_classifies (rendered : String) (values : Option Values) :
    Classifies rendered.toList (assemble rendered values) := by
  refine ⟨assemble_eq_missingBody_iff.trans isAllBlank_divide_iff, ?_, ?_⟩
  · intro block body has header
    have hresult := assemble_of_filled values has.isAllBlank_divide
    rw [divide_of_hasEmptyLine has.toHasEmptyLine] at hresult
    rw [Headers.firstLacking_iff]
    split at hresult
    · next found hlacking => simp [hresult, hlacking]
    · next hlacking =>
        obtain ⟨message, hmessage⟩ := hresult
        simp [hmessage, hlacking]
  · intro block body has complete
    have hresult := assemble_of_filled values has.isAllBlank_divide
    have hdivide := divide_of_hasEmptyLine has.toHasEmptyLine
    rw [hdivide] at hresult
    split at hresult
    · next found hlacking => exact absurd (Headers.firstLacking_iff.2 hlacking) (complete found)
    · next hlacking =>
        obtain ⟨message, hmessage⟩ := hresult
        obtain ⟨-, made⟩ := assemble_eq_ok_iff.1 hmessage
        rw [hdivide] at made
        exact ⟨message, hmessage, made.placesHeaders, made.body ▸ Body.holds_sniff body⟩

/-- The header given again keeps its first place, and what is empty or spelled otherwise stays a
header. -/
example :
    assemble "To:\nX-Tag: a\ncc: d@x.com\nFrom: b@x.com\nSubject: Hi\nCc:\nTo: a@x.com\n\n\n <p>"
        none =
      .ok {
        sender := "b@x.com"
        recipients := "a@x.com"
        subject := "Hi"
        copies := none
        blindCopies := none
        headers := some ⟨[("X-Tag", "a"), ("cc", "d@x.com"), ("Cc", "")], by decide⟩
        attachments := none
        body := .html "\n <p>" } :=
  rfl

end MailMerge.Message
