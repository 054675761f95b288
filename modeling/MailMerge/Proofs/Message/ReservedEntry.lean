/-
# The reserved entry

The entry of the values that describes attachments is no text. However a reference is
spelled, what stands in its place depends on the other entries alone. Of two maps that
differ in the reserved entry only, a template therefore composes to the same message
or is rejected for the same reason, and each message has the attachments of its map.
-/

import MailMerge.Message.Composition
import MailMerge.Proofs.Template.Division

namespace MailMerge.Template

open MailMerge.Json MailMerge.Text

/-- Two maps agree on every entry but the reserved one. -/
def Values.AgreeBesidesReserved (first second : Values) : Prop :=
  ∀ key, key ≠ attachmentsKey → first.members.get? key = second.members.get? key

variable {first second : Values} {markup : Markup}

theorem Values.AgreeBesidesReserved.symm (agree : first.AgreeBesidesReserved second) :
    second.AgreeBesidesReserved first :=
  fun key hkey => (agree key hkey).symm

/-- The key at which a free name begins is not the reserved one. -/
theorem ofList_ne_attachmentsKey {key : List Char} (free : key ≠ attachmentsKey.toList) :
    String.ofList key ≠ attachmentsKey := by
  intro heq
  apply free
  rw [← heq, String.toList_ofList]

/-- A name that is not reserved leads to the same value in both maps. -/
theorem Leads.of_agree (agree : first.AgreeBesidesReserved second) {name : List Char}
    {target : Value} (free : ¬ IsReserved markup name) (leads : Leads first markup name target) :
    Leads second markup name target := by
  cases leads with
  | dotted plain entry walk =>
      rw [IsReserved, firstSegment, takeWhile_joinWith plain] at free
      rw [agree _ (ofList_ne_attachmentsKey free)] at entry
      exact .dotted plain entry walk
  | slashed plain entry walk =>
      rw [IsReserved, firstSegment, takeWhile_joinWith plain] at free
      rw [agree _ (ofList_ne_attachmentsKey free)] at entry
      exact .slashed plain entry walk
  | named plain entry =>
      -- The reserved key holds no slash, so as a name of its own it is its first segment.
      have hname : name ≠ attachmentsKey.toList := by
        rintro rfl
        exact free (by decide)
      rw [agree _ (ofList_ne_attachmentsKey hname)] at entry
      exact .named plain entry

/-- The same text stands in place of a piece for both maps. -/
theorem Piece.Becomes.of_agree (agree : first.AgreeBesidesReserved second) {piece : Piece}
    {text : List Char} (becomes : piece.Becomes markup first text) :
    piece.Becomes markup second text := by
  cases becomes with
  | literal c => exact .literal c
  | filled leads free renders => exact .filled (leads.of_agree agree free) free renders
  | @kept reference stays =>
      by_cases reserved : IsReserved markup reference.name
      · exact .kept (.inl reserved)
      · have lost := stays.resolve_left reserved
        exact .kept (.inr fun target leads => lost target (leads.of_agree agree.symm reserved))

theorem substitute_of_agree (agree : first.AgreeBesidesReserved second) (markup : Markup)
    (text : String) : substitute markup text first = substitute markup text second := by
  have hfill : Piece.fill markup first = Piece.fill markup second := by
    ext1 piece
    have becomes : piece.Becomes markup first (piece.fill markup first) := becomes_iff.2 rfl
    exact becomes_iff.1 (becomes.of_agree agree)
  rw [substitute, substitute, hfill]

end MailMerge.Template

namespace MailMerge.Message

open MailMerge.Json MailMerge.Template MailMerge.Text

/-- The values lend a message nothing but its attachments. -/
theorem assemble_eq_map (rendered : String) (values : Option Values) :
    assemble rendered values = (assemble rendered none).map fun message =>
      { message with attachments := values.bind Values.attachments? } := by
  unfold assemble
  obtain ⟨block, body⟩ := divide rendered.toList
  dsimp only
  split
  · rfl
  · cases (Headers.ofBlock block).require .recipients with
    | error rejection => rfl
    | ok recipients =>
        cases (Headers.ofBlock block).require .sender with
        | error rejection => rfl
        | ok sender => cases (Headers.ofBlock block).require .subject <;> rfl

/-- What the reserved entry holds shows nowhere but in the attachments: maps that differ in it
alone fill a template in alike, and the template is rejected for the same reason or composes to
messages that differ in their attachments alone, which are what each map has there. -/
theorem compose_of_agree {first second : Values} (agree : first.AgreeBesidesReserved second)
    (markup : Markup) (text : String) :
    substitute markup text first = substitute markup text second ∧
      ((∃ rejection, compose markup text (some first) = .error rejection ∧
          compose markup text (some second) = .error rejection) ∨
        ∃ message : Message,
          compose markup text (some first) =
            .ok { message with attachments := first.members.get? attachmentsKey } ∧
          compose markup text (some second) =
            .ok { message with attachments := second.members.get? attachmentsKey }) := by
  have hsubstitute := substitute_of_agree agree markup text
  refine ⟨hsubstitute, ?_⟩
  have hrender : render markup text (some first) = render markup text (some second) := by
    rw [render, render, hsubstitute]
  rw [compose, compose, hrender, assemble_eq_map _ (some first), assemble_eq_map _ (some second)]
  cases assemble (render markup text (some second)) none with
  | error rejection => exact .inl ⟨rejection, rfl, rfl⟩
  | ok message => exact .inr ⟨message, rfl, rfl⟩

/-- A template that asks for the reserved entry in several spellings. -/
def inquiryTemplate : String :=
  "To: [to]\nFrom: b@x.com\nSubject: [attachments]\n\n[/attachments/0/path] [/who/name]"

/-- Values for this template without attachments. -/
def plainInquiry : Values :=
  ⟨[("to", .string "a@x.com"), ("who", .object [("name", .string "Ada")])]⟩

/-- What describes an attachment. -/
def inquiryAttachments : Value :=
  .array [.object [("path", .string "a.txt")]]

/-- The same values with an attachment. -/
def attachingInquiry : Values :=
  ⟨(attachmentsKey, inquiryAttachments) :: plainInquiry.members⟩

theorem compose_of_agree_inquiry :
    attachingInquiry.AgreeBesidesReserved plainInquiry ∧
      ∃ message : Message,
        compose .bracket inquiryTemplate (some attachingInquiry) =
          .ok { message with attachments := some inquiryAttachments } ∧
        compose .bracket inquiryTemplate (some plainInquiry) =
          .ok { message with attachments := none } := by
  have agree : attachingInquiry.AgreeBesidesReserved plainInquiry := by
    intro key hkey
    rw [attachingInquiry, Members.get?, if_neg (Ne.symm hkey)]
  refine ⟨agree, ?_⟩
  rcases (compose_of_agree agree .bracket inquiryTemplate).2 with
    ⟨rejection, -, hsecond⟩ | ⟨message, hfirst, hsecond⟩
  · have hrender : render .bracket inquiryTemplate (some plainInquiry) =
        "To: a@x.com\nFrom: b@x.com\nSubject: [attachments]\n\n[/attachments/0/path] Ada" := by
      decide +kernel
    rw [compose, hrender] at hsecond
    cases hsecond
  · exact ⟨message, hfirst, hsecond⟩

end MailMerge.Message
