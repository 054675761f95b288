/-
# Messages of templates in several line styles

Whether a message depends on the style in which its template ends lines is decided
by the characters that values leave beside the line ends of the template. The main
statement says that the three styles give the same message exactly when no value
ends with a carriage return right before such a line end and none begins with a line
feed right behind one.
-/

import MailMerge.Proofs.Message.Canonical
import MailMerge.Proofs.Template.LineStyle

namespace MailMerge.Message

open MailMerge.Template MailMerge.Text

variable {values : Option Values} {ending : List Char}

/-- A template with its lines ended by `ending`. -/
def restyle (ending : List Char) (text : String) : String :=
  String.ofList (withLineEnding ending text.toList)

theorem render_restyle (markup : Markup) (proper : IsEnding ending) (text : String)
    (values : Option Values) :
    render markup (restyle ending text) values =
      String.ofList (unifyLineEndings
        (writeGlyphs ending (templateGlyphs markup values text.toList))) := by
  rw [restyle, ← toList_render_withLineEnding proper, String.ofList_toList]

theorem restyle_feed (text : String) : restyle ['\n'] text = text := by
  rw [restyle, withLineEnding_feed, String.ofList_toList]

/-- Two texts that differ by added line feeds give different messages. -/
theorem eq_zero_of_assemble {n : Nat} {first second : List Char} {message : Message}
    (padded : Padded n first second)
    (hfirst : assemble (String.ofList first) values = .ok message)
    (hsecond : assemble (String.ofList second) values = .ok message) : n = 0 := by
  obtain ⟨hfilled, firstMade⟩ := assemble_eq_ok_iff.1 hfirst
  obtain ⟨-, secondMade⟩ := assemble_eq_ok_iff.1 hsecond
  rw [String.toList_ofList] at hfilled firstMade secondMade
  have hbody : (divide first).2 = (divide second).2 := by
    have hcontent := congrArg Body.content (firstMade.body.trans secondMade.body.symm)
    rwa [Body.content_sniff, Body.content_sniff, String.ofList_inj] at hcontent
  cases hsplit : splitAtEmptyLine first with
  | none =>
      rw [divide, hsplit, Option.getD_none] at hfilled
      cases hfilled
  | some sides =>
      obtain ⟨before', after', hsplit', hlength⟩ := padded.exists_splitAtEmptyLine hsplit
      rw [divide, divide, hsplit, hsplit', Option.getD_some, Option.getD_some] at hbody
      rw [show sides.2 = after' from hbody] at hlength
      omega

/-- The three styles of a template agree exactly when no value makes a seam with a line end of
the template, or all three are rejected for the same reason. -/
theorem compose_restyle_eq_iff (markup : Markup) (text : String) (values : Option Values) :
    (compose markup (restyle ['\r', '\n'] text) values = compose markup text values ∧
      compose markup (restyle ['\r'] text) values = compose markup text values) ↔
    Seamless (templateGlyphs markup values text.toList) ∨
      ∃ rejection, compose markup text values = .error rejection ∧
        compose markup (restyle ['\r', '\n'] text) values = .error rejection ∧
        compose markup (restyle ['\r'] text) values = .error rejection := by
  have hfeed : render markup text values = String.ofList (unifyLineEndings
      (writeGlyphs ['\n'] (templateGlyphs markup values text.toList))) := by
    conv_lhs => rw [← restyle_feed text]
    exact render_restyle markup ⟨by simp, by simp⟩ text values
  have endsBoth : IsEnding ['\r', '\n'] := ⟨by simp, by simp⟩
  have endsReturn : IsEnding ['\r'] := ⟨by simp, by simp⟩
  have hboth := render_restyle markup endsBoth text values
  have hreturn := render_restyle markup endsReturn text values
  simp only [compose, hfeed, hboth, hreturn]
  constructor
  · rintro ⟨sameBoth, sameReturn⟩
    cases hmessage : assemble (String.ofList (unifyLineEndings
        (writeGlyphs ['\n'] (templateGlyphs markup values text.toList)))) values with
    | error rejection =>
        exact .inr ⟨rejection, rfl, sameBoth.trans hmessage, sameReturn.trans hmessage⟩
    | ok message =>
        obtain ⟨n, feedPadded, hn⟩ :=
          exists_padded_feed_both (templateGlyphs markup values text.toList)
        obtain ⟨m, returnPadded, hm⟩ :=
          exists_padded_return_both (templateGlyphs markup values text.toList)
        have hmessageBoth := sameBoth.trans hmessage
        have hmessageReturn := sameReturn.trans hmessage
        exact .inl (seamless_iff.2
          ⟨hn.1 (eq_zero_of_assemble feedPadded hmessage hmessageBoth),
            hm.1 (eq_zero_of_assemble returnPadded hmessageReturn hmessageBoth)⟩)
  · rintro (seamless | ⟨rejection, hmessage, hmessageBoth, hmessageReturn⟩)
    · rw [seamless.unifyLineEndings_eq.1, seamless.unifyLineEndings_eq.2]
      exact ⟨rfl, rfl⟩
    · rw [hmessage, hmessageBoth, hmessageReturn]
      exact ⟨rfl, rfl⟩

/-- A template whose subject line ends behind a reference. -/
def noticeTemplate : String :=
  "To: a@x.com\nFrom: b@x.com\nSubject: {{s}}\n\nbody"

/-- A subject with a carriage return at its end. -/
def noticeValues : Values :=
  ⟨[("s", .string "Hi\r")]⟩

/-- The message of the notice, for a body. -/
def notice (body : String) : Message where
  sender := "b@x.com"
  recipients := "a@x.com"
  subject := "Hi"
  copies := none
  blindCopies := none
  headers := none
  attachments := none
  body := .text body

/-- The carriage return of the subject and the line feed behind it are one line break where
lines end with a line feed, and two where they end with both characters. -/
theorem compose_restyle_notice :
    '\r' ∉ noticeTemplate.toList ∧
      compose .placeholder noticeTemplate (some noticeValues) = .ok (notice "body") ∧
      compose .placeholder (restyle ['\r', '\n'] noticeTemplate) (some noticeValues) =
        .ok (notice "\nbody") := by
  have hfeed : render .placeholder noticeTemplate (some noticeValues) =
      "To: a@x.com\nFrom: b@x.com\nSubject: Hi\n\nbody" := by
    decide +kernel
  have hboth : render .placeholder (restyle ['\r', '\n'] noticeTemplate) (some noticeValues) =
      "To: a@x.com\nFrom: b@x.com\nSubject: Hi\n\n\nbody" := by
    decide +kernel
  refine ⟨by decide, ?_, ?_⟩
  · rw [compose, hfeed]
    rfl
  · rw [compose, hboth]
    rfl

end MailMerge.Message
