/-
# What the stamp of a mail decides

The time of a stamp shows in the date of a mail alone and its boundary between the parts alone.
Whether a message becomes a mail at all, and to whom it travels, the stamp does not decide.
-/

import MailMerge.Proofs.Mail.BlindCopies
import MailMerge.Proofs.Mail.Recipients

namespace MailMerge.Mail

open MailMerge.Host MailMerge.Stage MailMerge.Text MailMerge.Time

/-- The envelope is read from other fields than the date. -/
theorem readEnvelope_dated [InternationalDomains] (now : Utc) (fields : Fields) :
    readEnvelope (dated now fields) = readEnvelope fields := by
  have hdate : ∀ name ∈ ["From", "Sender", "To", "Cc", "Bcc"],
      sameIgnoringCase "Date" name = false := by decide
  have hshown (name : String) (hname : name ∈ ["From", "Sender", "To", "Cc", "Bcc"]) :
      (dated now fields).shown? name = fields.shown? name :=
    shown?_dated (hdate name hname) now fields
  have hsender : senderAddress (dated now fields) = senderAddress fields := by
    rw [senderAddress, senderAddress, hshown "From" (by decide), hshown "Sender" (by decide)]
  have haddresses (name : String) (hname : name ∈ ["From", "Sender", "To", "Cc", "Bcc"]) :
      fieldAddresses (dated now fields) name = fieldAddresses fields name := by
    rw [fieldAddresses, fieldAddresses, hshown name hname]
  rw [readEnvelope, readEnvelope, hsender, haddresses "To" (by decide),
    haddresses "Cc" (by decide), haddresses "Bcc" (by decide)]

/-- Two stamps give the same failure, or mails that differ in their dates and boundaries alone. -/
theorem map_restamped_build [InternationalDomains] [FileTypes]
    (files : FileSystem) (stamp stamp' : Stamp) (message : Message)
    (date boundary : List Char) :
    (build files stamp message).map (restamped date boundary) =
      (build files stamp' message).map (restamped date boundary) := by
  have hbcc : sameIgnoringCase "Date" "Bcc" = false := by decide
  simp only [build, map_bind, readEnvelope_dated]
  -- The stages before the last do not know the stamp.
  refine bind_congr fun given => bind_congr fun uses => bind_congr fun attachments =>
    bind_congr fun parts => bind_congr fun envelope => ?_
  simp only [restamped, Except.map, pure, Except.pure, without_dated hbcc]
  rw [map_redated_dated date stamp.now stamp'.now]

end MailMerge.Mail
