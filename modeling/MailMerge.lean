import MailMerge.Mailer.Session
import MailMerge.Main
import MailMerge.Message.Codec
import MailMerge.Proofs.CommandLine
import MailMerge.Proofs.Delivery.Reporting
import MailMerge.Proofs.Json.Printer
import MailMerge.Proofs.Mail.Attachments
import MailMerge.Proofs.Mail.BlindCopies
import MailMerge.Proofs.Mail.Descriptions
import MailMerge.Proofs.Mail.FirstFailure
import MailMerge.Proofs.Mail.Injection
import MailMerge.Proofs.Mail.MimeFields
import MailMerge.Proofs.Mailer.Agent
import MailMerge.Proofs.Mailer.Run
import MailMerge.Proofs.Mailer.Setting
import MailMerge.Proofs.Mailer.Template
import MailMerge.Proofs.Message.Boundary
import MailMerge.Proofs.Message.Canonical
import MailMerge.Proofs.Message.Classification
import MailMerge.Proofs.Message.Codec
import MailMerge.Proofs.Message.HeaderForms
import MailMerge.Proofs.Message.LineStyle
import MailMerge.Proofs.Message.ReservedEntry
import MailMerge.Proofs.Options.Blame
import MailMerge.Proofs.Options.Environment
import MailMerge.Proofs.Options.Order
import MailMerge.Proofs.Template.Node
import MailMerge.Proofs.Template.Resolution
import MailMerge.Proofs.Template.Translation
import MailMerge.Proofs.Template.Withholding
import MailMerge.Proofs.Trace.Codec
import MailMerge.Proofs.Trace.Recording
import MailMerge.Trace.Codec
