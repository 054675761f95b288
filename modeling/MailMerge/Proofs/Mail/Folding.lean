/-
# Written values are folded

Whatever text a field is given, its written value has line breaks only before a space:
a word that holds anything but printable characters is encoded, and a new line is begun
only with spaces that were held back. The same holds for mailboxes, whose addresses
hold no line breaks once they were read.
-/

import MailMerge.Mail.Fields
import MailMerge.Proofs.Mail.HeaderSection
import MailMerge.Proofs.Mail.Mailbox

namespace MailMerge.Mail

open MailMerge.Text

/-! ## Encoded words -/

theorem base64Char_plain (value : Nat) :
    base64Char value ≠ '\r' ∧ base64Char value ≠ '\n' := by
  have hsmall : ∀ value < 63, base64Char value ≠ '\r' ∧ base64Char value ≠ '\n' := by
    decide +kernel
  by_cases hvalue : value < 63
  · exact hsmall value hvalue
  · have hlast : base64Char value = '+' ∨ base64Char value = '/' := by
      rw [base64Char, if_neg (by omega), if_neg (by omega), if_neg (by omega)]
      split
      · exact .inl rfl
      · exact .inr rfl
    rcases hlast with heq | heq
    · rw [heq]
      decide
    · rw [heq]
      decide

theorem unbroken_base64Encode (bytes : List UInt8) : Unbroken (base64Encode bytes) := by
  fun_induction base64Encode bytes with
  | case1 => exact unbroken_nil
  | case2 a => simp [base64Char_plain]
  | case3 a b => simp [base64Char_plain]
  | case4 a b c rest ih => simp [base64Char_plain, ih]

theorem unbroken_encodedWord (text : List Char) : Unbroken (encodedWord text) := by
  have hopening : Unbroken "=?utf-8?b?".toList := by decide +kernel
  have hclosing : Unbroken "?=".toList := by decide +kernel
  unfold encodedWord
  exact unbroken_append.2 ⟨unbroken_append.2 ⟨hopening, unbroken_base64Encode _⟩, hclosing⟩

/-! ## Writing -/

theorem isFolded_append_replicate {text : List Char} (folded : IsFolded text) (n : Nat) :
    IsFolded (text ++ List.replicate n ' ') :=
  folded.append (isFolded_of_unbroken (unbroken_replicate (by decide) n))

namespace FieldWriter

variable {w : FieldWriter}

theorem isFolded_write (folded : IsFolded w.written) {text : List Char}
    (unbroken : Unbroken text) : IsFolded (w.write text).written :=
  (isFolded_append_replicate folded _).append (isFolded_of_unbroken unbroken)

/-- A new line begins with a space when one is held back. -/
theorem isFolded_breakLine_write (folded : IsFolded w.written) (held : 0 < w.heldSpaces)
    {text : List Char} (unbroken : Unbroken text) :
    IsFolded (w.breakLine.write text).written := by
  -- The line break alone is not folded: it takes the first of the spaces behind it.
  obtain ⟨n, hn⟩ := Nat.exists_eq_add_of_lt held
  have hspaces : IsFolded (lineBreak ++ List.replicate w.heldSpaces ' ') := by
    rw [hn, Nat.zero_add, List.replicate_succ]
    exact .fold (isFolded_append_replicate .nil n)
  rw [write, breakLine]
  dsimp only
  rw [List.append_assoc w.written]
  exact (folded.append hspaces).append (isFolded_of_unbroken unbroken)

theorem isFolded_writeWord (folded : IsFolded w.written) {word : List Char}
    (unbroken : Unbroken word) : IsFolded (w.writeWord word).written := by
  rw [writeWord]
  split
  · next hbreak => exact isFolded_breakLine_write folded hbreak.2.1 unbroken
  · exact isFolded_write folded unbroken

theorem isFolded_foldFrom (folded : IsFolded w.written) {word text : List Char}
    (hword : Unbroken word) (htext : Unbroken text) :
    IsFolded (w.foldFrom word text).written := by
  have hreverse {word : List Char} (hword : Unbroken word) : Unbroken word.reverse :=
    hword.of_subset fun c hc => List.mem_reverse.1 hc
  fun_induction foldFrom w word text with
  | case1 => exact folded
  | case2 w word => exact isFolded_writeWord folded (hreverse hword)
  | case3 w word rest ih =>
      apply ih _ unbroken_nil (unbroken_cons.1 htext).2
      split
      · exact folded
      · exact isFolded_writeWord folded (hreverse hword)
  | case4 w word c rest _ ih =>
      obtain ⟨hc, hrest⟩ := unbroken_cons.1 htext
      exact ih folded (unbroken_cons.2 ⟨hc, hword⟩) hrest

theorem isFolded_fold (folded : IsFolded w.written) {text : List Char}
    (unbroken : Unbroken text) : IsFolded (w.fold text).written :=
  isFolded_foldFrom folded unbroken_nil unbroken

theorem isFolded_continueLine_write (folded : IsFolded w.written) {text : List Char}
    (unbroken : Unbroken text) : IsFolded (w.continueLine.write text).written := by
  rw [continueLine]
  split
  · have held : 0 < w.space.heldSpaces := Nat.succ_pos w.heldSpaces
    exact isFolded_breakLine_write (w := w.space) folded held unbroken
  · exact isFolded_breakLine_write folded (by omega) unbroken

/-- Encoded words hold no line break, whatever they encode. -/
theorem isFolded_writeEncoded (folded : IsFolded w.written) (isLater : Bool)
    (text : List Char) : IsFolded (w.writeEncoded isLater text).written := by
  fun_induction writeEncoded w isLater text with
  | case1 => exact folded
  | case2 w isLater c rest isFull w' more ih =>
      apply ih
      simp only [w']
      split
      · exact isFolded_continueLine_write folded (unbroken_encodedWord _)
      · exact isFolded_write folded (unbroken_encodedWord _)

theorem unbroken_of_isReadable {word : List Char} (readable : word.all isReadable) :
    Unbroken word :=
  unbroken_of_forall (by decide) (List.all_eq_true.1 readable)

theorem isFolded_writeGathered (folded : IsFolded w.written) (gathered : List Char) :
    IsFolded (w.writeGathered gathered).written :=
  isFolded_writeEncoded folded _ _

theorem isFolded_writeWords (folded : IsFolded w.written) (gathered : List Char)
    (words : List (List Char)) : IsFolded (w.writeWords gathered words).written := by
  fun_induction writeWords w gathered words with
  | case1 w gathered => exact isFolded_writeGathered folded gathered
  | case2 w gathered word words readable ih =>
      apply ih
      exact isFolded_fold (isFolded_writeGathered folded gathered)
        (unbroken_of_isReadable readable)
  | case3 w gathered word words _ ih => exact ih folded

theorem isFolded_finish (folded : IsFolded w.written) : IsFolded w.finish :=
  isFolded_append_replicate folded _

/-! ## Mailboxes -/

theorem unbroken_escapeQuotes {text : List Char} (unbroken : Unbroken text) :
    Unbroken (escapeQuotes text) := by
  rw [unbroken_iff]
  intro c hc
  obtain ⟨d, hd, hc⟩ := List.mem_flatMap.1 hc
  split at hc
  · rcases List.mem_pair.1 hc with rfl | rfl
    · decide
    · exact unbroken_iff.1 unbroken c hd
  · rw [List.mem_singleton.1 hc]
    exact unbroken_iff.1 unbroken d hd

theorem isFolded_foldl_writeWord (folded : IsFolded w.written) {text : List Char}
    (unbroken : Unbroken text) :
    IsFolded (text.foldl (fun w c => if c = ' ' then w.space else w.writeWord [c]) w).written := by
  induction text generalizing w with
  | nil => exact folded
  | cons c text ih =>
      obtain ⟨hc, htext⟩ := unbroken_cons.1 unbroken
      rw [List.foldl_cons]
      apply ih _ htext
      split
      · exact folded
      · exact isFolded_writeWord folded (unbroken_cons.2 ⟨hc, unbroken_nil⟩)

theorem isFolded_writeName (folded : IsFolded w.written) (name : List Char) :
    IsFolded (w.writeName name).written := by
  have hquote : Unbroken ['"'] := by decide
  rw [writeName]
  dsimp only
  split
  · next plain =>
    exact isFolded_fold folded (unbroken_of_forall (by decide) (List.all_eq_true.1 plain))
  · split
    · next plain =>
      have unbroken : Unbroken name := unbroken_of_forall (by decide) (List.all_eq_true.1 plain)
      exact isFolded_write (isFolded_fold (isFolded_write folded hquote) unbroken) hquote
    · split
      · next plain =>
        have unbroken : Unbroken name := unbroken_of_forall (by decide) (List.all_eq_true.1 plain)
        apply isFolded_write _ hquote
        exact isFolded_foldl_writeWord (isFolded_write folded hquote)
          (unbroken_escapeQuotes unbroken)
      · exact isFolded_writeEncoded folded _ _

theorem isFolded_writeMailbox (folded : IsFolded w.written) {mailbox : Mailbox}
    (unbroken : Unbroken mailbox.address.text) : IsFolded (w.writeMailbox mailbox).written := by
  rw [writeMailbox]
  split
  · next name _ =>
    apply isFolded_write
    · exact isFolded_writeName folded name
    · simp [unbroken]
  · exact isFolded_write folded unbroken

theorem isFolded_writeMailboxes (folded : IsFolded w.written) {mailboxes : List Mailbox}
    (unbroken : ∀ mailbox ∈ mailboxes, Unbroken mailbox.address.text) :
    IsFolded (w.writeMailboxes mailboxes).written := by
  fun_induction writeMailboxes w mailboxes with
  | case1 => exact folded
  | case2 w mailbox => exact isFolded_writeMailbox folded (unbroken mailbox (by simp))
  | case3 w mailbox mailboxes _ ih =>
      apply ih
      · apply isFolded_write
        · exact isFolded_writeMailbox folded (unbroken mailbox (by simp))
        · decide
      · exact fun other hother => unbroken other (List.mem_cons_of_mem _ hother)

end FieldWriter

/-! ## Addresses -/

theorem IsDotAtom.unbroken {text : List Char} (dotAtom : IsDotAtom text) : Unbroken text :=
  unbroken_of_forall (by decide) dotAtom.chars

theorem unbroken_of_isQuotedContent {content : List Char} (valid : isQuotedContent content) :
    Unbroken content := by
  fun_induction isQuotedContent content with
  | case1 => exact unbroken_nil
  | case2 c rest ih =>
      rw [Bool.and_eq_true] at valid
      have hc := ne_lineBreak_of (p := fun c => '!' ≤ c && c ≤ '~') (by decide) valid.1
      exact unbroken_cons.2 ⟨by decide, unbroken_cons.2 ⟨hc, ih valid.2⟩⟩
  | case3 c rest _ ih =>
      rw [Bool.and_eq_true] at valid
      have hc := ne_lineBreak_of (p := isPlainQuotedChar) (by decide) valid.1
      exact unbroken_cons.2 ⟨hc, ih valid.2⟩

theorem unbroken_of_isUser {user : List Char} (valid : isUser user) : Unbroken user := by
  by_cases hquoted : user.head? = some '"'
  · obtain ⟨content, rfl, hcontent⟩ := exists_isQuotedContent_of_isUser valid hquoted
    simp [unbroken_of_isQuotedContent hcontent]
  · exact (isDotAtom_of_isUser valid hquoted).unbroken

theorem Mailbox.IsReadable.unbroken_address [InternationalDomains]
    {mailbox : Mailbox} (readable : mailbox.IsReadable) :
    Unbroken mailbox.address.text := by
  rw [Address.text, unbroken_append, unbroken_cons]
  exact ⟨unbroken_of_isUser readable.isUser, by decide, readable.domain.unbroken⟩

/-! ## Fields -/

/-- A text makes a plain field under every plain name. -/
theorem Field.isPlain_ofText {name : String} (plain : IsPlainName name.toList)
    (text : List Char) : (Field.ofText name text).IsPlain :=
  ⟨plain, FieldWriter.isFolded_finish (FieldWriter.isFolded_writeWords .nil _ _)⟩

/-- Mailboxes that can be read make a plain field under every plain name. -/
theorem Field.isPlain_mailboxes [InternationalDomains]
    {name : String} (plain : IsPlainName name.toList)
    {mailboxes : List Mailbox} (readable : ∀ mailbox ∈ mailboxes, mailbox.IsReadable) :
    Field.IsPlain ⟨name, .mailboxes mailboxes⟩ :=
  ⟨plain, FieldWriter.isFolded_finish (FieldWriter.isFolded_writeMailboxes .nil
    fun mailbox hmem => (readable mailbox hmem).unbroken_address)⟩

theorem isPlain_bodyFields (mail : Mail) : ∀ field ∈ mail.bodyFields, field.IsPlain := by
  have hnames : ∀ name ∈ ["Content-Type", "Content-Transfer-Encoding"],
      IsPlainName name.toList := by
    decide +kernel
  intro field hfield
  obtain ⟨name, hname, text, rfl⟩ := exists_eq_of_mem_bodyFields hfield
  exact Field.isPlain_ofText (hnames name hname) text

end MailMerge.Mail
