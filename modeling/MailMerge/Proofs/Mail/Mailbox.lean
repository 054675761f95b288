/-
# Reading shown mailboxes

A list of mailboxes is read from the text that shows it with as many members and the
same domains. A user is read as it was unless it is written in quotes: then it gets
shorter, before it is checked once more.
-/

import MailMerge.Proofs.Mail.Name
import MailMerge.Proofs.Stage

namespace MailMerge.Mail

open MailMerge.Stage MailMerge.Text

theorem Address.of_eq_ok_iff [InternationalDomains] {user domain : List Char} {address : Address} :
    Address.of user domain = .ok address ↔
      isUser user ∧ isDomain domain ∧ address = ⟨user, domain⟩ := by
  unfold Address.of
  cases hdomain : isDomain domain <;> cases huser : isUser user <;> simp [eq_comm]

/-- A mailbox as reading gives it. -/
structure Mailbox.IsReadable [InternationalDomains] (mailbox : Mailbox) : Prop where
  name : ∀ c ∈ mailbox.name.getD [], IsNameContent c
  checked : Address.of mailbox.address.user mailbox.address.domain = .ok mailbox.address
  domain : IsDotAtom mailbox.address.domain

theorem Mailbox.IsReadable.isUser [InternationalDomains]
    {mailbox : Mailbox} (readable : mailbox.IsReadable) :
    isUser mailbox.address.user :=
  (Address.of_eq_ok_iff.1 readable.checked).1

/-- The mailbox that is read where another one is shown. -/
structure ReadsAs (mailbox : Mailbox) (raw : RawMailbox) : Prop where
  domain : raw.domain = mailbox.address.domain
  plain : ¬ mailbox.address.IsQuoted → raw.user = mailbox.address.user
  shorter : mailbox.address.IsQuoted → raw.user.length < mailbox.address.user.length

/-! ## One mailbox -/

/-- A mailbox shows its address alone when it has no name, and else in angle brackets. -/
theorem Mailbox.text_eq (mailbox : Mailbox) :
    mailbox.text =
      if trim (mailbox.name.getD []) = [] then mailbox.address.text
      else showName (trim (mailbox.name.getD [])) ++
        ' ' :: '<' :: (mailbox.address.text ++ ['>']) := by
  unfold Mailbox.text
  simp only [List.isEmpty_iff, List.append_assoc, List.cons_append]

theorem readAngleAddress_append {gaps rest : List Char} {address : Address}
    (hgaps : ∀ c ∈ gaps, isGap c) (valid : isUser address.user)
    (dotAtom : IsDotAtom address.domain) (hrest : ∀ c ∈ rest.head?, c = ',') :
    ∃ user, readAngleAddress (gaps ++ '<' :: (address.text ++ '>' :: rest)) =
        some ((user, address.domain), rest) ∧
      (¬ address.IsQuoted → user = address.user) ∧
      (address.IsQuoted → user.length < address.user.length) := by
  have hstop : ∀ c ∈ ('>' :: rest).head?, (isAtomChar c || c == '.') = false := by
    rintro c ⟨rfl⟩
    decide
  obtain ⟨user, huser, hplain, hshorter⟩ := readAddress_text valid dotAtom hstop
  refine ⟨user, ?_, hplain, hshorter⟩
  have hdrop : (gaps ++ '<' :: (address.text ++ '>' :: rest)).dropWhile isGap =
      '<' :: (address.text ++ '>' :: rest) := by
    rw [List.dropWhile_append_of_pos hgaps, List.dropWhile_cons_of_neg (by decide)]
  have hbehind : rest.dropWhile isGap = rest := by
    cases rest with
    | nil => rfl
    | cons c rest =>
        have hc : c = ',' := hrest c rfl
        subst hc
        rw [List.dropWhile_cons_of_neg (by decide)]
  rw [readAngleAddress, hdrop]
  simp [huser, hbehind]

theorem readAngleAddress_eq_none {gaps rest : List Char} (hgaps : ∀ c ∈ gaps, isGap c) :
    readAngleAddress (gaps ++ '@' :: rest) = none := by
  have hdrop : (gaps ++ '@' :: rest).dropWhile isGap = '@' :: rest := by
    rw [List.dropWhile_append_of_pos hgaps, List.dropWhile_cons_of_neg (by decide)]
  rw [readAngleAddress, hdrop]
  rfl

theorem IsDotAtom.isPlainRun {text : List Char} (dotAtom : IsDotAtom text) : IsPlainRun text := by
  constructor
  · exact fun c hc => .inr (dotAtom.isAtomChar_or_eq hc)
  · right
    intro c hc
    rcases dotAtom.isAtomChar_or_eq hc with hatom | rfl
    · exact isGap_of_isAtomChar hatom
    · decide

theorem isStop_at : IsStop '@' :=
  ⟨by decide, by decide, by decide, by decide⟩

/-- Where an address is written without a name, what is read as a name ends before the sign that
parts user and domain. -/
theorem readName_user {user : List Char} (valid : isUser user) (rest : List Char) :
    ∃ name gaps, readName (user ++ '@' :: rest) = some (name, gaps ++ '@' :: rest) ∧
      ∀ c ∈ gaps, isGap c := by
  by_cases hquoted : user.head? = some '"'
  · obtain ⟨read, hread, -⟩ := readQuotedText_of_isUser valid hquoted ('@' :: rest)
    have plain : IsPlainRun [] := ⟨by simp, by simp⟩
    apply readName_of_readWord isStop_at plain
    rw [readWord, hread, Option.some_or, List.nil_append]
  · have dotAtom := isDotAtom_of_isUser valid hquoted
    obtain ⟨c, others, rfl, hc⟩ := dotAtom.exists_cons
    exact readName_append isStop_at hc dotAtom.isPlainRun rest

/-- Where a mailbox is shown at the end or before a comma, a mailbox is read. -/
theorem readRawMailbox_text [InternationalDomains]
    {mailbox : Mailbox} (readable : mailbox.IsReadable)
    {rest : List Char} (hrest : ∀ c ∈ rest.head?, c = ',') :
    ∃ raw, readRawMailbox (mailbox.text ++ rest) = some (raw, rest) ∧ ReadsAs mailbox raw := by
  have hcomma : ∀ c ∈ rest.head?, (isAtomChar c || c == '.') = false := by
    intro c hc
    rw [hrest c hc]
    decide
  rw [mailbox.text_eq]
  by_cases hname : trim (mailbox.name.getD []) = []
  · rw [if_pos hname]
    obtain ⟨user, huser, hplain, hshorter⟩ :=
      readAddress_text readable.isUser readable.domain hcomma
    obtain ⟨name, gaps, hread, hgaps⟩ :=
      readName_user readable.isUser (mailbox.address.domain ++ rest)
    refine ⟨⟨none, user, mailbox.address.domain⟩, ?_, rfl, hplain, hshorter⟩
    have htext : mailbox.address.text ++ rest =
        mailbox.address.user ++ '@' :: (mailbox.address.domain ++ rest) := by
      rw [Address.text, List.append_assoc, List.cons_append]
    rw [htext] at huser ⊢
    unfold readRawMailbox
    simp [hread, readAngleAddress_eq_none hgaps, huser]
  · rw [if_neg hname]
    obtain ⟨name, gaps, hread, hgaps⟩ := readName_showName hname
      (fun c hc => isBlank_of_mem_head?_trim hc)
      (fun c hc => readable.name c (trim_subset _ hc)) (mailbox.address.text ++ '>' :: rest)
    obtain ⟨user, huser, hplain, hshorter⟩ :=
      readAngleAddress_append hgaps readable.isUser readable.domain hrest
    refine ⟨⟨some name, user, mailbox.address.domain⟩, ?_, rfl, hplain, hshorter⟩
    unfold readRawMailbox
    simp only [List.append_assoc, List.cons_append, List.nil_append, hread, huser]
    rfl

/-! ## Lists of mailboxes -/

/-- A shown mailbox does not begin with a blank. -/
theorem exists_cons_text [InternationalDomains]
    {mailbox : Mailbox} (readable : mailbox.IsReadable) :
    ∃ c others, mailbox.text = c :: others ∧ isBlank c = false := by
  rw [mailbox.text_eq]
  by_cases hname : trim (mailbox.name.getD []) = []
  · rw [if_pos hname]
    by_cases hquoted : mailbox.address.user.head? = some '"'
    · obtain ⟨others, hothers⟩ := List.head?_eq_some_iff.1 hquoted
      refine ⟨'"', others ++ '@' :: mailbox.address.domain, ?_, by decide⟩
      rw [Address.text, hothers, List.cons_append]
    · have dotAtom := isDotAtom_of_isUser readable.isUser hquoted
      obtain ⟨c, others, hothers, hc⟩ := dotAtom.exists_cons
      refine ⟨c, others ++ '@' :: mailbox.address.domain, ?_, ?_⟩
      · rw [Address.text, hothers, List.cons_append]
      · have hatoms := (isUser_eq_true_iff.1 readable.isUser).2
        rw [if_neg fun both => hquoted both.1] at hatoms
        have hmem : c ∈ mailbox.address.user := by
          rw [hothers]
          exact List.mem_cons_self ..
        rcases isAddressAtomChar_of_mem_user hatoms hmem with hinside | rfl
        · rw [Bool.eq_false_iff]
          intro hblank
          rw [isAddressAtomChar_eq_false_of_isBlank hblank] at hinside
          cases hinside
        · decide
  · rw [if_neg hname]
    obtain ⟨c, others, hothers⟩ := List.exists_cons_of_ne_nil hname
    have hhead : c ∈ (trim (mailbox.name.getD [])).head? := by
      rw [hothers]
      rfl
    have hc := isBlank_of_mem_head?_trim hhead
    rw [hothers, showName]
    split
    · exact ⟨c, _, rfl, hc⟩
    · exact ⟨'"', _, rfl, by decide⟩

theorem showMailboxes_cons {mailboxes : List Mailbox} (filled : mailboxes ≠ [])
    (mailbox : Mailbox) :
    showMailboxes (mailbox :: mailboxes) =
      mailbox.text ++ ',' :: ' ' :: showMailboxes mailboxes := by
  obtain ⟨next, others, rfl⟩ := List.exists_cons_of_ne_nil filled
  simp [showMailboxes, joinWith]

theorem showMailboxes_singleton (mailbox : Mailbox) :
    showMailboxes [mailbox] = mailbox.text := by
  simp [showMailboxes, joinWith]

theorem exists_cons_showMailboxes [InternationalDomains]
    {mailboxes : List Mailbox} (filled : mailboxes ≠ [])
    (readable : ∀ mailbox ∈ mailboxes, mailbox.IsReadable) :
    ∃ c rest, showMailboxes mailboxes = c :: rest ∧ isBlank c = false := by
  obtain ⟨mailbox, others, rfl⟩ := List.exists_cons_of_ne_nil filled
  obtain ⟨c, behind, htext, hc⟩ := exists_cons_text (readable mailbox (by simp))
  by_cases hothers : others = []
  · subst hothers
    exact ⟨c, behind, by rw [showMailboxes_singleton, htext], hc⟩
  · exact ⟨c, _, by rw [showMailboxes_cons hothers, htext, List.cons_append], hc⟩

/-- Behind a comma and a blank the reading of a list goes on. -/
theorem readRawMailboxes_of_comma {text rest : List Char} {raw : RawMailbox} {c : Char}
    (found : readRawMailbox text = some (raw, ',' :: ' ' :: c :: rest)) (hc : isBlank c = false)
    (bound : Nat) :
    readRawMailboxes (bound + 1) text = (readRawMailboxes bound (c :: rest)).map (raw :: ·) := by
  have hstay : (',' :: ' ' :: c :: rest).dropWhile isBlank = ',' :: ' ' :: c :: rest := by
    rw [List.dropWhile_cons_of_neg (by decide)]
  have hdrop : (' ' :: c :: rest).dropWhile isBlank = c :: rest := by
    rw [List.dropWhile_cons_of_pos (by decide), List.dropWhile_cons_of_neg (by simp [hc])]
  rw [readRawMailboxes, found]
  simp only [Option.bind_eq_bind, Option.bind_some, List.isEmpty_cons, Bool.false_eq_true,
    ↓reduceIte, hstay, hdrop]
  cases readRawMailboxes bound (c :: rest) <;> rfl

/-- A shown list is read member by member. -/
theorem readRawMailboxes_showMailboxes [InternationalDomains]
    {mailboxes : List Mailbox} (filled : mailboxes ≠ [])
    (readable : ∀ mailbox ∈ mailboxes, mailbox.IsReadable) {bound : Nat}
    (hbound : mailboxes.length ≤ bound) :
    ∃ raws, readRawMailboxes bound (showMailboxes mailboxes) = some raws ∧
      List.Forall₂ ReadsAs mailboxes raws := by
  induction mailboxes generalizing bound with
  | nil => exact absurd rfl filled
  | cons mailbox others ih =>
      rw [List.length_cons] at hbound
      obtain ⟨bound, rfl⟩ : ∃ n, bound = n + 1 := ⟨bound - 1, by omega⟩
      have hmailbox := readable mailbox (by simp)
      have readableOthers : ∀ other ∈ others, other.IsReadable := fun other hother =>
        readable other (List.mem_cons_of_mem _ hother)
      by_cases hothers : others = []
      · have hend : ∀ c ∈ ([] : List Char).head?, c = ',' := by simp
        obtain ⟨raw, hraw, reads⟩ := readRawMailbox_text hmailbox hend
        rw [List.append_nil] at hraw
        subst hothers
        refine ⟨[raw], ?_, .cons reads .nil⟩
        rw [showMailboxes_singleton, readRawMailboxes, hraw]
        rfl
      · obtain ⟨raws, hraws, readsOthers⟩ :=
          ih hothers readableOthers (Nat.le_of_succ_le_succ hbound)
        obtain ⟨c, rest, hshown, hc⟩ := exists_cons_showMailboxes hothers readableOthers
        have hcomma : ∀ d ∈ (',' :: ' ' :: c :: rest).head?, d = ',' := by
          rintro d ⟨rfl⟩
          rfl
        obtain ⟨raw, hraw, reads⟩ := readRawMailbox_text hmailbox hcomma
        refine ⟨raw :: raws, ?_, .cons reads readsOthers⟩
        rw [showMailboxes_cons hothers, hshown, readRawMailboxes_of_comma hraw hc, ← hshown, hraws,
          Option.map_some]

theorem length_le_length_showMailboxes [InternationalDomains] {mailboxes : List Mailbox}
    (readable : ∀ mailbox ∈ mailboxes, mailbox.IsReadable) :
    mailboxes.length ≤ (showMailboxes mailboxes).length := by
  induction mailboxes with
  | nil => exact Nat.zero_le _
  | cons mailbox others ih =>
      have hrest := ih fun other hother => readable other (List.mem_cons_of_mem _ hother)
      by_cases hothers : others = []
      · subst hothers
        obtain ⟨c, rest, hshown, -⟩ := exists_cons_showMailboxes (by simp) readable
        rw [hshown]
        simp
      · rw [showMailboxes_cons hothers, List.length_append, List.length_cons, List.length_cons,
          List.length_cons]
        omega

/-- Reading a shown list checks one address for each of its members. -/
theorem readMailboxes_showMailboxes [InternationalDomains] {mailboxes : List Mailbox}
    (readable : ∀ mailbox ∈ mailboxes, mailbox.IsReadable) :
    ∃ raws, List.Forall₂ ReadsAs mailboxes raws ∧
      readMailboxes (showMailboxes mailboxes) = raws.mapM RawMailbox.check := by
  by_cases hfilled : mailboxes = []
  · subst hfilled
    exact ⟨[], .nil, rfl⟩
  · obtain ⟨raws, hraws, reads⟩ := readRawMailboxes_showMailboxes hfilled readable
      (length_le_length_showMailboxes readable)
    obtain ⟨c, rest, hshown, -⟩ := exists_cons_showMailboxes hfilled readable
    refine ⟨raws, reads, ?_⟩
    have hnonempty : (showMailboxes mailboxes).isEmpty = false := by
      rw [hshown]
      rfl
    rw [readMailboxes, hnonempty, hraws]
    rfl

/-! ## What reading a list gives -/

theorem isReadable_of_readRawMailbox {text rest : List Char} {raw : RawMailbox}
    (found : readRawMailbox text = some (raw, rest)) :
    (∀ c ∈ raw.name.getD [], IsNameContent c) ∧ IsDotAtom raw.domain := by
  have hdomain {text rest : List Char} {user domain : List Char}
      (haddress : readAddress text = some ((user, domain), rest)) : IsDotAtom domain := by
    simp only [readAddress, Option.bind_eq_bind, Option.bind_eq_some_iff] at haddress
    obtain ⟨⟨user, behind⟩, -, haddress⟩ := haddress
    simp only at haddress
    split at haddress
    · obtain ⟨⟨domain, behind⟩, hdot, heq⟩ := Option.bind_eq_some_iff.1 haddress
      cases heq
      exact isDotAtom_of_readDotAtom hdot
    · cases haddress
  simp only [readRawMailbox, Option.or_eq_some_iff, Option.bind_eq_bind,
    Option.bind_eq_some_iff] at found
  rcases found with ⟨⟨⟨user, domain⟩, behind⟩, hangle, heq⟩ |
    ⟨-, ⟨⟨user, domain⟩, behind⟩, haddress, heq⟩
  · cases heq
    constructor
    · split
      · next name behind hname => exact isNameContent_of_readName hname
      · simp
    · unfold readAngleAddress at hangle
      split at hangle
      · obtain ⟨⟨⟨user, domain⟩, behind⟩, haddress, heq⟩ := Option.bind_eq_some_iff.1 hangle
        simp only at heq
        split at heq
        · cases heq
          exact hdomain haddress
        · cases heq
      · cases hangle
  · cases heq
    exact ⟨by simp, hdomain haddress⟩

theorem isReadable_of_readRawMailboxes {bound : Nat} {text : List Char} {raws : List RawMailbox}
    (found : readRawMailboxes bound text = some raws) :
    ∀ raw ∈ raws, (∀ c ∈ raw.name.getD [], IsNameContent c) ∧ IsDotAtom raw.domain := by
  induction bound generalizing text raws with
  | zero => cases found
  | succ bound ih =>
      simp only [readRawMailboxes, Option.bind_eq_bind, Option.bind_eq_some_iff] at found
      obtain ⟨⟨raw, rest⟩, hraw, found⟩ := found
      have hfirst := isReadable_of_readRawMailbox hraw
      simp only at found
      split at found
      · cases found
        simpa using hfirst
      · split at found
        · obtain ⟨others, hothers, heq⟩ := Option.bind_eq_some_iff.1 found
          cases heq
          intro other hother
          rcases List.mem_cons.1 hother with rfl | hother
          · exact hfirst
          · exact ih hothers other hother
        · cases found

theorem RawMailbox.check_eq_ok_iff [InternationalDomains] {raw : RawMailbox} {mailbox : Mailbox} :
    raw.check = .ok mailbox ↔
      Address.of raw.user raw.domain = .ok mailbox.address ∧ raw.name = mailbox.name := by
  rw [RawMailbox.check, map_eq_ok_iff]
  constructor
  · rintro ⟨address, haddress, rfl⟩
    exact ⟨haddress, rfl⟩
  · rintro ⟨haddress, hname⟩
    exact ⟨mailbox.address, haddress, by rw [hname]⟩

/-- A mailbox that passes its check can be shown and read. -/
theorem RawMailbox.isReadable_of_check [InternationalDomains] {raw : RawMailbox} {mailbox : Mailbox}
    (written : (∀ c ∈ raw.name.getD [], IsNameContent c) ∧ IsDotAtom raw.domain)
    (checked : raw.check = .ok mailbox) : mailbox.IsReadable := by
  obtain ⟨haddress, hname⟩ := RawMailbox.check_eq_ok_iff.1 checked
  obtain ⟨-, -, hparts⟩ := Address.of_eq_ok_iff.1 haddress
  constructor
  · rw [← hname]
    exact written.1
  · rw [hparts] at haddress ⊢
    exact haddress
  · rw [hparts]
    exact written.2

/-- Reading gives mailboxes that can be shown and read. -/
theorem isReadable_of_readMailboxes [InternationalDomains]
    {text : List Char} {mailboxes : List Mailbox}
    (found : readMailboxes text = .ok mailboxes) :
    ∀ mailbox ∈ mailboxes, mailbox.IsReadable := by
  unfold readMailboxes at found
  split at found
  · cases found
    simp
  · split at found
    · next raws hraws =>
      intro mailbox hmailbox
      obtain ⟨raw, hraw, hcheck⟩ := exists_mem_of_mapM_eq_ok found hmailbox
      exact raw.isReadable_of_check (isReadable_of_readRawMailboxes hraws raw hraw) hcheck
    · cases found

theorem isReadable_of_readMailbox [InternationalDomains] {text : List Char} {mailbox : Mailbox}
    (found : readMailbox text = .ok mailbox) : mailbox.IsReadable := by
  unfold readMailbox at found
  split at found
  · next raw rest hraw =>
    split at found
    · exact raw.isReadable_of_check (isReadable_of_readRawMailbox hraw) found
    · cases found
  · cases found

end MailMerge.Mail
