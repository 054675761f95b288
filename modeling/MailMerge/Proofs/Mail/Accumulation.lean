/-
# Fields that take mailboxes one by one

A field reads the mailboxes it holds again before it takes another one, and its
addresses are read once more for the envelope. Each reading keeps plain users and
shortens quoted ones. The number of characters in the users therefore tells whether
the addresses survive: they do exactly when no user is written in quotes.
-/

import Mathlib.Data.List.Induction
import MailMerge.Mail.Build
import MailMerge.Proofs.Mail.Mailbox

namespace MailMerge.Mail

open MailMerge.Stage

/-- The number of characters in the users of mailboxes. -/
def userLength (mailboxes : List Mailbox) : Nat :=
  (mailboxes.flatMap fun mailbox => mailbox.address.user).length

theorem userLength_append (first second : List Mailbox) :
    userLength (first ++ second) = userLength first + userLength second := by
  rw [userLength, List.flatMap_append, List.length_append]
  rfl

theorem userLength_cons (mailbox : Mailbox) (mailboxes : List Mailbox) :
    userLength (mailbox :: mailboxes) = mailbox.address.user.length + userLength mailboxes := by
  rw [userLength, List.flatMap_cons, List.length_append]
  rfl

theorem userLength_eq_of_map_address {first second : List Mailbox}
    (same : first.map Mailbox.address = second.map Mailbox.address) :
    userLength first = userLength second := by
  have hlength (mailboxes : List Mailbox) :
      userLength mailboxes = ((mailboxes.map Mailbox.address).flatMap Address.user).length := by
    rw [userLength, List.flatMap_map]
  rw [hlength, hlength, same]

variable [InternationalDomains]

/-- The mailboxes that are read where mailboxes are shown; none when they cannot be read. -/
def readAgain (mailboxes : List Mailbox) : List Mailbox :=
  (readMailboxes (showMailboxes mailboxes)).toOption.getD []

/-! ## One reading -/

/-- Plain addresses pass the check they passed before. -/
theorem exists_mapM_check_eq_ok {mailboxes : List Mailbox} {raws : List RawMailbox}
    (reads : List.Forall₂ ReadsAs mailboxes raws)
    (readable : ∀ mailbox ∈ mailboxes, mailbox.IsReadable)
    (plain : ∀ mailbox ∈ mailboxes, ¬ mailbox.address.IsQuoted) :
    ∃ again, raws.mapM RawMailbox.check = .ok again ∧
      again.map Mailbox.address = mailboxes.map Mailbox.address := by
  induction reads with
  | nil => exact ⟨[], rfl, rfl⟩
  | @cons mailbox raw mailboxes raws hread reads ih =>
      obtain ⟨again, hagain, hmap⟩ := ih
        (fun other hother => readable other (List.mem_cons_of_mem _ hother))
        (fun other hother => plain other (List.mem_cons_of_mem _ hother))
      have hcheck : raw.check = .ok ⟨raw.name, mailbox.address⟩ := by
        rw [RawMailbox.check_eq_ok_iff, hread.domain, hread.plain (plain mailbox (by simp))]
        exact ⟨(readable mailbox (by simp)).checked, rfl⟩
      refine ⟨⟨raw.name, mailbox.address⟩ :: again, ?_, ?_⟩
      · exact mapM_eq_ok_iff.2 (.cons hcheck (mapM_eq_ok_iff.1 hagain))
      · rw [List.map_cons, List.map_cons, hmap]

theorem userLength_le_of_reads {mailboxes again : List Mailbox} {raws : List RawMailbox}
    (reads : List.Forall₂ ReadsAs mailboxes raws)
    (checked : List.Forall₂ (fun raw mailbox => RawMailbox.check raw = .ok mailbox) raws again) :
    userLength again ≤ userLength mailboxes ∧
      ((∃ mailbox ∈ mailboxes, mailbox.address.IsQuoted) →
        userLength again < userLength mailboxes) := by
  induction reads generalizing again with
  | nil =>
      cases checked
      exact ⟨Nat.le_refl _, fun ⟨_, hmem, _⟩ => absurd hmem List.not_mem_nil⟩
  | @cons mailbox raw mailboxes raws hread reads ih =>
      rcases checked with _ | ⟨hcheck, checked⟩
      next checkedMailbox again =>
      obtain ⟨hle, hlt⟩ := ih checked
      obtain ⟨-, -, haddress⟩ := Address.of_eq_ok_iff.1 (RawMailbox.check_eq_ok_iff.1 hcheck).1
      have huser : checkedMailbox.address.user = raw.user := by rw [haddress]
      rw [userLength_cons, userLength_cons, huser]
      by_cases hquoted : mailbox.address.IsQuoted
      · have hshorter := hread.shorter hquoted
        exact ⟨by omega, fun _ => by omega⟩
      · rw [hread.plain hquoted]
        refine ⟨by omega, ?_⟩
        rintro ⟨other, hother, hotherQuoted⟩
        rcases List.mem_cons.1 hother with rfl | hother
        · exact absurd hotherQuoted hquoted
        · have hshorter := hlt ⟨other, hother, hotherQuoted⟩
          omega

section Readable

variable {mailboxes : List Mailbox} (readable : ∀ mailbox ∈ mailboxes, mailbox.IsReadable)

theorem isReadable_readAgain (mailboxes : List Mailbox) :
    ∀ mailbox ∈ readAgain mailboxes, mailbox.IsReadable := by
  rw [readAgain]
  cases hread : readMailboxes (showMailboxes mailboxes) with
  | error => simp [Except.toOption]
  | ok again => exact isReadable_of_readMailboxes hread

include readable

/-- Plain addresses are read again as they were. -/
theorem map_address_readAgain (plain : ∀ mailbox ∈ mailboxes, ¬ mailbox.address.IsQuoted) :
    (readAgain mailboxes).map Mailbox.address = mailboxes.map Mailbox.address := by
  obtain ⟨raws, reads, hread⟩ := readMailboxes_showMailboxes readable
  obtain ⟨again, hagain, hmap⟩ := exists_mapM_check_eq_ok reads readable plain
  rw [readAgain, hread, hagain]
  exact hmap

/-- Users do not get longer, and quoted ones get shorter or lost. -/
theorem userLength_readAgain :
    userLength (readAgain mailboxes) ≤ userLength mailboxes ∧
      ((∃ mailbox ∈ mailboxes, mailbox.address.IsQuoted) →
        userLength (readAgain mailboxes) < userLength mailboxes) := by
  obtain ⟨raws, reads, hread⟩ := readMailboxes_showMailboxes readable
  rw [readAgain, hread]
  cases hcheck : raws.mapM RawMailbox.check with
  | ok again => exact userLength_le_of_reads reads (mapM_eq_ok_iff.1 hcheck)
  | error fault =>
      refine ⟨Nat.zero_le _, ?_⟩
      rintro ⟨mailbox, hmailbox, hquoted⟩
      obtain ⟨others, huser⟩ := List.head?_eq_some_iff.1 hquoted
      obtain ⟨before, behind, rfl⟩ := List.append_of_mem hmailbox
      have hlength : 0 < userLength (mailbox :: behind) := by
        rw [userLength_cons, huser, List.length_cons]
        omega
      show 0 < userLength (before ++ mailbox :: behind)
      rw [userLength_append]
      omega

end Readable

/-! ## Taking mailboxes one by one -/

theorem accumulate_append (mailboxes : List Mailbox) (mailbox : Mailbox) :
    accumulate (mailboxes ++ [mailbox]) = readAgain (accumulate mailboxes) ++ [mailbox] := by
  rw [accumulate, List.foldl_append]
  rfl

section Accumulated

variable {mailboxes : List Mailbox} (readable : ∀ mailbox ∈ mailboxes, mailbox.IsReadable)

include readable

theorem isReadable_accumulate : ∀ mailbox ∈ accumulate mailboxes, mailbox.IsReadable := by
  -- A field grows at its end, so the list is taken apart from there.
  induction mailboxes using List.reverseRecOn with
  | nil => simp [accumulate]
  | append_singleton mailboxes mailbox _ =>
      rw [accumulate_append]
      intro other hother
      rcases List.mem_append.1 hother with hother | hother
      · exact isReadable_readAgain _ other hother
      · exact readable other (List.mem_append_right _ hother)

/-- The addresses that the envelope takes from a field are the plain addresses it was given. -/
theorem map_address_readAgain_accumulate
    (plain : ∀ mailbox ∈ mailboxes, ¬ mailbox.address.IsQuoted) :
    (readAgain (accumulate mailboxes)).map Mailbox.address = mailboxes.map Mailbox.address := by
  have hreadable := isReadable_accumulate readable
  induction mailboxes using List.reverseRecOn with
  | nil => rfl
  | append_singleton mailboxes mailbox ih =>
      have readableFirst : ∀ other ∈ mailboxes, other.IsReadable := fun other hother =>
        readable other (List.mem_append_left _ hother)
      have plainFirst : ∀ other ∈ mailboxes, ¬ other.address.IsQuoted := fun other hother =>
        plain other (List.mem_append_left _ hother)
      have hfirst := ih readableFirst plainFirst (isReadable_accumulate readableFirst)
      -- What is held before the last reading shows the given addresses already.
      have haddresses : (accumulate (mailboxes ++ [mailbox])).map Mailbox.address =
          (mailboxes ++ [mailbox]).map Mailbox.address := by
        rw [accumulate_append, List.map_append, List.map_append, hfirst]
      rw [map_address_readAgain hreadable, haddresses]
      intro other hother
      have haddress := List.mem_map_of_mem (f := Mailbox.address) hother
      rw [haddresses] at haddress
      obtain ⟨given, hgiven, heq⟩ := List.mem_map.1 haddress
      rw [← heq]
      exact plain given hgiven

theorem userLength_readAgain_accumulate :
    userLength (readAgain (accumulate mailboxes)) ≤ userLength mailboxes ∧
      ((∃ mailbox ∈ mailboxes, mailbox.address.IsQuoted) →
        userLength (readAgain (accumulate mailboxes)) < userLength mailboxes) := by
  have hreadable := isReadable_accumulate readable
  obtain ⟨hle, hlt⟩ := userLength_readAgain hreadable
  induction mailboxes using List.reverseRecOn with
  | nil => exact ⟨hle, fun ⟨_, hmem, _⟩ => absurd hmem List.not_mem_nil⟩
  | append_singleton mailboxes mailbox ih =>
      have readableFirst : ∀ other ∈ mailboxes, other.IsReadable := fun other hother =>
        readable other (List.mem_append_left _ hother)
      have hreadableFirst := isReadable_accumulate readableFirst
      obtain ⟨hleFirst, hltFirst⟩ := ih readableFirst hreadableFirst
        (userLength_readAgain hreadableFirst).1 (userLength_readAgain hreadableFirst).2
      rw [accumulate_append, userLength_append] at hle hlt
      rw [accumulate_append, userLength_append]
      refine ⟨by omega, ?_⟩
      rintro ⟨other, hother, hquoted⟩
      rcases List.mem_append.1 hother with hother | hother
      · have hshorter := hltFirst ⟨other, hother, hquoted⟩
        omega
      · have hshorter := hlt ⟨other, List.mem_append_right _ hother, hquoted⟩
        omega

end Accumulated

end MailMerge.Mail
