/-
# Laws of message headers

A header block and the headers read from it. Every header that is read has a name
of header characters and a value that begins with no blank and stays on its line;
such a header, written on a line, reads back as itself. Headers are looked up by
exact name, so that the entries alone decide what a name holds.
-/

import Mathlib.Data.List.DropRight
import MailMerge.Message.Headers
import MailMerge.Proofs.Text.Lines

namespace MailMerge.Message

open MailMerge.Text

/-- A text without line breaks of either kind. -/
def OneLine (text : String) : Prop :=
  '\r' ∉ text.toList ∧ '\n' ∉ text.toList

/-- A header that can stand on a line of its own and be read from it. -/
structure IsHeader (entry : String × String) : Prop where
  named : entry.1.toList ≠ []
  nameChars : ∀ c ∈ entry.1.toList, isHeaderNameChar c
  trimmed : trimLeft entry.2.toList = entry.2.toList
  oneLine : OneLine entry.2

instance (text : String) : Decidable (OneLine text) :=
  inferInstanceAs (Decidable (_ ∧ _))

instance (entry : String × String) : Decidable (IsHeader entry) :=
  decidable_of_iff (entry.1.toList ≠ [] ∧ entry.1.toList.all isHeaderNameChar ∧
      trimLeft entry.2.toList = entry.2.toList ∧ OneLine entry.2)
    ⟨fun ⟨named, nameChars, trimmed, oneLine⟩ =>
        ⟨named, List.all_eq_true.1 nameChars, trimmed, oneLine⟩,
      fun proper =>
        ⟨proper.named, List.all_eq_true.2 proper.nameChars, proper.trimmed, proper.oneLine⟩⟩

/-- The line of a header. -/
def writeHeader (entry : String × String) : List Char :=
  entry.1.toList ++ ':' :: ' ' :: entry.2.toList

/-! ## One header -/

/-- No line break is a header character. -/
theorem IsHeader.oneLine_name {entry : String × String} (proper : IsHeader entry) :
    OneLine entry.1 := by
  constructor
  · exact fun hmem => absurd (proper.nameChars _ hmem) (by decide)
  · exact fun hmem => absurd (proper.nameChars _ hmem) (by decide)

/-- The lines of headers are not empty and hold no line break. -/
theorem forall_mem_map_writeHeader {pairs : List (String × String)}
    (proper : ∀ pair ∈ pairs, IsHeader pair) :
    ∀ row ∈ pairs.map writeHeader, row ≠ [] ∧ '\r' ∉ row ∧ '\n' ∉ row := by
  intro row hrow
  obtain ⟨pair, hpair, rfl⟩ := List.mem_map.1 hrow
  have hpair := proper pair hpair
  refine ⟨by simp [writeHeader], ?_, ?_⟩
  · simp [writeHeader, hpair.oneLine_name.1, hpair.oneLine.1]
  · simp [writeHeader, hpair.oneLine_name.2, hpair.oneLine.2]

/-- A header reads back from its line. -/
theorem headerLine?_writeHeader {entry : String × String} (proper : IsHeader entry) :
    headerLine? (writeHeader entry) = some entry := by
  have hcolon : isHeaderNameChar ':' = false := by decide
  have hname : (writeHeader entry).takeWhile isHeaderNameChar = entry.1.toList := by
    rw [writeHeader, List.takeWhile_append_of_pos proper.nameChars]
    simp [hcolon]
  have hrest : (writeHeader entry).dropWhile isHeaderNameChar = ':' :: ' ' :: entry.2.toList := by
    rw [writeHeader, List.dropWhile_append_of_pos proper.nameChars]
    simp [hcolon]
  have hvalue : trimLeft (' ' :: entry.2.toList) = entry.2.toList := proper.trimmed
  have hfilled : entry.1.toList.isEmpty = false := by simpa using proper.named
  simp only [headerLine?, hname, hrest, hvalue, hfilled, Bool.false_eq_true, ↓reduceIte,
    String.ofList_toList]

/-- What a line gives is a header, when the line has no line break. -/
theorem isHeader_of_headerLine? {line : List Char} {entry : String × String}
    (plain : '\r' ∉ line) (single : '\n' ∉ line) (hline : headerLine? line = some entry) :
    IsHeader entry := by
  unfold headerLine? at hline
  split at hline
  · next rest hrest =>
    dsimp only at hline
    split at hline
    · cases hline
    · next hfilled =>
      cases hline
      have hsubset : trimLeft rest ⊆ line := fun c hc =>
        (List.dropWhile_sublist isHeaderNameChar).subset
          (hrest ▸ List.mem_cons_of_mem _ ((List.dropWhile_sublist isBlank).subset hc))
      constructor
      · simpa using hfilled
      · intro c hc
        rw [String.toList_ofList] at hc
        exact List.all_eq_true.1 List.all_takeWhile c hc
      · rw [String.toList_ofList]
        exact List.dropWhile_idempotent isBlank rest
      · unfold OneLine
        rw [String.toList_ofList]
        exact ⟨fun hmem => plain (hsubset hmem), fun hmem => single (hsubset hmem)⟩
  · cases hline

/-! ## Entries -/

theorem setEntry_of_not_mem {name value : String} {entries : List (String × String)}
    (absent : name ∉ entries.map Prod.fst) :
    setEntry name value entries = entries ++ [(name, value)] := by
  induction entries with
  | nil => rfl
  | cons entry rest ih =>
      rw [List.map_cons, List.mem_cons, not_or] at absent
      rw [setEntry, if_neg (Ne.symm absent.1), ih absent.2, List.cons_append]

/-- What holds of all entries and of the new one holds after it is set. -/
theorem forall_mem_setEntry {P : String × String → Prop} {name value : String}
    {entries : List (String × String)} (held : ∀ entry ∈ entries, P entry)
    (new : P (name, value)) : ∀ entry ∈ setEntry name value entries, P entry := by
  induction entries with
  | nil => simpa [setEntry] using new
  | cons first rest ih =>
      have hfirst : P first := held first (by simp)
      have hrest := ih fun entry hentry => held entry (List.mem_cons_of_mem _ hentry)
      rw [setEntry]
      split
      · next heq =>
        subst heq
        exact List.forall_mem_cons.2
          ⟨new, fun entry hentry => held entry (List.mem_cons_of_mem _ hentry)⟩
      · exact List.forall_mem_cons.2 ⟨hfirst, hrest⟩

namespace Headers

theorem foldl_set_of_nodup (pairs : List (String × String)) (headers : Headers)
    (distinct : ((headers.entries ++ pairs).map Prod.fst).Nodup) :
    (pairs.foldl (fun headers (name, value) => headers.set name value) headers).entries =
      headers.entries ++ pairs := by
  induction pairs generalizing headers with
  | nil => simp
  | cons pair pairs ih =>
      have habsent : pair.1 ∉ headers.entries.map Prod.fst := by
        intro hmem
        rw [List.map_append, List.nodup_append] at distinct
        exact distinct.2.2 _ hmem pair.1 (by simp) rfl
      have hset : (headers.set pair.1 pair.2).entries = headers.entries ++ [pair] :=
        setEntry_of_not_mem habsent
      rw [List.foldl_cons, ih, hset, List.append_assoc, List.singleton_append]
      rwa [hset, List.append_assoc, List.singleton_append]

/-- Pairs with distinct names are the entries they give. -/
theorem entries_ofList {pairs : List (String × String)} (distinct : (pairs.map Prod.fst).Nodup) :
    (ofList pairs).entries = pairs := by
  simpa [ofList, empty] using foldl_set_of_nodup pairs empty (by simpa [empty] using distinct)

/-- Headers are given by their own entries. -/
theorem ofList_entries (headers : Headers) : ofList headers.entries = headers := by
  have hentries := entries_ofList headers.distinct
  generalize ofList headers.entries = given at hentries ⊢
  cases given
  cases headers
  cases hentries
  rfl

/-- What holds of all pairs holds of the entries they give. -/
theorem forall_mem_ofList {P : String × String → Prop} {pairs : List (String × String)}
    (held : ∀ pair ∈ pairs, P pair) : ∀ entry ∈ (ofList pairs).entries, P entry := by
  suffices general : ∀ headers : Headers, (∀ entry ∈ headers.entries, P entry) →
      ∀ entry ∈ (pairs.foldl (fun headers (name, value) => headers.set name value)
        headers).entries, P entry by
    exact general empty fun entry hentry => absurd hentry List.not_mem_nil
  induction pairs with
  | nil => exact fun headers hheaders => hheaders
  | cons pair pairs ih =>
      intro headers hheaders
      exact ih (fun other hother => held other (List.mem_cons_of_mem _ hother)) _
        (forall_mem_setEntry hheaders (held pair (by simp)))

/-- A name holds the value that stands beside it. -/
theorem get?_eq_some_iff {headers : Headers} {name value : String} :
    headers.get? name = some value ↔ (name, value) ∈ headers.entries := by
  obtain ⟨entries, distinct⟩ := headers
  unfold get?
  induction entries with
  | nil => simp
  | cons entry rest ih =>
      obtain ⟨first, held⟩ := entry
      rw [List.map_cons, List.nodup_cons] at distinct
      by_cases heq : name = first
      · subst heq
        have habsent : (name, value) ∉ rest := fun hmem =>
          distinct.1 (List.mem_map.2 ⟨_, hmem, rfl⟩)
        simp [habsent, eq_comm]
      · have hne : (name == first) = false := by simpa using heq
        simpa [List.lookup_cons, hne, heq] using ih distinct.2

/-- A name is filled by a value that is not empty. -/
theorem filled?_eq_some_iff {headers : Headers} {name value : String} :
    headers.filled? name = some value ↔
      (name, value) ∈ headers.entries ∧ value.isEmpty = false := by
  unfold filled?
  rw [Option.filter_eq_some_iff, get?_eq_some_iff]
  simp

/-- Every header of a block without carriage returns can stand on a line of its own. -/
theorem isHeader_of_mem_ofBlock {block : List Char} (plain : '\r' ∉ block) :
    ∀ entry ∈ (ofBlock block).entries, IsHeader entry := by
  apply forall_mem_ofList
  intro pair hpair
  obtain ⟨line, hline, hpair⟩ := List.mem_filterMap.1 hpair
  exact isHeader_of_headerLine? (fun hmem => plain (mem_of_mem_lines hline hmem))
    (lineFeed_not_mem_of_mem_lines hline) hpair

/-- Headers written one a line are the headers of the block. -/
theorem ofBlock_writeHeader {pairs : List (String × String)} (nonempty : pairs ≠ [])
    (proper : ∀ pair ∈ pairs, IsHeader pair) :
    ofBlock (joinWith ['\n'] (pairs.map writeHeader)) = ofList pairs := by
  have hrows := forall_mem_map_writeHeader proper
  have hlines : lines (joinWith ['\n'] (pairs.map writeHeader)) = pairs.map writeHeader :=
    lines_joinWith (by simpa using nonempty) (fun row hrow => (hrows row hrow).1)
      (fun row hrow => (hrows row hrow).2.1) (fun row hrow => (hrows row hrow).2.2)
  have hread : (pairs.map writeHeader).filterMap headerLine? = pairs := by
    rw [List.filterMap_map]
    calc
      pairs.filterMap (headerLine? ∘ writeHeader) = pairs.filterMap some :=
        List.filterMap_congr fun pair hpair => headerLine?_writeHeader (proper pair hpair)
      _ = pairs := List.filterMap_some
  rw [ofBlock, hlines, hread]

end Headers

end MailMerge.Message
