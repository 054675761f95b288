/-
# Headers given in three forms

Headers are given as the lines of a block, as names with their values, or as the members of an
object. Whichever form it is, the names are set one after the other: a name stands where it was
first given and holds what it was last given. Lines that are no headers make no difference, and
neither does the way in which the text of an object is spelled.
-/

import MailMerge.Proofs.Message.Codec

namespace MailMerge.Message

open MailMerge.Json MailMerge.Stage MailMerge.Text

/-! ## Names and values -/

/-- The value of the last pair with a name. -/
def lastValue? (pairs : List (String × String)) (name : String) : Option String :=
  ((pairs.filter fun pair => pair.1 == name).getLast?).map Prod.snd

theorem lastValue?_append_singleton (pairs : List (String × String)) (pair : String × String)
    (name : String) :
    lastValue? (pairs ++ [pair]) name =
      if pair.1 = name then some pair.2 else lastValue? pairs name := by
  by_cases hname : pair.1 = name
  · simp [lastValue?, List.filter_append, hname]
  · simp [lastValue?, List.filter_append, hname]

/-- A name that is set holds the new value, and every other name holds what it held. -/
theorem lookup_setEntry (name value other : String) (entries : List (String × String)) :
    (setEntry name value entries).lookup other =
      if name = other then some value else entries.lookup other := by
  induction entries with
  | nil =>
      rw [setEntry, List.lookup_cons, List.lookup_nil]
      by_cases hname : name = other
      · simp [hname]
      · simp [hname, beq_false_of_ne (Ne.symm hname)]
  | cons entry rest ih =>
      obtain ⟨first, held⟩ := entry
      by_cases hfirst : first = name
      · rw [setEntry, if_pos hfirst, List.lookup_cons, List.lookup_cons, ← hfirst]
        by_cases hname : first = other
        · simp [hname]
        · simp [hname, beq_false_of_ne (Ne.symm hname)]
      · rw [setEntry, if_neg hfirst, List.lookup_cons, List.lookup_cons, ih]
        by_cases hother : first = other
        · have hname : ¬ name = other := fun heq => hfirst (hother.trans heq.symm)
          simp [hother, hname]
        · simp [beq_false_of_ne (Ne.symm hother)]

namespace Headers

theorem ofList_append_singleton (pairs : List (String × String)) (pair : String × String) :
    ofList (pairs ++ [pair]) = (ofList pairs).set pair.1 pair.2 := by
  rw [ofList, List.foldl_append]
  rfl

/-- The names of headers stand in the order in which they were first given. -/
theorem names_ofList (pairs : List (String × String)) :
    (ofList pairs).entries.map Prod.fst = (pairs.map Prod.fst).eraseDups := by
  induction pairs using List.reverseRecOn with
  | nil => rfl
  | append_singleton pairs pair ih =>
      rw [ofList_append_singleton, List.map_append, List.eraseDups_append, ← ih]
      show (setEntry pair.1 pair.2 (ofList pairs).entries).map Prod.fst = _
      rw [names_setEntry]
      have hknown : pair.1 ∈ (ofList pairs).entries.map Prod.fst ↔ pair.1 ∈ pairs.map Prod.fst := by
        rw [ih, List.mem_eraseDups]
      by_cases hname : pair.1 ∈ pairs.map Prod.fst
      · rw [if_pos (hknown.2 hname)]
        simp [List.removeAll, hname]
      · rw [if_neg fun hmem => hname (hknown.1 hmem)]
        simp [List.removeAll, hname, List.eraseDups_cons]

/-- A name holds what it was last given. -/
theorem get?_ofList (pairs : List (String × String)) (name : String) :
    (ofList pairs).get? name = lastValue? pairs name := by
  induction pairs using List.reverseRecOn with
  | nil => rfl
  | append_singleton pairs pair ih =>
      rw [ofList_append_singleton, lastValue?_append_singleton, ← ih]
      exact lookup_setEntry pair.1 pair.2 name (ofList pairs).entries

end Headers

/-! ## Lines -/

/-- A line has the shape of a header: it begins with a name and a colon. -/
def HasHeaderShape (line : List Char) : Prop :=
  ∃ name rest, name ≠ [] ∧ (∀ c ∈ name, isHeaderNameChar c) ∧ line = name ++ ':' :: rest

theorem HasHeaderShape.of_isPrefix {first second : List Char} (shaped : HasHeaderShape first)
    (begins : first <+: second) : HasHeaderShape second := by
  obtain ⟨name, rest, named, chars, rfl⟩ := shaped
  obtain ⟨more, rfl⟩ := begins
  exact ⟨name, rest ++ more, named, chars, by rw [List.append_assoc, List.cons_append]⟩

/-- A line gives a header just when it has the shape of one. -/
theorem headerLine?_eq_none_iff {line : List Char} :
    headerLine? line = none ↔ ¬ HasHeaderShape line := by
  constructor
  · rintro absent ⟨name, rest, named, chars, rfl⟩
    have hcolon : isHeaderNameChar ':' = false := by decide
    have hname : (name ++ ':' :: rest).takeWhile isHeaderNameChar = name := by
      rw [List.takeWhile_append_of_pos chars]
      simp [hcolon]
    have hrest : (name ++ ':' :: rest).dropWhile isHeaderNameChar = ':' :: rest := by
      rw [List.dropWhile_append_of_pos chars]
      simp [hcolon]
    simp [headerLine?, hname, hrest, named] at absent
  · intro shapeless
    unfold headerLine?
    split
    · next rest hrest =>
      have hline : line = line.takeWhile isHeaderNameChar ++ ':' :: rest := by
        rw [← hrest, List.takeWhile_append_dropWhile]
      by_cases hname : line.takeWhile isHeaderNameChar = []
      · simp [hname]
      · refine absurd ⟨_, rest, hname, fun c hc => ?_, hline⟩ shapeless
        exact List.all_eq_true.1 List.all_takeWhile c hc
    · rfl

instance (line : List Char) : Decidable (HasHeaderShape line) :=
  decidable_of_iff (headerLine? line).isSome
    (by rw [← Option.ne_none_iff_isSome, ne_eq, headerLine?_eq_none_iff, not_not])

/-- A row of a header block. -/
inductive Row where
  | header (name value : String)
  /-- A line that is no header. -/
  | note (line : List Char)

namespace Row

/-- The line of a row. -/
def write : Row → List Char
  | header name value => writeHeader (name, value)
  | note line => line

/-- The name and the value of a row. -/
def pair? : Row → Option (String × String)
  | header name value => some (name, value)
  | note _ => none

/-- A row that can stand in a block: a header that keeps to its line, or a line that cannot be
taken for a header. -/
def IsProper : Row → Prop
  | header name value => IsHeader (name, value)
  | note line => line ≠ [] ∧ '\n' ∉ line ∧ ¬ HasHeaderShape line

instance : (row : Row) → Decidable row.IsProper
  | header name value => inferInstanceAs (Decidable (IsHeader (name, value)))
  | note line => inferInstanceAs (Decidable (line ≠ [] ∧ '\n' ∉ line ∧ ¬ HasHeaderShape line))

variable {row : Row}

theorem IsProper.write_ne_nil (proper : row.IsProper) : row.write ≠ [] := by
  cases row with
  | header name value => simp [write, writeHeader]
  | note line => exact proper.1

theorem IsProper.lineFeed_not_mem (proper : row.IsProper) : '\n' ∉ row.write := by
  cases row with
  | header name value => simp [write, writeHeader, IsHeader.oneLine_name proper |>.2,
      IsHeader.oneLine proper |>.2]
  | note line => exact proper.2.1

theorem IsProper.headerLine?_write (proper : row.IsProper) : headerLine? row.write = row.pair? := by
  cases row with
  | header name value => exact headerLine?_writeHeader proper
  | note line => exact headerLine?_eq_none_iff.2 proper.2.2

/-- A row that loses its last carriage return gives the same header or none as before. -/
theorem IsProper.headerLine?_dropFinalReturn (proper : row.IsProper) :
    headerLine? (dropFinalReturn row.write) = row.pair? := by
  cases row with
  | header name value =>
      have hplain : '\r' ∉ (header name value).write := by
        simp [write, writeHeader, IsHeader.oneLine_name proper |>.1, IsHeader.oneLine proper |>.1]
      rw [dropFinalReturn_of_not_mem hplain]
      exact proper.headerLine?_write
  | note line =>
      apply headerLine?_eq_none_iff.2
      intro shaped
      exact proper.2.2 (shaped.of_isPrefix (dropFinalReturn_isPrefix line))

end Row

/-- The text of a block of rows. -/
def writeRows (rows : List Row) : List Char :=
  joinWith ['\n'] (rows.map Row.write)

/-- The names and values in a block of rows. -/
def pairsOf (rows : List Row) : List (String × String) :=
  rows.filterMap Row.pair?

/-- The headers of a block are those of its rows. -/
theorem Headers.ofBlock_writeRows {rows : List Row} (proper : ∀ row ∈ rows, row.IsProper) :
    ofBlock (writeRows rows) = ofList (pairsOf rows) := by
  rcases List.eq_nil_or_concat' rows with rfl | ⟨start, last, rfl⟩
  · rfl
  · have hlast := proper last (by simp)
    have hsingle : ∀ line ∈ start.map Row.write ++ [last.write], '\n' ∉ line := by
      intro line hline
      rw [← List.map_singleton, ← List.map_append] at hline
      obtain ⟨row, hrow, rfl⟩ := List.mem_map.1 hline
      exact (proper row hrow).lineFeed_not_mem
    have hstart : start.filterMap (headerLine? ∘ dropFinalReturn ∘ Row.write) =
        start.filterMap Row.pair? :=
      List.filterMap_congr fun row hrow =>
        (proper row (List.mem_append_left _ hrow)).headerLine?_dropFinalReturn
    rw [ofBlock, writeRows, pairsOf, List.map_append, List.map_singleton,
      lines_joinWith_concat hsingle hlast.write_ne_nil, List.filterMap_append,
      List.filterMap_append, List.map_map, List.filterMap_map, hstart]
    simp only [List.filterMap_cons, List.filterMap_nil, hlast.headerLine?_write]

/-! ## Objects -/

/-- The outline of an object of names and values, which may be given more than once. -/
def pairsOutline (pairs : List (String × String)) : Outline :=
  .object (pairs.map fun (name, value) => (some name, textOutline value)) .closed

/-- The text of an object of names and values, in their order. -/
def writePairs (pairs : List (String × String)) : List Char :=
  writeObject (pairs.map fun (name, value) => (name, writeString value))

theorem spells_writePairs (pairs : List (String × String)) :
    Spells (writePairs pairs) (pairsOutline pairs) := by
  apply spells_object
  rw [List.forall₂_map_left_iff, List.forall₂_map_right_iff, List.forall₂_same]
  exact fun pair _ => (spells_string pair.2).member pair.1

/-- An object of names and values is read by setting them in their order, however it is spelled. -/
theorem readDocument_readHeaders {pairs : List (String × String)} {text : String}
    (spelled : Document.of text = ⟨pairsOutline pairs, []⟩) :
    readDocument readHeaders text = .ok (Headers.ofList pairs) := by
  rw [readDocument, spelled, pairsOutline, readHeaders, readHeaderMembers_map]
  rfl

/-! ## The three forms agree -/

/-- Rows of a block, the pairs in these rows and an object of these pairs give the same headers.
Each name stands where it was first given and holds what it was last given, and the headers are
read back from their own text. -/
theorem Headers.forms_agree {rows : List Row} (proper : ∀ row ∈ rows, row.IsProper) :
    ofBlock (writeRows rows) = ofList (pairsOf rows) ∧
      readDocument readHeaders (String.ofList (writePairs (pairsOf rows))) =
        .ok (ofList (pairsOf rows)) ∧
      (∀ text, Document.of text = ⟨pairsOutline (pairsOf rows), []⟩ →
        readDocument readHeaders text = .ok (ofList (pairsOf rows))) ∧
      (ofList (pairsOf rows)).entries.map Prod.fst = ((pairsOf rows).map Prod.fst).eraseDups ∧
      (∀ name, (ofList (pairsOf rows)).get? name = lastValue? (pairsOf rows) name) ∧
      readDocument readHeaders (String.ofList (ofList (pairsOf rows)).write) =
        .ok (ofList (pairsOf rows)) := by
  have written (pairs : List (String × String)) :
      readDocument readHeaders (String.ofList (writePairs pairs)) = .ok (ofList pairs) :=
    readDocument_readHeaders (spells_writePairs pairs).document_of
  have again := written (ofList (pairsOf rows)).entries
  rw [ofList_entries] at again
  exact ⟨ofBlock_writeRows proper, written (pairsOf rows),
    fun text spelled => readDocument_readHeaders spelled, names_ofList (pairsOf rows),
    get?_ofList (pairsOf rows), again⟩

/-- A block with remarks, a name that comes again far below and a name outside ASCII. -/
def remarkedRows : List Row :=
  [.note "# sent on Monday\r".toList, .header "X-Tag" "a", .header "Größe" "ü: 1",
    .note ['\r'], .header "To" "", .note " X-Tag: c".toList, .header "X-Tag" "b: d"]

theorem Headers.forms_agree_remarkedRows :
    (∀ row ∈ remarkedRows, row.IsProper) ∧
      (ofBlock (writeRows remarkedRows)).entries =
        [("X-Tag", "b: d"), ("Größe", "ü: 1"), ("To", "")] ∧
      readDocument readHeaders (String.ofList (writePairs (pairsOf remarkedRows))) =
        .ok (ofBlock (writeRows remarkedRows)) ∧
      readDocument readHeaders (String.ofList (ofBlock (writeRows remarkedRows)).write) =
        .ok (ofBlock (writeRows remarkedRows)) := by
  have proper : ∀ row ∈ remarkedRows, row.IsProper := by decide +kernel
  obtain ⟨hblock, hobject, -, -, -, hback⟩ := forms_agree proper
  rw [hblock]
  exact ⟨proper, rfl, hobject, hback⟩

end MailMerge.Message
