/-
# The parts of a mail

What stands behind the header section of a mail with attachments is read line by line: a line that
begins with the boundary ends a part and begins the next, and the closing one ends the last. Each
part has a header section of its own, which tells its file name and how its content travels. As
long as no line of a part begins with the boundary, a reader finds exactly the parts that the mail
was made of, in their order, each with its file name and its bytes.
-/

import MailMerge.Proofs.Mail.Disposition

namespace MailMerge.Mail

open MailMerge.Text

/-! ## Reading -/

/-- What a reader finds in a part. -/
structure PartReading where
  /-- The file name, if the part has one. -/
  fileName : Option (List Char)
  bytes : List UInt8
  deriving DecidableEq, Repr

/-- The file name of a part and the bytes that travel in it. -/
def Part.reading (part : Part) : PartReading :=
  ⟨part.fileName, part.content.travellingBytes⟩

/-- The text behind a name in a row of lines, by the name in any letter case. -/
def textInLines? (name : String) (lines : List (List Char)) : Option (List Char) :=
  (lines.find? fun line =>
    sameIgnoringCase (String.ofList (line.takeWhile (· != ':'))) name).map
      fun line => (line.dropWhile (· != ':')).drop 2

/-- The text of a field in a header section. -/
def fieldText? (name : String) (header : List Char) : Option (List Char) :=
  textInLines? name (fieldLines header)

/-- The encoding of a name. -/
def TransferEncoding.ofName? (name : List Char) : Option TransferEncoding :=
  [.sevenBit, .quotedPrintable, .base64].find? fun encoding =>
    sameIgnoringCase encoding.name (String.ofList name)

/-- Read a part: its header section, and its content behind the first empty line. -/
def readPart? (text : List Char) : Option PartReading := do
  let (header, content) ← splitHeaderSection text
  let encoding ← (fieldText? "Content-Transfer-Encoding" header).bind TransferEncoding.ofName?
  let bytes ← encoding.undo content
  return ⟨(fieldText? "Content-Disposition" header).bind dispositionName?, bytes⟩

/-- The texts between the lines that begin with a boundary, up to the one that closes. -/
def partTexts (boundary text : List Char) : List (List Char) :=
  let lines := (wireLines text).takeWhile fun line =>
    !(boundaryLine boundary ++ ['-', '-']).isPrefixOf line
  ((lines.splitOnP (boundaryLine boundary).isPrefixOf).drop 1).map (joinWith lineBreak)

/-- Read the parts of a text with a boundary between them. -/
def readParts? (boundary text : List Char) : Option (List PartReading) :=
  (partTexts boundary text).mapM readPart?

/-! ## Lines -/

/-- The lines of a text joined again are the text. -/
theorem joinWith_wireLines (text : List Char) : joinWith lineBreak (wireLines text) = text := by
  fun_induction wireLines text with
  | case1 => rfl
  | case2 text ih =>
      rw [joinWith, ih]
      · rfl
      · exact wireLines_ne_nil text
  | case3 c text whole ih =>
      obtain ⟨line, lines, hlines⟩ := List.exists_cons_of_ne_nil (wireLines_ne_nil text)
      rw [hlines, List.modifyHead_cons, joinWith_cons_cons, ← hlines, ih]

/-! ## Boundaries between texts -/

/-- Between marks stand the members that were put there. -/
theorem splitOnP_append_flatMap {α : Type} {p : α → Bool} {mark : α} (hmark : p mark)
    {first : List α} (hfirst : ∀ member ∈ first, p member = false) {parts : List (List α)}
    (hparts : ∀ part ∈ parts, ∀ member ∈ part, p member = false) :
    (first ++ parts.flatMap (mark :: ·)).splitOnP p = first :: parts := by
  induction parts generalizing first with
  | nil =>
      rw [List.flatMap_nil, List.append_nil]
      exact List.splitOnP_eq_singleton hfirst
  | cons part parts ih =>
      rw [List.flatMap_cons, List.cons_append,
        List.splitOnP_append_cons_of_forall_mem hfirst mark hmark,
        ih (hparts part (by simp)) fun other hother => hparts other (List.mem_cons_of_mem _ hother)]

/-- Texts with a boundary before each of them and one that closes the last. -/
def dividedText (boundary : List Char) (texts : List (List Char)) : List Char :=
  texts.flatMap (fun text => boundaryLine boundary ++ lineBreak ++ text ++ lineBreak) ++
    boundaryLine boundary ++ '-' :: '-' :: lineBreak

/-- Texts can be told apart by a boundary: it is on one line, and no line of a text begins with
it. -/
structure Divides (boundary : List Char) (texts : List (List Char)) : Prop where
  unbroken : Unbroken boundary
  fresh : ∀ text ∈ texts, ∀ line ∈ wireLines text, ¬ boundaryLine boundary <+: line

instance (boundary : List Char) (texts : List (List Char)) : Decidable (Divides boundary texts) :=
  decidable_of_iff
    (Unbroken boundary ∧ ∀ text ∈ texts, ∀ line ∈ wireLines text,
      ¬ boundaryLine boundary <+: line)
    ⟨fun ⟨unbroken, fresh⟩ => ⟨unbroken, fresh⟩, fun divides => ⟨divides.unbroken, divides.fresh⟩⟩

theorem unbroken_boundaryLine {boundary : List Char} (unbroken : Unbroken boundary) :
    Unbroken (boundaryLine boundary) :=
  unbroken_cons.2 ⟨by decide, unbroken_cons.2 ⟨by decide, unbroken⟩⟩

/-- The lines of a divided text: those of each text behind a boundary, and the closing one. -/
theorem wireLines_dividedText {boundary : List Char} (unbroken : Unbroken boundary)
    (texts : List (List Char)) :
    wireLines (dividedText boundary texts) =
      (texts.map wireLines).flatMap (boundaryLine boundary :: ·) ++
        [boundaryLine boundary ++ ['-', '-'], []] := by
  rw [dividedText, List.append_assoc]
  induction texts with
  | nil =>
      have hline : Unbroken (boundaryLine boundary ++ ['-', '-']) :=
        unbroken_append.2 ⟨unbroken_boundaryLine unbroken, by decide⟩
      have hclosing := wireLines_append_lineBreak (boundaryLine boundary ++ ['-', '-']) []
      rw [wireLines_of_unbroken hline, List.append_nil, List.append_assoc] at hclosing
      exact hclosing
  | cons text texts ih =>
      have hline := wireLines_of_unbroken (unbroken_boundaryLine unbroken)
      rw [List.flatMap_cons, List.map_cons, List.flatMap_cons, List.append_assoc,
        List.append_assoc, List.append_assoc, List.append_assoc, wireLines_append_lineBreak, hline,
        wireLines_append_lineBreak, ih, List.append_assoc]
      rfl

namespace Divides

variable {boundary : List Char} {texts : List (List Char)}

/-- The line that closes the texts is the first one of its kind. -/
theorem takeWhile_wireLines (divides : Divides boundary texts) :
    (wireLines (dividedText boundary texts)).takeWhile
        (fun line => !(boundaryLine boundary ++ ['-', '-']).isPrefixOf line) =
      (texts.map wireLines).flatMap (boundaryLine boundary :: ·) := by
  have hinside : ∀ line ∈ (texts.map wireLines).flatMap (boundaryLine boundary :: ·),
      (!(boundaryLine boundary ++ ['-', '-']).isPrefixOf line) = true := by
    intro line hline
    rw [Bool.not_eq_true', Bool.eq_false_iff, Ne, List.isPrefixOf_iff_prefix]
    intro hprefix
    obtain ⟨lines, hlines, hline⟩ := List.mem_flatMap.1 hline
    obtain ⟨text, htext, rfl⟩ := List.mem_map.1 hlines
    rcases List.mem_cons.1 hline with rfl | hline
    · have hlength := hprefix.length_le
      rw [List.length_append] at hlength
      exact absurd hlength (Nat.not_le.2 (Nat.lt_add_of_pos_right Nat.two_pos))
    · exact divides.fresh text htext line hline ((List.prefix_append _ _).trans hprefix)
  rw [wireLines_dividedText divides.unbroken, List.takeWhile_append_of_pos hinside,
    List.takeWhile_cons]
  simp

/-- Between the boundaries stand the lines of the texts. -/
theorem splitOnP_flatMap (divides : Divides boundary texts) :
    ((texts.map wireLines).flatMap (boundaryLine boundary :: ·)).splitOnP
      (boundaryLine boundary).isPrefixOf = [] :: texts.map wireLines := by
  have hmark : (boundaryLine boundary).isPrefixOf (boundaryLine boundary) := by simp
  have hfresh : ∀ lines ∈ texts.map wireLines, ∀ line ∈ lines,
      (boundaryLine boundary).isPrefixOf line = false := by
    intro lines hlines line hline
    obtain ⟨text, htext, rfl⟩ := List.mem_map.1 hlines
    rw [Bool.eq_false_iff, Ne, List.isPrefixOf_iff_prefix]
    exact divides.fresh text htext line hline
  exact splitOnP_append_flatMap hmark (List.forall_mem_nil _) hfresh

/-- A reader finds the texts between the boundaries. -/
theorem partTexts_dividedText (divides : Divides boundary texts) :
    partTexts boundary (dividedText boundary texts) = texts := by
  rw [partTexts, divides.takeWhile_wireLines, divides.splitOnP_flatMap, List.drop_one,
    List.tail_cons, List.map_map]
  apply List.map_id''
  exact joinWith_wireLines

end Divides

/-! ## The header section of a part -/

/-- A line with a name of its own gives the text behind this name and says nothing of others. -/
theorem textInLines?_cons {given : String} (plain : IsPlainName given.toList) (name : String)
    (text : List Char) (lines : List (List Char)) :
    textInLines? name ((given.toList ++ ':' :: ' ' :: text) :: lines) =
      if sameIgnoringCase given name then some text else textInLines? name lines := by
  have hchars : ∀ c ∈ given.toList, (c != ':') = true := by
    intro c hc
    have hchar := plain.chars c hc
    simp_all [isNameStop]
  have hname : String.ofList ((given.toList ++ ':' :: ' ' :: text).takeWhile (· != ':')) =
      given := by
    rw [List.takeWhile_append_of_pos hchars, List.takeWhile_cons_of_neg (by decide),
      List.append_nil, String.ofList_toList]
  have htext : ((given.toList ++ ':' :: ' ' :: text).dropWhile (· != ':')).drop 2 = text := by
    rw [List.dropWhile_append_of_pos hchars, List.dropWhile_cons_of_neg (by decide)]
    rfl
  rw [textInLines?, List.find?_cons, hname]
  cases sameIgnoringCase given name with
  | true => exact congrArg some htext
  | false => rfl

/-- The name of an encoding is read as this encoding. -/
theorem TransferEncoding.ofName?_name (encoding : TransferEncoding) :
    TransferEncoding.ofName? encoding.name.toList = some encoding := by
  cases encoding <;> decide

namespace Part

/-- A part without the line break at its end. -/
def text (part : Part) : List Char :=
  part.writeFields ++ lineBreak ++ part.content.travelling

theorem write_eq (part : Part) : part.write = part.text ++ lineBreak := rfl

/-- The fields that every part has. -/
def commonFields (part : Part) : Fields :=
  [.ofText "Content-Type" part.mediaType.text,
    .ofText "Content-Transfer-Encoding" part.content.encoding.name.toList]

theorem isPlain_commonFields (part : Part) : ∀ field ∈ part.commonFields, field.IsPlain := by
  intro field hfield
  rcases List.mem_pair.1 hfield with rfl | rfl
  · exact Field.isPlain_ofText (by decide) _
  · exact Field.isPlain_ofText (by decide) _

theorem write_commonFields (part : Part) :
    Fields.write part.commonFields = writeTextField "Content-Type" part.mediaType.text ++
      writeTextField "Content-Transfer-Encoding" part.content.encoding.name.toList := by
  rw [commonFields, Fields.write, List.flatMap_cons, List.flatMap_singleton]
  rfl

/-- The header section of a part has the fields that every part has and, before them, the
disposition of an attachment. -/
theorem exists_splitHeaderSection_text (part : Part) :
    ∃ header, splitHeaderSection part.text = some (header, part.content.travelling) ∧
      fieldLines header =
        (part.fileName.map fun name => "Content-Disposition".toList ++
          ':' :: ' ' :: unfolded (writeDisposition name)).toList ++
        part.commonFields.map Field.line := by
  have plain := part.isPlain_commonFields
  have nonempty : part.commonFields ≠ [] := List.cons_ne_nil _ _
  have hcommon : splitHeaderSection (part.commonFields.write ++ lineBreak ++
      part.content.travelling) = some (part.commonFields.folded, part.content.travelling) :=
    Fields.splitHeaderSection_write nonempty plain _
  have hlines : fieldLines part.commonFields.folded = part.commonFields.map Field.line :=
    Fields.fieldLines_folded nonempty plain
  -- A disposition is folded on its own and stands in front of the section of plain fields.
  unfold text writeFields
  rw [List.append_assoc _ (writeTextField _ _) (writeTextField _ _), ← write_commonFields]
  cases part.fileName with
  | none => exact ⟨part.commonFields.folded, hcommon, hlines⟩
  | some name =>
      have hname : Unbroken "Content-Disposition".toList := by decide
      have hline : IsFolded ("Content-Disposition".toList ++ ':' :: ' ' :: writeDisposition name) :=
        (isFolded_of_unbroken hname).append
          (.cons (by decide) (.cons (by decide) (isFolded_writeDisposition name)))
      have hunfolded : unfolded ("Content-Disposition".toList ++
          ':' :: ' ' :: writeDisposition name) =
          "Content-Disposition".toList ++ ':' :: ' ' :: unfolded (writeDisposition name) := by
        rw [unfolded_append hname, unfolded_cons (by decide), unfolded_cons (by decide)]
      have hfilled : (part.commonFields.write ++ lineBreak ++ part.content.travelling).head? ≠
          some '\r' := by
        rw [Fields.write_eq nonempty, List.append_assoc, List.append_assoc]
        exact Fields.head?_folded_append nonempty plain _
      have hsplit := splitHeaderSection_append_lineBreak hline hfilled hcommon
      have hread := fieldLines_append_lineBreak hline
        (Fields.isContinuation_head?_folded nonempty plain)
      rw [hlines, hunfolded] at hread
      refine ⟨_, ?_, hread⟩
      rw [← hsplit]
      simp only [writeField, List.append_assoc]

/-- The fields that every part has tell its type and its encoding, and nothing else. -/
theorem textInLines?_commonFields (part : Part) (name : String) :
    textInLines? name (part.commonFields.map Field.line) =
      if sameIgnoringCase "Content-Type" name then
        some (unfolded (Field.ofText "Content-Type" part.mediaType.text).writtenValue)
      else if sameIgnoringCase "Content-Transfer-Encoding" name then
        some part.content.encoding.name.toList
      else none := by
  have htype : IsPlainName "Content-Type".toList := by decide
  have hencoding : IsPlainName "Content-Transfer-Encoding".toList := by decide
  have hshort (encoding : TransferEncoding) : unfolded (Field.ofText
      "Content-Transfer-Encoding" encoding.name.toList).writtenValue = encoding.name.toList := by
    cases encoding <;> decide +kernel
  rw [commonFields, List.map_cons, List.map_singleton, Field.line, Field.line, hshort,
    Field.ofText, Field.ofText, textInLines?_cons htype, textInLines?_cons hencoding]
  rfl

/-- A reader finds the file name of a part and the bytes that travel in it. -/
theorem readPart?_text (part : Part) :
    readPart? part.text = some part.reading := by
  have hdisposition : IsPlainName "Content-Disposition".toList := by decide
  obtain ⟨header, hsplit, hlines⟩ := part.exists_splitHeaderSection_text
  have hname : (fieldText? "Content-Disposition" header).bind dispositionName? = part.fileName := by
    rw [fieldText?, hlines]
    cases part.fileName with
    | none =>
        have htype : sameIgnoringCase "Content-Type" "Content-Disposition" = false := by decide
        have hencoding : sameIgnoringCase "Content-Transfer-Encoding" "Content-Disposition" =
            false := by
          decide
        show (textInLines? _ (part.commonFields.map _)).bind _ = _
        rw [textInLines?_commonFields, htype, hencoding]
        rfl
    | some name =>
        have hself : sameIgnoringCase "Content-Disposition" "Content-Disposition" := by decide
        show (textInLines? _ (_ :: _)).bind _ = _
        rw [textInLines?_cons hdisposition, if_pos hself]
        exact dispositionName?_writeDisposition name
  have hundo : fieldText? "Content-Transfer-Encoding" header =
      some part.content.encoding.name.toList := by
    have htype : sameIgnoringCase "Content-Type" "Content-Transfer-Encoding" = false := by decide
    have hself : sameIgnoringCase "Content-Transfer-Encoding" "Content-Transfer-Encoding" := by
      decide
    have hcommon : textInLines? "Content-Transfer-Encoding" (part.commonFields.map Field.line) =
        some part.content.encoding.name.toList := by
      rw [textInLines?_commonFields, htype, if_neg Bool.false_ne_true, if_pos hself]
    rw [fieldText?, hlines]
    cases part.fileName with
    | none => exact hcommon
    | some name =>
        have hother : sameIgnoringCase "Content-Disposition" "Content-Transfer-Encoding" =
            false := by
          decide
        show textInLines? _ (_ :: part.commonFields.map _) = _
        rw [textInLines?_cons hdisposition, hother, if_neg Bool.false_ne_true, hcommon]
  simp only [readPart?, hsplit, hname, hundo, part.content.encoding.ofName?_name,
    part.content.undo_travelling, Option.bind_eq_bind, Option.bind_some]
  rfl

end Part

/-! ## Mails in parts -/

/-- The texts of the parts of a mail, the first of which is its body. -/
def texts (mail : Mail) : List (List Char) :=
  (mail.body :: mail.attachments).map Part.text

/-- Behind the header section of a mail with attachments stand the texts of its parts. -/
theorem bodyText_eq {mail : Mail} (filled : mail.attachments ≠ []) :
    mail.bodyText = dividedText mail.boundary mail.texts := by
  have hpart (part : Part) : boundaryLine mail.boundary ++ lineBreak ++ part.write =
      boundaryLine mail.boundary ++ lineBreak ++ part.text ++ lineBreak := by
    rw [Part.write_eq, ← List.append_assoc]
  rw [bodyText, List.isEmpty_eq_false_iff.2 filled, if_neg Bool.false_ne_true, dividedText, texts,
    List.flatMap_map]
  simp only [hpart]

/-- A mail with attachments is its header section, which tells the boundary, and the texts of its
parts. -/
theorem wire_eq_dividedText {mail : Mail} (body : mail.body.fileName = none)
    (filled : mail.attachments ≠ []) :
    mail.wire = Fields.write (mail.fields ++ [.ofText "Content-Type"
      ("multipart/mixed; boundary=\"".toList ++ mail.boundary ++ ['"'])]) ++ lineBreak ++
        dividedText mail.boundary mail.texts := by
  have hfields : mail.bodyFields = [.ofText "Content-Type"
      ("multipart/mixed; boundary=\"".toList ++ mail.boundary ++ ['"'])] :=
    if_neg (by simpa using filled)
  rw [wire_eq body, hfields, bodyText_eq filled]

/-- A reader finds the parts that were written, in order and nothing else. -/
theorem readParts?_dividedText {mail : Mail} (divides : Divides mail.boundary mail.texts) :
    readParts? mail.boundary (dividedText mail.boundary mail.texts) =
      some ((mail.body :: mail.attachments).map Part.reading) := by
  rw [readParts?, divides.partTexts_dividedText, texts]
  generalize mail.body :: mail.attachments = parts
  induction parts with
  | nil => rfl
  | cons part parts ih =>
      rw [List.map_cons, List.mapM_cons, part.readPart?_text, ih]
      rfl

theorem map_readPart?_texts (mail : Mail) :
    mail.texts.map readPart? = ((mail.body :: mail.attachments).map Part.reading).map some := by
  rw [texts, List.map_map, List.map_map]
  apply List.map_congr_left
  intro part _
  exact part.readPart?_text

end MailMerge.Mail
