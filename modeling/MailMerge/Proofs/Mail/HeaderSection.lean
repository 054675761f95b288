/-
# The header section of a mail

The text of a mail is read line by line up to the first empty line. A line that begins
with a space or a tab continues the field before it, and every other line begins a
field, whose name ends at the first colon. A value of which every line break stands
before a space begins no field of its own, so a mail made of such values shows exactly
the fields that it was given.
-/

import MailMerge.Mail.Basic
import MailMerge.Proofs.Text.Lines

namespace MailMerge.Mail

open MailMerge.Text

/-! ## Reading a header section -/

/-- The lines of a text on its way: a carriage return and a line feed end a line. -/
def wireLines : List Char → List (List Char)
  | [] => [[]]
  | '\r' :: '\n' :: rest => [] :: wireLines rest
  | c :: rest => (wireLines rest).modifyHead (c :: ·)

/-- A line begins a field unless it is empty or continues the field before it. -/
def beginsField (line : List Char) : Bool :=
  line.head?.any fun c => c != ' ' && c != '\t'

/-- The names of the fields in a row of lines. A reader may end a line at a lone carriage return or
line feed as well, so the lines are divided there once more. -/
def namesInLines (lines : List (List Char)) : List (List Char) :=
  ((lines.flatMap fun line => partsAt '\n' (unifyLineEndings line)).filter beginsField).map
    (·.takeWhile (· != ':'))

/-- The names of the fields in the header section of a text, which ends at the first empty line. -/
def fieldNames (text : List Char) : List (List Char) :=
  namesInLines ((wireLines text).takeWhile fun line => !line.isEmpty)

/-! ## Folded texts -/

/-- A text of which every line break stands before a space. -/
inductive IsFolded : List Char → Prop where
  | nil : IsFolded []
  | cons {c : Char} {rest : List Char} (plain : c ≠ '\r' ∧ c ≠ '\n') (folded : IsFolded rest) :
      IsFolded (c :: rest)
  | fold {rest : List Char} (folded : IsFolded rest) : IsFolded ('\r' :: '\n' :: ' ' :: rest)

theorem IsFolded.append {first second : List Char} (hfirst : IsFolded first)
    (hsecond : IsFolded second) : IsFolded (first ++ second) := by
  induction hfirst with
  | nil => exact hsecond
  | cons plain _ ih => exact .cons plain ih
  | fold _ ih => exact .fold ih

theorem isFolded_of_unbroken {text : List Char} (unbroken : Unbroken text) : IsFolded text := by
  induction text with
  | nil => exact .nil
  | cons c rest ih =>
      obtain ⟨plain, hrest⟩ := unbroken_cons.1 unbroken
      exact .cons plain (ih hrest)

/-! ## Lines of folded texts -/

theorem wireLines_cons {c : Char} (plain : c ≠ '\r') (rest : List Char) :
    wireLines (c :: rest) = (wireLines rest).modifyHead (c :: ·) := by
  rw [wireLines]
  intro _ heq
  exact absurd heq plain

theorem wireLines_lineBreak_append (rest : List Char) :
    wireLines (lineBreak ++ rest) = [] :: wireLines rest := by
  rw [lineBreak, List.cons_append, List.cons_append, List.nil_append, wireLines]

/-- A folded text ends its first line at its first break, and each other line of it begins with a
space. -/
theorem exists_wireLines_append {text : List Char} (folded : IsFolded text) (rest : List Char) :
    ∃ others, wireLines (text ++ lineBreak ++ rest) =
        text.takeWhile (· != '\r') :: others ++ wireLines rest ∧
      Unbroken (text.takeWhile (· != '\r')) ∧
      ∀ line ∈ others, Unbroken line ∧ line.head? = some ' ' := by
  -- Behind a fold the first line becomes one that continues the field.
  induction folded with
  | nil =>
      refine ⟨[], ?_, unbroken_nil, by simp⟩
      rw [List.nil_append, wireLines_lineBreak_append]
      rfl
  | @cons c text plain _ ih =>
      obtain ⟨others, hlines, hfirst, hothers⟩ := ih
      have hstay : (c :: text).takeWhile (· != '\r') = c :: text.takeWhile (· != '\r') :=
        List.takeWhile_cons_of_pos (bne_iff_ne.2 plain.1)
      rw [hstay]
      refine ⟨others, ?_, unbroken_cons.2 ⟨plain, hfirst⟩, hothers⟩
      rw [List.cons_append, List.cons_append, wireLines_cons plain.1, hlines]
      rfl
  | @fold text _ ih =>
      obtain ⟨others, hlines, hfirst, hothers⟩ := ih
      refine ⟨(' ' :: text.takeWhile (· != '\r')) :: others, ?_, unbroken_nil, ?_⟩
      · rw [List.cons_append, List.cons_append, List.cons_append, List.cons_append,
          List.cons_append, List.cons_append, wireLines, wireLines_cons (by decide), hlines]
        rfl
      · intro line hline
        rcases List.mem_cons.1 hline with rfl | hline
        · exact ⟨unbroken_cons.2 ⟨by decide, hfirst⟩, rfl⟩
        · exact hothers line hline

theorem namesInLines_append (first second : List (List Char)) :
    namesInLines (first ++ second) = namesInLines first ++ namesInLines second := by
  simp only [namesInLines, List.flatMap_append, List.filter_append, List.map_append]

theorem namesInLines_singleton {line : List Char} (unbroken : Unbroken line) :
    namesInLines [line] = if beginsField line then [line.takeWhile (· != ':')] else [] := by
  rw [namesInLines, List.flatMap_singleton, unifyLineEndings_eq_self unbroken.1,
    partsAt_of_not_mem unbroken.2, List.filter_cons, List.filter_nil]
  split <;> rfl

/-- Lines that continue a field hold no names. -/
theorem namesInLines_eq_nil {lines : List (List Char)}
    (continued : ∀ line ∈ lines, Unbroken line ∧ line.head? = some ' ') :
    namesInLines lines = [] := by
  induction lines with
  | nil => rfl
  | cons line lines ih =>
      obtain ⟨unbroken, hhead⟩ := continued line (by simp)
      rw [← List.singleton_append, namesInLines_append, namesInLines_singleton unbroken,
        ih fun other hother => continued other (List.mem_cons_of_mem _ hother), beginsField, hhead]
      rfl

/-! ## Fields -/

/-- A character that cannot stand in a name: it ends the name, the line or the field. -/
def isNameStop (c : Char) : Bool :=
  c == '\r' || c == '\n' || c == ' ' || c == '\t' || c == ':'

/-- A text that can stand before a colon as the name of a field. -/
structure IsPlainName (name : List Char) : Prop where
  filled : name ≠ []
  chars : ∀ c ∈ name, isNameStop c = false

theorem isPlainName_iff {name : List Char} :
    IsPlainName name ↔ (!name.isEmpty && name.all fun c => !isNameStop c) = true := by
  rw [Bool.and_eq_true, List.all_eq_true]
  refine ⟨fun plain => ⟨?_, ?_⟩, fun ⟨filled, chars⟩ => ⟨?_, ?_⟩⟩
  · simpa using plain.filled
  · exact fun c hc => by rw [plain.chars c hc, Bool.not_false]
  · simpa using filled
  · exact fun c hc => by simpa using chars c hc

instance (name : List Char) : Decidable (IsPlainName name) :=
  decidable_of_iff _ isPlainName_iff.symm

/-- A field of which the name is plain and the value is written folded. -/
structure Field.IsPlain (field : Field) : Prop where
  name : IsPlainName field.name.toList
  value : IsFolded field.writtenValue

theorem IsPlainName.unbroken {name : List Char} (plain : IsPlainName name) : Unbroken name := by
  rw [unbroken_iff]
  intro c hc
  have hchar := plain.chars c hc
  simp_all [isNameStop]

theorem fieldNames_lineBreak_append (rest : List Char) : fieldNames (lineBreak ++ rest) = [] := by
  rw [fieldNames, wireLines_lineBreak_append]
  rfl

/-- A field as it is written, without the break at its end. -/
def Field.folded (field : Field) : List Char :=
  field.name.toList ++ ':' :: ' ' :: field.writtenValue

theorem Field.write_eq (field : Field) : field.write = field.folded ++ lineBreak := rfl

/-- The line that a field begins. -/
def Field.firstLine (field : Field) : List Char :=
  field.name.toList ++ ':' :: ' ' :: field.writtenValue.takeWhile (· != '\r')

namespace Field.IsPlain

variable {field : Field}

theorem beginsField_firstLine (plain : field.IsPlain) : beginsField field.firstLine := by
  obtain ⟨c, others, hname⟩ := List.exists_cons_of_ne_nil plain.name.filled
  have hc := plain.name.chars c (by simp [hname])
  rw [Field.firstLine, hname]
  simp_all [beginsField, isNameStop]

theorem takeWhile_firstLine (plain : field.IsPlain) :
    field.firstLine.takeWhile (· != ':') = field.name.toList := by
  rw [Field.firstLine, List.takeWhile_append_of_pos, List.takeWhile_cons_of_neg (by decide),
    List.append_nil]
  intro c hc
  have hchar := plain.name.chars c hc
  simp_all [isNameStop]

theorem isFolded (plain : field.IsPlain) : IsFolded field.folded :=
  (isFolded_of_unbroken plain.name.unbroken).append
    (.cons (by decide) (.cons (by decide) plain.value))

theorem exists_wireLines_append (plain : field.IsPlain) (rest : List Char) :
    ∃ continued, wireLines (field.write ++ rest) =
        field.firstLine :: continued ++ wireLines rest ∧
      Unbroken field.firstLine ∧
      ∀ line ∈ continued, Unbroken line ∧ line.head? = some ' ' := by
  have hfirst : field.folded.takeWhile (· != '\r') = field.firstLine := by
    rw [Field.folded, List.takeWhile_append_of_pos, Field.firstLine]
    · rfl
    · exact fun c hc => bne_iff_ne.2 (unbroken_iff.1 plain.name.unbroken c hc).1
  rw [← hfirst]
  exact Mail.exists_wireLines_append plain.isFolded rest

/-- A field before a text adds its name to those of the text. -/
theorem fieldNames_append (plain : field.IsPlain) (rest : List Char) :
    fieldNames (field.write ++ rest) = field.name.toList :: fieldNames rest := by
  obtain ⟨continued, hlines, hfirst, hcontinued⟩ := plain.exists_wireLines_append rest
  have hkept : ∀ line ∈ field.firstLine :: continued, (!line.isEmpty) = true := by
    intro line hline
    have hhead : line.head?.isSome := by
      rcases List.mem_cons.1 hline with rfl | hline
      · exact Option.isSome_of_any plain.beginsField_firstLine
      · rw [(hcontinued line hline).2]
        rfl
    cases line with
    | nil => cases hhead
    | cons => rfl
  rw [fieldNames, hlines, List.takeWhile_append_of_pos hkept, namesInLines_append,
    ← List.singleton_append, namesInLines_append, namesInLines_singleton hfirst,
    if_pos plain.beginsField_firstLine, plain.takeWhile_firstLine,
    namesInLines_eq_nil hcontinued]
  rfl

end Field.IsPlain

/-- The header section of plain fields shows their names and no others. -/
theorem fieldNames_write {fields : Fields} (plain : ∀ field ∈ fields, field.IsPlain)
    (rest : List Char) :
    fieldNames (fields.write ++ lineBreak ++ rest) = fields.map fun field => field.name.toList := by
  induction fields with
  | nil => exact fieldNames_lineBreak_append rest
  | cons field fields ih =>
      have hwrite : Fields.write (field :: fields) ++ lineBreak ++ rest =
          field.write ++ (Fields.write fields ++ lineBreak ++ rest) := by
        simp only [Fields.write, List.flatMap_cons, List.append_assoc]
      rw [hwrite, (plain field (by simp)).fieldNames_append,
        ih fun other hother => plain other (List.mem_cons_of_mem _ hother), List.map_cons]

/-! ## Mails -/

/-- The fields that the body of a mail adds to its header section. -/
def bodyFields (mail : Mail) : Fields :=
  if mail.attachments.isEmpty then
    [.ofText "Content-Type" mail.body.mediaType.text,
      .ofText "Content-Transfer-Encoding" mail.body.content.encoding.name.toList]
  else
    [.ofText "Content-Type" ("multipart/mixed; boundary=\"".toList ++ mail.boundary ++ ['"'])]

theorem exists_eq_of_mem_bodyFields {mail : Mail} {field : Field}
    (hfield : field ∈ mail.bodyFields) :
    ∃ name ∈ ["Content-Type", "Content-Transfer-Encoding"], ∃ text,
      field = .ofText name text := by
  rw [bodyFields] at hfield
  split at hfield
  · rcases List.mem_cons.1 hfield with rfl | hfield
    · exact ⟨_, by simp, _, rfl⟩
    · rw [List.mem_singleton.1 hfield]
      exact ⟨_, by simp, _, rfl⟩
  · rw [List.mem_singleton.1 hfield]
    exact ⟨_, by simp, _, rfl⟩

/-- What a mail holds behind its header section. -/
def bodyText (mail : Mail) : List Char :=
  if mail.attachments.isEmpty then mail.body.content.travelling ++ lineBreak
  else
    (mail.body :: mail.attachments).flatMap
        (fun part => boundaryLine mail.boundary ++ lineBreak ++ part.write) ++
      boundaryLine mail.boundary ++ '-' :: '-' :: lineBreak

/-- A mail is made of its fields, those of its body, an empty line and the rest of its body. -/
theorem wire_eq {mail : Mail} (body : mail.body.fileName = none) :
    mail.wire =
      Fields.write (mail.fields ++ mail.bodyFields) ++ lineBreak ++ mail.bodyText := by
  rw [Mail.wire, bodyFields, bodyText]
  simp only [Fields.write, List.flatMap_append]
  split
  · rw [Part.write, Part.writeFields, body]
    simp [writeTextField, Field.write, Field.ofText, Field.writtenValue]
  · rw [writeParts]
    simp [writeTextField, Field.write, Field.ofText, Field.writtenValue]

/-- The header section of a mail of plain fields shows these and the fields of its body. -/
theorem fieldNames_wire {mail : Mail} (body : mail.body.fileName = none)
    (plain : ∀ field ∈ mail.fields ++ mail.bodyFields, field.IsPlain) :
    fieldNames mail.wire =
      (mail.fields ++ mail.bodyFields).map fun field => field.name.toList := by
  rw [wire_eq body, fieldNames_write plain]

end MailMerge.Mail
