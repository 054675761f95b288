/-
# Unfolded header sections

A header section goes up to the first empty line, and a line of it that begins with a
space or a tab continues the line before. Joined again, the lines of folded fields are
one line a field, each with the name of its field, a colon and a value without breaks;
and behind the section stands just what was written behind the fields.
-/

import MailMerge.Proofs.Mail.HeaderSection

namespace MailMerge.Mail

open MailMerge.Text

/-! ## Reading -/

/-- Divide a text at its first empty line: its header section, and what stands behind it. -/
def splitHeaderSection : List Char → Option (List Char × List Char)
  | [] => none
  | '\r' :: '\n' :: '\r' :: '\n' :: rest => some ([], rest)
  | c :: rest => (splitHeaderSection rest).map fun (header, body) => (c :: header, body)

/-- A text with its continued lines joined: a line break before a space or a tab is taken out. -/
def unfolded : List Char → List Char
  | [] => []
  | '\r' :: '\n' :: ' ' :: rest => ' ' :: unfolded rest
  | '\r' :: '\n' :: '\t' :: rest => '\t' :: unfolded rest
  | c :: rest => c :: unfolded rest

/-- The lines of a header section, one a field. -/
def fieldLines (header : List Char) : List (List Char) :=
  wireLines (unfolded header)

/-! ## The end of the section -/

theorem splitHeaderSection_cons {c : Char} (plain : c ≠ '\r') (rest : List Char) :
    splitHeaderSection (c :: rest) =
      (splitHeaderSection rest).map fun (header, body) => (c :: header, body) := by
  rw [splitHeaderSection]
  intro _ heq
  exact absurd heq plain

/-- A line break ends no section unless another one follows at once. -/
theorem splitHeaderSection_lineBreak_append {rest : List Char} (filled : rest.head? ≠ some '\r') :
    splitHeaderSection (lineBreak ++ rest) =
      (splitHeaderSection rest).map fun (header, body) => (lineBreak ++ header, body) := by
  have hreturn : splitHeaderSection ('\r' :: '\n' :: rest) =
      (splitHeaderSection ('\n' :: rest)).map fun (header, body) => ('\r' :: header, body) := by
    rw [splitHeaderSection]
    rintro _ _ ⟨rfl⟩
    exact filled rfl
  rw [lineBreak, List.cons_append, List.cons_append, List.nil_append, hreturn,
    splitHeaderSection_cons (by decide), Option.map_map]
  rfl

theorem splitHeaderSection_append {text : List Char} (folded : IsFolded text)
    (rest : List Char) :
    splitHeaderSection (text ++ rest) =
      (splitHeaderSection rest).map fun (header, body) => (text ++ header, body) := by
  induction folded with
  | nil => simp
  | cons plain _ ih =>
      rw [List.cons_append, splitHeaderSection_cons plain.1, ih, Option.map_map]
      rfl
  | @fold text _ ih =>
      have hbreak := @splitHeaderSection_lineBreak_append (' ' :: (text ++ rest)) (by simp)
      rw [splitHeaderSection_cons (by decide), ih, Option.map_map, Option.map_map] at hbreak
      exact hbreak

/-! ## Continued lines -/

theorem unfolded_cons {c : Char} (plain : c ≠ '\r') (rest : List Char) :
    unfolded (c :: rest) = c :: unfolded rest := by
  rw [unfolded]
  · intro _ heq
    exact absurd heq plain
  · intro _ heq
    exact absurd heq plain

theorem unfolded_append {text : List Char} (unbroken : Unbroken text) (rest : List Char) :
    unfolded (text ++ rest) = text ++ unfolded rest := by
  induction text with
  | nil => rfl
  | cons c text ih =>
      obtain ⟨plain, htext⟩ := unbroken_cons.1 unbroken
      rw [List.cons_append, unfolded_cons plain.1, ih htext, List.cons_append]

theorem unfolded_eq_self {text : List Char} (unbroken : Unbroken text) : unfolded text = text := by
  have hnil : unfolded [] = [] := rfl
  have happend := unfolded_append unbroken []
  rwa [List.append_nil, hnil, List.append_nil] at happend

/-- A line break before a space is taken out. -/
theorem unfolded_fold (rest : List Char) :
    unfolded ('\r' :: '\n' :: ' ' :: rest) = ' ' :: unfolded rest := rfl

/-- A character that continues a line at the beginning of the next. -/
def isContinuation (c : Char) : Bool :=
  c == ' ' || c == '\t'

/-- A line break stays where no line is continued. -/
theorem unfolded_lineBreak_append {rest : List Char}
    (ended : ∀ c ∈ rest.head?, isContinuation c = false) :
    unfolded (lineBreak ++ rest) = lineBreak ++ unfolded rest := by
  have hreturn : unfolded ('\r' :: '\n' :: rest) = '\r' :: unfolded ('\n' :: rest) := by
    rw [unfolded]
    · rintro _ _ ⟨rfl⟩
      exact absurd (ended ' ' rfl) (by decide)
    · rintro _ _ ⟨rfl⟩
      exact absurd (ended '\t' rfl) (by decide)
  rw [lineBreak, List.cons_append, List.cons_append, List.nil_append, hreturn,
    unfolded_cons (by decide)]
  rfl

/-- A folded text is joined to one line, whatever line follows it. -/
theorem unfolded_append_lineBreak {text rest : List Char} (folded : IsFolded text)
    (ended : ∀ c ∈ rest.head?, isContinuation c = false) :
    unfolded (text ++ (lineBreak ++ rest)) = unfolded text ++ (lineBreak ++ unfolded rest) := by
  induction folded with
  | nil => exact unfolded_lineBreak_append ended
  | cons plain _ ih =>
      rw [List.cons_append, unfolded_cons plain.1, unfolded_cons plain.1, ih, List.cons_append]
  | fold _ ih =>
      rw [List.cons_append, List.cons_append, List.cons_append, unfolded_fold, unfolded_fold, ih,
        List.cons_append]

theorem unbroken_unfolded {text : List Char} (folded : IsFolded text) :
    Unbroken (unfolded text) := by
  induction folded with
  | nil => exact unbroken_nil
  | cons plain _ ih =>
      rw [unfolded_cons plain.1]
      exact unbroken_cons.2 ⟨plain, ih⟩
  | fold _ ih =>
      rw [unfolded_fold]
      exact unbroken_cons.2 ⟨by decide, ih⟩

/-! ## Lines -/

theorem wireLines_ne_nil (text : List Char) : wireLines text ≠ [] := by
  fun_induction wireLines text with
  | case1 => simp
  | case2 => simp
  | case3 c rest _ ih => simpa using ih

/-- A line break ends the lines of any text. -/
theorem wireLines_append_lineBreak (text rest : List Char) :
    wireLines (text ++ (lineBreak ++ rest)) = wireLines text ++ wireLines rest := by
  fun_induction wireLines text with
  | case1 => exact wireLines_lineBreak_append rest
  | case2 text ih =>
      rw [List.cons_append, List.cons_append, wireLines, ih]
      rfl
  | case3 c text whole ih =>
      obtain ⟨line, lines, hlines⟩ := List.exists_cons_of_ne_nil (wireLines_ne_nil text)
      rw [List.cons_append, wireLines, ih, hlines]
      · rfl
      · intro behind hc hbehind
        cases text with
        | nil => cases hbehind
        | cons d text =>
            cases hbehind
            exact whole text hc rfl

/-- An unbroken text is its only line. -/
theorem wireLines_of_unbroken {line : List Char} (unbroken : Unbroken line) :
    wireLines line = [line] := by
  induction line with
  | nil => rfl
  | cons c line ih =>
      obtain ⟨plain, hline⟩ := unbroken_cons.1 unbroken
      rw [wireLines_cons plain.1, ih hline, List.modifyHead_cons]

/-- A folded line in front of a header section is a line of it. -/
theorem splitHeaderSection_append_lineBreak {line rest header body : List Char}
    (folded : IsFolded line) (filled : rest.head? ≠ some '\r')
    (hrest : splitHeaderSection rest = some (header, body)) :
    splitHeaderSection (line ++ (lineBreak ++ rest)) =
      some (line ++ (lineBreak ++ header), body) := by
  rw [splitHeaderSection_append folded, splitHeaderSection_lineBreak_append filled, hrest]
  rfl

theorem fieldLines_append_lineBreak {line header : List Char} (folded : IsFolded line)
    (ended : ∀ c ∈ header.head?, isContinuation c = false) :
    fieldLines (line ++ (lineBreak ++ header)) = unfolded line :: fieldLines header := by
  rw [fieldLines, unfolded_append_lineBreak folded ended, wireLines_append_lineBreak,
    wireLines_of_unbroken (unbroken_unfolded folded)]
  rfl

/-! ## Fields -/

/-- A field on one line. -/
def Field.line (field : Field) : List Char :=
  field.name.toList ++ ':' :: ' ' :: unfolded field.writtenValue

namespace Field.IsPlain

variable {field : Field}

theorem unfolded_folded (plain : field.IsPlain) : unfolded field.folded = field.line := by
  rw [Field.folded, unfolded_append plain.name.unbroken, unfolded_cons (by decide),
    unfolded_cons (by decide), Field.line]

theorem unbroken_line (plain : field.IsPlain) : Unbroken field.line := by
  rw [← plain.unfolded_folded]
  exact unbroken_unfolded plain.isFolded

/-- A field begins with a character of its name. -/
theorem exists_folded_eq (plain : field.IsPlain) :
    ∃ c rest, field.folded = c :: rest ∧ isNameStop c = false := by
  obtain ⟨c, name, hname⟩ := List.exists_cons_of_ne_nil plain.name.filled
  refine ⟨c, name ++ ':' :: ' ' :: field.writtenValue, ?_, ?_⟩
  · rw [Field.folded, hname, List.cons_append]
  · exact plain.name.chars c (by simp [hname])

end Field.IsPlain

namespace Fields

/-- A header section as it is written, without the break at its end. -/
def folded (fields : Fields) : List Char :=
  joinWith lineBreak (fields.map Field.folded)

theorem folded_cons_cons (first second : Field) (fields : Fields) :
    folded (first :: second :: fields) =
      first.folded ++ (lineBreak ++ folded (second :: fields)) := by
  rw [folded, List.map_cons, List.map_cons, joinWith, List.append_assoc, folded, List.map_cons]
  exact List.cons_ne_nil _ _

theorem write_eq {fields : Fields} (nonempty : fields ≠ []) :
    fields.write = fields.folded ++ lineBreak := by
  induction fields with
  | nil => exact absurd rfl nonempty
  | cons field fields ih =>
      cases fields with
      | nil => simp [write, folded, joinWith, Field.write_eq]
      | cons second fields =>
          have hrest : write (field :: second :: fields) =
              field.write ++ write (second :: fields) := rfl
          rw [hrest, ih (List.cons_ne_nil _ _), folded_cons_cons, Field.write_eq]
          simp only [List.append_assoc]

/-- A section begins with a character of the name of its first field. -/
theorem exists_folded_eq {fields : Fields} (nonempty : fields ≠ [])
    (plain : ∀ field ∈ fields, field.IsPlain) :
    ∃ c rest, fields.folded = c :: rest ∧ isNameStop c = false := by
  obtain ⟨field, others, rfl⟩ := List.exists_cons_of_ne_nil nonempty
  obtain ⟨c, rest, hfolded, hc⟩ := (plain field (by simp)).exists_folded_eq
  cases others with
  | nil => exact ⟨c, rest, by rw [folded, List.map_singleton, joinWith, hfolded], hc⟩
  | cons second others =>
      exact ⟨c, _, by rw [folded_cons_cons, hfolded, List.cons_append], hc⟩

/-- A section does not begin with a line break. -/
theorem head?_folded_append {fields : Fields} (nonempty : fields ≠ [])
    (plain : ∀ field ∈ fields, field.IsPlain) (rest : List Char) :
    (fields.folded ++ rest).head? ≠ some '\r' := by
  obtain ⟨c, others, hfolded, hc⟩ := exists_folded_eq nonempty plain
  rw [hfolded]
  rintro ⟨rfl⟩
  exact absurd hc (by decide)

/-- A section continues no line before it. -/
theorem isContinuation_head?_folded {fields : Fields} (nonempty : fields ≠ [])
    (plain : ∀ field ∈ fields, field.IsPlain) :
    ∀ c ∈ fields.folded.head?, isContinuation c = false := by
  obtain ⟨c, others, hfolded, hc⟩ := exists_folded_eq nonempty plain
  rw [hfolded]
  rintro _ ⟨rfl⟩
  simp_all [isNameStop, isContinuation]

/-- The header section of plain fields ends where they end. -/
theorem splitHeaderSection_write {fields : Fields} (nonempty : fields ≠ [])
    (plain : ∀ field ∈ fields, field.IsPlain) (rest : List Char) :
    splitHeaderSection (fields.write ++ lineBreak ++ rest) = some (fields.folded, rest) := by
  have hend : splitHeaderSection (lineBreak ++ (lineBreak ++ rest)) = some ([], rest) := rfl
  rw [write_eq nonempty, List.append_assoc, List.append_assoc]
  induction fields with
  | nil => exact absurd rfl nonempty
  | cons field fields ih =>
      have hfield : IsFolded field.folded := (plain field (by simp)).isFolded
      cases fields with
      | nil =>
          rw [folded, List.map_singleton, joinWith, splitHeaderSection_append hfield, hend]
          simp
      | cons second fields =>
          have hne : second :: fields ≠ [] := List.cons_ne_nil _ _
          have hplain : ∀ other ∈ second :: fields, other.IsPlain :=
            fun other hother => plain other (List.mem_cons_of_mem _ hother)
          rw [folded_cons_cons, List.append_assoc, List.append_assoc]
          exact splitHeaderSection_append_lineBreak hfield (head?_folded_append hne hplain _)
            (ih hne hplain)

/-- The lines of plain fields, joined again, are one line a field. -/
theorem fieldLines_folded {fields : Fields} (nonempty : fields ≠ [])
    (plain : ∀ field ∈ fields, field.IsPlain) :
    fieldLines fields.folded = fields.map Field.line := by
  induction fields with
  | nil => exact absurd rfl nonempty
  | cons field fields ih =>
      have hfield : field.IsPlain := plain field (by simp)
      cases fields with
      | nil =>
          rw [folded, List.map_singleton, List.map_singleton, joinWith, fieldLines,
            hfield.unfolded_folded, wireLines_of_unbroken hfield.unbroken_line]
      | cons second fields =>
          have hne : second :: fields ≠ [] := List.cons_ne_nil _ _
          have hplain : ∀ other ∈ second :: fields, other.IsPlain :=
            fun other hother => plain other (List.mem_cons_of_mem _ hother)
          rw [folded_cons_cons, fieldLines_append_lineBreak hfield.isFolded
            (isContinuation_head?_folded hne hplain), hfield.unfolded_folded, ih hne hplain]
          rfl

end Fields

end MailMerge.Mail
