/-
# References that are withheld

A reference in brackets without a leading slash names one entry by its whole name, slashes
included. Whether it is withheld is decided by the part of the name before its first slash,
as if it were a path. So of the references that lead to a value outside the reserved entry all are
filled in but those to an entry whose key continues the reserved key behind a slash: these
stay as they are spelled.
-/

import MailMerge.Proofs.Template.Division

namespace MailMerge.Template

open MailMerge.Json MailMerge.Text

/-- The value that a reference in brackets leads to, with the key of the entry in which it is: that
of a path is its first segment, and every other name is a key as it stands. -/
inductive LeadsWithin (values : Values) : List Char → List Char → Value → Prop where
  | slashed {key : List Char} {parts : List (List Char)} {value target : Value}
      (plain : ∀ part ∈ key :: parts, '/' ∉ part)
      (entry : values.members.get? (String.ofList key) = some value)
      (walk : Reaches value parts target) :
      LeadsWithin values key ('/' :: joinWith ['/'] (key :: parts)) target
  | named {name : List Char} {target : Value} (plain : name.head? ≠ some '/')
      (entry : values.members.get? (String.ofList name) = some target) :
      LeadsWithin values name name target

/-- What opens the names that are taken for paths into the reserved entry. -/
def reservedFront : List Char :=
  attachmentsKey.toList ++ ['/']

/-- Where a reference stands between other pieces, filling in shows a text. -/
def ShowsInPlace (markup : Markup) (values : Values) (before : List Piece) (found : Reference)
    (after : List Piece) (shown : List Char) : Prop :=
  substitute markup (String.ofList (spelled (before ++ .reference found :: after))) values =
    substitute markup (String.ofList (spelled before)) values ++ String.ofList shown ++
      substitute markup (String.ofList (spelled after)) values

variable {values : Values} {key name : List Char} {target : Value} {found : Reference}

theorem LeadsWithin.leads (within : LeadsWithin values key name target) :
    Leads values .bracket name target := by
  cases within with
  | slashed plain entry walk => exact .slashed plain entry walk
  | named plain entry => exact .named plain entry

/-- A text begins with a word up to a mark exactly when it is this word or continues it behind the
mark. -/
theorem takeWhile_eq_iff {mark : Char} {word text : List Char} (plain : mark ∉ word) :
    text.takeWhile (· != mark) = word ↔ text = word ∨ word ++ [mark] <+: text := by
  have inside : ∀ c ∈ word, (c != mark) = true := by
    intro c hc
    rw [bne_iff_ne]
    rintro rfl
    exact plain hc
  constructor
  · rintro rfl
    have hdivided := @List.takeWhile_append_dropWhile _ (· != mark) text
    have hstop := List.head?_dropWhile_not (· != mark) text
    cases hrest : text.dropWhile (· != mark) with
    | nil =>
        rw [hrest, List.append_nil] at hdivided
        exact .inl hdivided.symm
    | cons c rest =>
        rw [hrest] at hdivided hstop
        obtain rfl : c = mark := by simpa using hstop
        refine .inr ⟨rest, ?_⟩
        rw [List.append_assoc, List.singleton_append, hdivided]
  · rintro (heq | ⟨rest, rfl⟩)
    · have hword := @span_append (· != mark) word [] inside (by simp)
      rw [List.append_nil] at hword
      rw [heq]
      exact hword.1
    · rw [List.append_assoc]
      exact (span_append inside (by simp)).1

/-- Outside the reserved entry a reference is withheld exactly when its name continues the reserved
key behind a slash. -/
theorem LeadsWithin.isReserved_iff (within : LeadsWithin values key name target)
    (outside : key ≠ attachmentsKey.toList) :
    IsReserved .bracket name ↔ reservedFront <+: name := by
  cases within with
  | slashed plain entry walk =>
      rw [IsReserved, firstSegment, takeWhile_joinWith plain]
      refine iff_of_false outside ?_
      rintro ⟨rest, hrest⟩
      have hhead : some 'a' = some '/' := congrArg List.head? hrest
      cases hhead
  | named plain entry =>
      have hfirst : firstSegment .bracket key = key.takeWhile (· != '/') := by
        rw [firstSegment]
        rintro rest rfl
        exact plain rfl
      rw [IsReserved, hfirst, takeWhile_eq_iff (by decide)]
      exact or_iff_right outside

section Places

variable {markup : Markup} {before after : List Piece}

/-- A reference shows what it is filled in with, and nothing else. -/
theorem showsInPlace_iff (divided : IsDivision markup (before ++ .reference found :: after))
    {shown : List Char} :
    ShowsInPlace markup values before found after shown ↔ shown = found.fill markup values := by
  have hbefore := divided.of_infix (List.prefix_append before _).isInfix
  have hsuffix : after <:+ before ++ .reference found :: after :=
    (List.suffix_cons _ after).trans (List.suffix_append _ _)
  have hafter := divided.of_infix hsuffix.isInfix
  rw [ShowsInPlace, substitute_spelled_of_isDivision divided,
    substitute_spelled_of_isDivision hbefore, substitute_spelled_of_isDivision hafter,
    List.flatMap_append, List.flatMap_cons, ← String.ofList_append, ← String.ofList_append,
    String.ofList_inj, ← List.append_assoc, List.append_left_inj, List.append_right_inj, eq_comm]
  rfl

end Places

theorem LeadsWithin.fill_eq (within : LeadsWithin values key found.name target)
    (outside : key ≠ attachmentsKey.toList) :
    found.fill .bracket values =
      if reservedFront <+: found.name then found.spelling else rendering target := by
  have hreserved := within.isReserved_iff outside
  split
  · next front => exact Reference.fill_of_stays (.inl (hreserved.2 front))
  · next other => exact Reference.fill_of_leads within.leads (hreserved.not.2 other)

/-- Every text divides into pieces in one way. A reference in brackets that leads to a value outside
the reserved entry shows the rendering of this value exactly when its name does not continue
the reserved key behind a slash, or the rendering spells the reference; else it stays as it is. -/
theorem substitute_bracket_withholds (text : String) :
    ∃ division : List Piece,
      (∀ other, IsDivision .bracket other ∧ spelled other = text.toList ↔ other = division) ∧
      ∀ before found after, division = before ++ .reference found :: after →
        ∀ values key target, LeadsWithin values key found.name target →
          key ≠ attachmentsKey.toList →
            (ShowsInPlace .bracket values before found after (rendering target) ↔
              ¬ reservedFront <+: found.name ∨ rendering target = found.spelling) ∧
            (reservedFront <+: found.name →
              ShowsInPlace .bracket values before found after found.spelling) := by
  refine ⟨pieces .bracket text.toList, fun other => isDivision_and_spelled_eq_iff, ?_⟩
  intro before found after hdivision values key target within outside
  have divided := isDivision_pieces .bracket text.toList
  rw [hdivision] at divided
  rw [showsInPlace_iff divided, showsInPlace_iff divided, within.fill_eq outside]
  by_cases hfront : reservedFront <+: found.name
  · simp [hfront]
  · simp [hfront]

/-- A reference to an entry whose key begins like the reserved one. -/
def archiveReference : Reference :=
  ⟨"[attachments.old/2]".toList, "attachments.old/2".toList⟩

/-- A reference to an entry whose key continues the reserved one behind a slash. -/
def enclosedReference : Reference :=
  ⟨"[attachments/2]".toList, "attachments/2".toList⟩

/-- Values with an entry for each of the two references, and without the reserved one. -/
def enclosedValues : Values :=
  ⟨.ofList [("attachments.old/2", .string "map.png"), ("attachments/2", .string "plan.pdf")]⟩

theorem substitute_bracket_withholds_archive :
    (pieces .bracket "[attachments.old/2]!".toList = [.reference archiveReference, .literal '!'] ∧
        LeadsWithin enclosedValues archiveReference.name archiveReference.name
          (.string "map.png") ∧
        archiveReference.name ≠ attachmentsKey.toList) ∧
      ShowsInPlace .bracket enclosedValues [] archiveReference [.literal '!']
        "map.png".toList := by
  have hpieces : pieces .bracket "[attachments.old/2]!".toList =
      [.reference archiveReference, .literal '!'] := by
    decide +kernel
  have within : LeadsWithin enclosedValues archiveReference.name archiveReference.name
      (.string "map.png") :=
    .named (by decide) rfl
  have outside : archiveReference.name ≠ attachmentsKey.toList := by decide
  obtain ⟨division, unique, shows⟩ := substitute_bracket_withholds "[attachments.old/2]!"
  obtain rfl := (unique _).1 (isDivision_and_spelled_eq_iff.2 hpieces.symm)
  refine ⟨⟨hpieces, within, outside⟩, ?_⟩
  exact ((shows [] _ _ rfl _ _ _ within outside).1.2 (.inl (by decide)))

/-- The values have no reserved entry at all, and yet a reference that leads to one of them stays as
it is spelled. -/
theorem not_showsInPlace_enclosed :
    IsDivision .bracket [.reference enclosedReference] ∧
      LeadsWithin enclosedValues enclosedReference.name enclosedReference.name
        (.string "plan.pdf") ∧
      enclosedReference.name ≠ attachmentsKey.toList ∧
      ¬ ShowsInPlace .bracket enclosedValues [] enclosedReference []
        (rendering (.string "plan.pdf")) ∧
      substitute .bracket "[attachments/2]" enclosedValues = "[attachments/2]" := by
  have hpieces : pieces .bracket "[attachments/2]".toList = [.reference enclosedReference] := by
    decide +kernel
  have divided : IsDivision .bracket [.reference enclosedReference] :=
    (isDivision_and_spelled_eq_iff.2 hpieces.symm).1
  refine ⟨divided, .named (by decide) rfl, by decide, ?_, by decide +kernel⟩
  rw [showsInPlace_iff divided]
  decide

end MailMerge.Template
