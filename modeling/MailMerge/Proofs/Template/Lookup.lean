/-
# Where references lead

The value that a name leads to, told as a walk through objects and arrays. Looking a
name up finds exactly that value: a dotted name and a path with slashes are walked
segment by segment, and a name in brackets without a leading slash is one key.
-/

import MailMerge.Proofs.Text.Lines
import MailMerge.Template.Token

namespace MailMerge.Template

open MailMerge.Json MailMerge.Text

/-- A walk from a value along the parts of a path: each part is a key where an object has been
reached, and an index where an array has. -/
inductive Reaches : Value → List (List Char) → Value → Prop where
  | here (value : Value) : Reaches value [] value
  | key {members : Members} {part : List Char} {value target : Value} {parts : List (List Char)}
      (entry : members.get? (String.ofList part) = some value)
      (walk : Reaches value parts target) : Reaches (.object members) (part :: parts) target
  | index {items : List Value} {part : List Char} {position : Nat} {value target : Value}
      {parts : List (List Char)} (numeral : numeralBelow? indexBound part = some position)
      (item : items[position]? = some value) (walk : Reaches value parts target) :
      Reaches (.array items) (part :: parts) target

/-- The value that a name leads to from the top. -/
inductive Leads (values : Values) : Markup → List Char → Value → Prop where
  /-- A dotted name is a path whose first part is a key. -/
  | dotted {key : List Char} {parts : List (List Char)} {value target : Value}
      (plain : ∀ part ∈ key :: parts, '.' ∉ part)
      (entry : values.members.get? (String.ofList key) = some value)
      (walk : Reaches value parts target) :
      Leads values .placeholder (joinWith ['.'] (key :: parts)) target
  /-- So is a name in brackets that begins with a slash. -/
  | slashed {key : List Char} {parts : List (List Char)} {value target : Value}
      (plain : ∀ part ∈ key :: parts, '/' ∉ part)
      (entry : values.members.get? (String.ofList key) = some value)
      (walk : Reaches value parts target) :
      Leads values .bracket ('/' :: joinWith ['/'] (key :: parts)) target
  /-- Every other name in brackets is a key as it stands. -/
  | named {name : List Char} {target : Value} (plain : name.head? ≠ some '/')
      (entry : values.members.get? (String.ofList name) = some target) :
      Leads values .bracket name target

/-- The first segment of a name, without the slash that may stand before it. -/
def firstSegment : Markup → List Char → List Char
  | .placeholder, name => name.takeWhile (· != '.')
  | .bracket, '/' :: name => name.takeWhile (· != '/')
  | .bracket, name => name.takeWhile (· != '/')

/-- A name leads into the reserved entry when that is its first segment. -/
def IsReserved (markup : Markup) (name : List Char) : Prop :=
  firstSegment markup name = attachmentsKey.toList

instance (markup : Markup) (name : List Char) : Decidable (IsReserved markup name) :=
  inferInstanceAs (Decidable (firstSegment markup name = attachmentsKey.toList))

/-! ## Walks -/

theorem reaches_nil_iff {value target : Value} : Reaches value [] target ↔ target = value := by
  constructor
  · rintro ⟨⟩
    rfl
  · rintro rfl
    exact .here target

/-- Taking one step after the other is the walk. -/
theorem follow?_eq_some_iff {value target : Value} {parts : List (List Char)} :
    Values.follow? value parts = some target ↔ Reaches value parts target := by
  induction parts generalizing value with
  | nil => rw [Values.follow?, Option.some.injEq, reaches_nil_iff, eq_comm]
  | cons part parts ih =>
      rw [Values.follow?, Option.bind_eq_bind, Option.bind_eq_some_iff]
      constructor
      · rintro ⟨next, hstep, hwalk⟩
        rw [ih] at hwalk
        unfold Values.step? at hstep
        split at hstep
        · exact .key hstep hwalk
        · obtain ⟨position, hnumeral, hitem⟩ := Option.bind_eq_some_iff.1 hstep
          exact .index hnumeral hitem hwalk
        · cases hstep
      · rintro (_ | ⟨entry, walk⟩ | ⟨numeral, item, walk⟩)
        · exact ⟨_, entry, ih.2 walk⟩
        · refine ⟨_, ?_, ih.2 walk⟩
          rw [Values.step?, Option.bind_eq_bind, numeral, Option.bind_some]
          exact item

/-! ## Names -/

section

variable {values : Values} {markup : Markup} {target : Value}

theorem atPath?_cons_eq_some_iff {key : List Char} {parts : List (List Char)} :
    values.atPath? (key :: parts) = some target ↔
      ∃ value, values.members.get? (String.ofList key) = some value ∧
        Reaches value parts target := by
  rw [Values.atPath?, Option.bind_eq_bind, Option.bind_eq_some_iff]
  simp only [follow?_eq_some_iff]

/-- Names without a leading slash are keys as they stand. -/
theorem path_bracket_of_head? {name : List Char} (plain : name.head? ≠ some '/') :
    Markup.bracket.path name = [name] := by
  rw [Markup.path]
  rintro rest rfl
  exact plain rfl

/-- Looking up the path of a name finds the value that the name leads to. -/
theorem atPath?_path_eq_some_iff {name : List Char} :
    values.atPath? (markup.path name) = some target ↔ Leads values markup name target := by
  constructor
  · intro found
    -- The parts of a name are the segments of the walk, so that joining them gives the name.
    have hparts (separator : Char) (name : List Char) :
        ∃ key parts, partsAt separator name = key :: parts ∧
          name = joinWith [separator] (key :: parts) ∧
          ∀ part ∈ key :: parts, separator ∉ part := by
      obtain ⟨key, parts, heq⟩ := List.exists_cons_of_ne_nil (partsAt_ne_nil separator name)
      refine ⟨key, parts, heq, ?_, ?_⟩
      · rw [← heq, joinWith_partsAt]
      · rw [← heq]
        exact fun part hpart => not_mem_of_mem_partsAt hpart
    cases markup with
    | placeholder =>
        obtain ⟨key, parts, heq, hjoin, plain⟩ := hparts '.' name
        have hpath : Markup.placeholder.path name = key :: parts := heq
        rw [hpath, atPath?_cons_eq_some_iff] at found
        obtain ⟨value, entry, walk⟩ := found
        rw [hjoin]
        exact .dotted plain entry walk
    | bracket =>
        by_cases hname : name.head? = some '/'
        · obtain ⟨rest, rfl⟩ := List.head?_eq_some_iff.1 hname
          obtain ⟨key, parts, heq, hjoin, plain⟩ := hparts '/' rest
          have hpath : Markup.bracket.path ('/' :: rest) = key :: parts := heq
          rw [hpath, atPath?_cons_eq_some_iff] at found
          obtain ⟨value, entry, walk⟩ := found
          rw [hjoin]
          exact .slashed plain entry walk
        · rw [path_bracket_of_head? hname, atPath?_cons_eq_some_iff] at found
          obtain ⟨value, entry, walk⟩ := found
          rw [← reaches_nil_iff.1 walk] at entry
          exact .named hname entry
  · rintro (⟨plain, entry, walk⟩ | ⟨plain, entry, walk⟩ | ⟨plain, entry⟩)
    · have hpath (name : List Char) : Markup.placeholder.path name = partsAt '.' name := rfl
      rw [hpath, partsAt_joinWith (List.cons_ne_nil _ _) plain]
      exact atPath?_cons_eq_some_iff.2 ⟨_, entry, walk⟩
    · have hpath (name : List Char) : Markup.bracket.path ('/' :: name) = partsAt '/' name := rfl
      rw [hpath, partsAt_joinWith (List.cons_ne_nil _ _) plain]
      exact atPath?_cons_eq_some_iff.2 ⟨_, entry, walk⟩
    · rw [path_bracket_of_head? plain]
      exact atPath?_cons_eq_some_iff.2 ⟨_, entry, .here target⟩

/-- The first segment of a joined path is its first part. -/
theorem takeWhile_joinWith {separator : Char} {key : List Char} {parts : List (List Char)}
    (plain : ∀ part ∈ key :: parts, separator ∉ part) :
    (joinWith [separator] (key :: parts)).takeWhile (· != separator) = key := by
  have hhead := head?_partsAt separator (joinWith [separator] (key :: parts))
  rw [partsAt_joinWith (List.cons_ne_nil _ _) plain] at hhead
  exact (Option.some.inj hhead).symm

theorem isReserved_iff {name : List Char} :
    markup.isReserved name ↔ IsReserved markup name := by
  have hfirst : firstSegment markup name =
      (markup.withoutRoot name).takeWhile (· != markup.separator) := by
    unfold firstSegment
    split
    · rfl
    · rfl
    · next name hname =>
      rw [Markup.withoutRoot, Markup.separator]
      exact fun rest _ heq => hname rest heq
  rw [Markup.isReserved, Markup.parts, head?_partsAt, beq_iff_eq, Option.some.injEq, IsReserved,
    hfirst]

end

end MailMerge.Template
