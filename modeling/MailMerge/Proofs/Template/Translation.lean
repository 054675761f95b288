/-
# Translated templates

A template can be told without either markup, as texts that hold no bracket and no brace and
references by their segments. Spelled in either way, such a template divides into exactly these
texts and references, and a reference leads to the same value however it is marked. So the two
markups give one text wherever all references lead somewhere.
-/

import MailMerge.Proofs.Template.Division

namespace MailMerge.Template

open MailMerge.Json MailMerge.Text

/-! ## Templates without marks -/

/-- A part of a template that is not bound to a markup. -/
inductive Fragment where
  | text (literal : List Char)
  | reference (segments : List (List Char))
  deriving DecidableEq, Repr

theorem isPath_iff {allowed : Char → Bool} {segments : List (List Char)} :
    IsPath allowed segments ↔
      (!segments.isEmpty && segments.all fun part => !part.isEmpty && part.all allowed) = true := by
  simp only [Bool.and_eq_true, Bool.not_eq_true', List.all_eq_true, List.isEmpty_eq_false_iff]
  refine ⟨fun path => ⟨path.nonempty, fun part hpart => ⟨path.filled part hpart, ?_⟩⟩,
    fun ⟨nonempty, parts⟩ => ⟨nonempty, ?_, ?_⟩⟩
  · exact path.chars part hpart
  · exact fun part hpart => (parts part hpart).1
  · exact fun part hpart => (parts part hpart).2

instance (allowed : Char → Bool) (segments : List (List Char)) :
    Decidable (IsPath allowed segments) :=
  decidable_of_iff _ isPath_iff.symm

namespace Fragment

/-- The characters of which the marks are made. -/
def markChars : List Char := ['[', ']', '\x7b', '\x7d']

/-- A text that holds no mark, or a path of segments that can be written in both markups. -/
inductive IsSound : Fragment → Prop where
  | text {literal : List Char} (unmarked : ∀ c ∈ literal, c ∉ markChars) :
      IsSound (.text literal)
  | reference {segments : List (List Char)} (path : IsPath isSegmentChar segments) :
      IsSound (.reference segments)

theorem isSound_text_iff {literal : List Char} :
    IsSound (.text literal) ↔ (literal.all fun c => !markChars.contains c) = true := by
  simp only [List.all_eq_true, Bool.not_eq_true', List.contains_eq_mem, decide_eq_false_iff_not]
  exact ⟨fun | .text unmarked => unmarked, .text⟩

theorem isSound_reference_iff {segments : List (List Char)} :
    IsSound (.reference segments) ↔ IsPath isSegmentChar segments :=
  ⟨fun | .reference path => path, .reference⟩

instance : (fragment : Fragment) → Decidable fragment.IsSound
  | .text _ => decidable_of_iff _ isSound_text_iff.symm
  | .reference _ => decidable_of_iff _ isSound_reference_iff.symm

/-- The ways to spell a part in a markup. -/
inductive Spells : Markup → Fragment → List Char → Prop where
  | text (markup : Markup) (literal : List Char) : Spells markup (.text literal) literal
  | dotted (segments : List (List Char)) :
      Spells .placeholder (.reference segments)
        (['\x7b', '\x7b'] ++ joinWith ['.'] segments ++ ['\x7d', '\x7d'])
  | slashed (segments : List (List Char)) :
      Spells .bracket (.reference segments) (['[', '/'] ++ joinWith ['/'] segments ++ [']'])
  /-- A single segment needs no slash. -/
  | named (segment : List Char) :
      Spells .bracket (.reference [segment]) (['['] ++ segment ++ [']'])

/-- What a part stands for: a text for itself, and a reference that leads to a value outside the
reserved entry for the text of this value. -/
inductive StandsFor (values : Values) : Fragment → List Char → Prop where
  | text (literal : List Char) : StandsFor values (.text literal) literal
  | reference {segments : List (List Char)} {target : Value} {text : List Char}
      (walk : Reaches (.object values.members) segments target)
      (free : segments.head? ≠ some attachmentsKey.toList) (renders : Renders target text) :
      StandsFor values (.reference segments) text

end Fragment

/-! ## References by their segments -/

theorem IsPath.mono {allowed other : Char → Bool} {segments : List (List Char)}
    (path : IsPath allowed segments) (wider : ∀ c, allowed c → other c) :
    IsPath other segments :=
  ⟨path.nonempty, path.filled, fun segment hsegment c hc =>
    wider c (path.chars segment hsegment c hc)⟩

theorem isSlashPathChar_of_isSegmentChar {c : Char} (plain : isSegmentChar c) :
    isSlashPathChar c := by
  rw [isSlashPathChar, plain, Bool.true_or]

/-- A reference of a markup that is read as the given segments. -/
structure Reference.HasSegments (markup : Markup) (segments : List (List Char))
    (found : Reference) : Prop where
  token : IsToken markup found
  path : markup.path found.name = segments
  parts : markup.parts found.name = segments

/-- However a path is spelled, the spelling is a reference that is read as its segments. -/
theorem exists_hasSegments {markup : Markup} {segments : List (List Char)} {spelling : List Char}
    (path : IsPath isSegmentChar segments)
    (spells : Fragment.Spells markup (.reference segments) spelling) :
    ∃ found : Reference, found.spelling = spelling ∧ found.HasSegments markup segments := by
  have hslash : IsPath isSlashPathChar segments :=
    path.mono fun c => isSlashPathChar_of_isSegmentChar
  have hparts : partsAt '/' (joinWith ['/'] segments) = segments :=
    hslash.partsAt_joinWith (by decide)
  cases spells with
  | dotted =>
      have hdots : partsAt '.' (joinWith ['.'] segments) = segments :=
        path.partsAt_joinWith (by decide)
      have hnone : ∀ c ∈ ([] : List Char), isBlank c := by simp
      have token := IsToken.placeholder hnone path hnone
      exact ⟨_, by simp, token, hdots, hdots⟩
  | slashed =>
      have token := IsToken.bracket (.inr rfl) hslash
      exact ⟨_, by simp, token, hparts, hparts⟩
  | named segment =>
      have token := IsToken.bracket (.inl rfl) hslash
      have hjoin : joinWith ['/'] [segment] = segment := by simp [joinWith]
      obtain ⟨c, rest, hcons, hc⟩ := path.exists_cons ['/']
      rw [hjoin] at hcons
      have hhead : segment.head? ≠ some '/' := by
        rw [hcons, List.head?_cons]
        rintro ⟨rfl⟩
        exact absurd hc (by decide)
      refine ⟨_, by simp [hjoin], token, ?_, ?_⟩
      · rw [List.nil_append, hjoin]
        exact path_bracket_of_head? hhead
      · rw [Markup.parts, Markup.withoutRoot_append (.inl rfl) hslash]
        exact hparts

/-- A reference that is read as a path is filled in with the value at the end of this path. -/
theorem Reference.HasSegments.fill_eq {markup : Markup} {segments : List (List Char)}
    {found : Reference} {values : Values} {target : Value}
    (read : found.HasSegments markup segments) (nonempty : segments ≠ [])
    (walk : Reaches (.object values.members) segments target)
    (free : segments.head? ≠ some attachmentsKey.toList) :
    found.fill markup values = rendering target := by
  have hpath : values.atPath? segments = some target := by
    obtain ⟨key, parts, rfl⟩ := List.exists_cons_of_ne_nil nonempty
    cases walk with
    | key entry walk => exact atPath?_cons_eq_some_iff.2 ⟨_, entry, walk⟩
  have hreserved : ¬ markup.isReserved found.name := by
    rw [Markup.isReserved, read.parts, beq_iff_eq]
    exact free
  rw [← read.path] at hpath
  exact Reference.fill_of_leads (atPath?_path_eq_some_iff.1 hpath) (isReserved_iff.not.1 hreserved)

/-! ## Reading a spelled template -/

section Reading

variable {markup : Markup} {division : List Piece}

/-- A reference begins with a mark. -/
theorem IsToken.head?_mem_markChars {reference : Reference} (token : IsToken markup reference) :
    ∃ c ∈ Fragment.markChars, reference.spelling.head? = some c := by
  cases token with
  | placeholder => exact ⟨'\x7b', by decide, rfl⟩
  | bracket => exact ⟨'[', by decide, rfl⟩

theorem isDivision_nil (markup : Markup) : IsDivision markup [] :=
  ⟨by simp, fun before c after heq => by simp at heq⟩

/-- No reference begins within a text without marks. -/
theorem IsDivision.append_literals (divided : IsDivision markup division) {literal : List Char}
    (unmarked : ∀ c ∈ literal, c ∉ Fragment.markChars) :
    IsDivision markup (literal.map .literal ++ division) := by
  induction literal with
  | nil => exact divided
  | cons c literal ih =>
      have hrest := ih fun d hd => unmarked d (List.mem_cons_of_mem _ hd)
      refine hrest.cons_literal fun reference token hfront => ?_
      obtain ⟨mark, hmark, hhead⟩ := token.head?_mem_markChars
      obtain ⟨spelling, hspelling⟩ := List.head?_eq_some_iff.1 hhead
      rw [hspelling, spelled_cons, Piece.spelling, List.singleton_append,
        List.cons_prefix_cons] at hfront
      exact unmarked c (by simp) (hfront.1 ▸ hmark)

theorem spelled_literals (literal : List Char) : spelled (literal.map .literal) = literal := by
  simp [spelled, List.flatMap_map, Piece.spelling]

theorem flatMap_fill_literals (values : Values) (literal : List Char) :
    (literal.map Piece.literal).flatMap (Piece.fill markup values) = literal := by
  simp [List.flatMap_map, Piece.fill]

/-- A spelled template divides into its parts, each filled in with what it stands for. -/
theorem exists_division_of_spells {values : Values} {fragments : List Fragment}
    {spellings texts : List (List Char)} (sound : ∀ fragment ∈ fragments, fragment.IsSound)
    (spells : List.Forall₂ (Fragment.Spells markup) fragments spellings)
    (stands : List.Forall₂ (Fragment.StandsFor values) fragments texts) :
    ∃ division, IsDivision markup division ∧ spelled division = spellings.flatten ∧
      division.flatMap (Piece.fill markup values) = texts.flatten := by
  induction spells generalizing texts with
  | nil =>
      cases stands
      exact ⟨[], isDivision_nil markup, rfl, rfl⟩
  | @cons fragment spelling fragments spellings spelt _ ih =>
      cases stands with
      | @cons _ text _ texts stand stands =>
        obtain ⟨division, divided, hspelled, hfill⟩ :=
          ih (fun other hother => sound other (List.mem_cons_of_mem _ hother)) stands
        rw [List.flatten_cons, List.flatten_cons, ← hspelled, ← hfill]
        cases sound fragment (by simp) with
        | text unmarked =>
            cases spelt
            cases stand
            refine ⟨_, divided.append_literals unmarked, ?_, ?_⟩
            · rw [spelled_append, spelled_literals]
            · rw [List.flatMap_append, flatMap_fill_literals]
        | reference path =>
            obtain ⟨found, rfl, read⟩ := exists_hasSegments path spelt
            cases stand with
            | reference walk free renders =>
              refine ⟨_, divided.cons_reference read.token, spelled_cons .., ?_⟩
              rw [List.flatMap_cons, Piece.fill, read.fill_eq path.nonempty walk free,
                renders_iff.1 renders]

/-- Filling in a spelled template puts what each part stands for in its place. -/
theorem substitute_spelled {values : Values} {fragments : List Fragment}
    {spellings texts : List (List Char)} (sound : ∀ fragment ∈ fragments, fragment.IsSound)
    (spells : List.Forall₂ (Fragment.Spells markup) fragments spellings)
    (stands : List.Forall₂ (Fragment.StandsFor values) fragments texts) :
    substitute markup (String.ofList spellings.flatten) values = String.ofList texts.flatten := by
  obtain ⟨division, divided, hspelled, hfill⟩ := exists_division_of_spells sound spells stands
  rw [← hspelled, substitute_spelled_of_isDivision divided, hfill]

end Reading

/-! ## The two markups -/

section Markups

variable {values : Values} {fragments : List Fragment}
  (sound : ∀ fragment ∈ fragments, fragment.IsSound)
  (resolved : ∀ segments, .reference segments ∈ fragments →
    ∃ target, Reaches (.object values.members) segments target)
  (free : ∀ segments, .reference segments ∈ fragments →
    segments.head? ≠ some attachmentsKey.toList)

include resolved free in
/-- Where every reference leads to a value, every part stands for a text. -/
theorem exists_standsFor : ∃ texts, List.Forall₂ (Fragment.StandsFor values) fragments texts := by
  induction fragments with
  | nil => exact ⟨[], .nil⟩
  | cons fragment fragments ih =>
      obtain ⟨texts, stands⟩ := ih
        (fun segments hmem => resolved segments (List.mem_cons_of_mem _ hmem))
        (fun segments hmem => free segments (List.mem_cons_of_mem _ hmem))
      cases fragment with
      | text literal => exact ⟨literal :: texts, .cons (.text literal) stands⟩
      | reference segments =>
          obtain ⟨target, walk⟩ := resolved segments (by simp)
          have stand := Fragment.StandsFor.reference walk (free segments (by simp))
            (renders_iff.2 rfl)
          exact ⟨rendering target :: texts, .cons stand stands⟩

include sound resolved free in
/-- A template gives the same text in both markups when each of its references leads to a value and
none into the reserved entry, whichever spelling of a reference is taken in brackets. -/
theorem substitute_placeholder_eq_bracket {dotted bracketed : List (List Char)}
    (hdotted : List.Forall₂ (Fragment.Spells .placeholder) fragments dotted)
    (hbracketed : List.Forall₂ (Fragment.Spells .bracket) fragments bracketed) :
    substitute .placeholder (String.ofList dotted.flatten) values =
      substitute .bracket (String.ofList bracketed.flatten) values := by
  obtain ⟨texts, stands⟩ := exists_standsFor resolved free
  rw [substitute_spelled sound hdotted stands, substitute_spelled sound hbracketed stands]

end Markups

/-- A greeting with a key, a path and, right behind it, a path through an array. -/
def greeting : List Fragment :=
  [.reference ["greeting".toList], .text ", ".toList,
    .reference ["user".toList, "name".toList], .reference ["ages".toList, "1".toList],
    .text "!".toList]

/-- The greeting in double braces. -/
def dottedGreeting : List (List Char) :=
  ["\x7b\x7bgreeting\x7d\x7d".toList, ", ".toList, "\x7b\x7buser.name\x7d\x7d".toList,
    "\x7b\x7bages.1\x7d\x7d".toList, "!".toList]

/-- The greeting in brackets, its key without a slash. -/
def bracketedGreeting : List (List Char) :=
  ["[greeting]".toList, ", ".toList, "[/user/name]".toList, "[/ages/1]".toList, "!".toList]

/-- Values that the greeting is filled with. -/
def greetingValues : Values :=
  ⟨.ofList [("greeting", .string "Hello [/user/name]"), ("user", .object [("name", .string "Ann")]),
    ("ages", .array [.null, .bool true])]⟩

theorem greeting_isSound : ∀ fragment ∈ greeting, fragment.IsSound := by
  decide

theorem reference_mem_greeting {segments : List (List Char)}
    (hmem : .reference segments ∈ greeting) :
    segments = ["greeting".toList] ∨ segments = ["user".toList, "name".toList] ∨
      segments = ["ages".toList, "1".toList] := by
  simpa [greeting] using hmem

theorem greeting_resolved (segments : List (List Char)) (hmem : .reference segments ∈ greeting) :
    ∃ target, Reaches (.object greetingValues.members) segments target := by
  have huser : greetingValues.members.get? (String.ofList "user".toList) =
      some (.object [("name", .string "Ann")]) := rfl
  have hages : greetingValues.members.get? (String.ofList "ages".toList) =
      some (.array [.null, .bool true]) := rfl
  have hsecond : numeralBelow? indexBound "1".toList = some 1 := rfl
  rcases reference_mem_greeting hmem with rfl | rfl | rfl
  · exact ⟨.string "Hello [/user/name]", .key rfl (.here _)⟩
  · exact ⟨.string "Ann", .key huser (.key rfl (.here _))⟩
  · exact ⟨.bool true, .key hages (.index hsecond rfl (.here _))⟩

theorem substitute_placeholder_eq_bracket_greeting :
    substitute .placeholder (String.ofList dottedGreeting.flatten) greetingValues =
        substitute .bracket (String.ofList bracketedGreeting.flatten) greetingValues ∧
      substitute .placeholder (String.ofList dottedGreeting.flatten) greetingValues =
        "Hello [/user/name], Anntrue!" := by
  constructor
  · refine substitute_placeholder_eq_bracket greeting_isSound greeting_resolved ?_ ?_ ?_
    · intro segments hmem
      rcases reference_mem_greeting hmem with rfl | rfl | rfl <;> decide
    · exact .cons (.dotted _) (.cons (.text _ _) (.cons (.dotted _) (.cons (.dotted _)
        (.cons (.text _ _) .nil))))
    · exact .cons (.named _) (.cons (.text _ _) (.cons (.slashed _) (.cons (.slashed _)
        (.cons (.text _ _) .nil))))
  · decide +kernel

end MailMerge.Template
