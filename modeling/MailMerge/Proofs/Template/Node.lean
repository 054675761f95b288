/-
# Nodes and their dotted names

The nodes of values are reached from the top by steps: by keys into objects and by indexes into
arrays. The steps to a node, joined by dots, are a name under which it is looked up. In the other
direction a name leads by its segments, each taken as a key where an object has been reached and as
an index where an array has, and looking it up ends without a value at the first segment
that leads nowhere.
-/

import MailMerge.Proofs.Template.Lookup
import MailMerge.Proofs.Text.Numeral
import Mathlib.Data.List.Forall2

namespace MailMerge.Template

open MailMerge.Json MailMerge.Text

/-! ## Nodes -/

/-- A step from a node to one right below it. -/
inductive Step where
  | key (name : String)
  | index (position : Nat)
  deriving DecidableEq, Repr

/-- The node that steps lead to from a value. -/
inductive NodeAt : Value → List Step → Value → Prop where
  | here (node : Value) : NodeAt node [] node
  | key {members : Members} {name : String} {child node : Value} {steps : List Step}
      (entry : members.get? name = some child) (below : NodeAt child steps node) :
      NodeAt (.object members) (.key name :: steps) node
  | index {items : List Value} {position : Nat} {child node : Value} {steps : List Step}
      (item : items[position]? = some child) (below : NodeAt child steps node) :
      NodeAt (.array items) (.index position :: steps) node

namespace Step

/-- The segment of a name that stands for a step: a key as it is, and an index in decimal. -/
def segment : Step → List Char
  | .key name => name.toList
  | .index position => decimalDigits position

/-- A step that has a segment of its own in a dotted name. -/
inductive IsNameable : Step → Prop where
  | key {name : String} (plain : '.' ∉ name.toList) : IsNameable (.key name)
  | index {position : Nat} (small : position < Nat.pow 2 64) : IsNameable (.index position)

/-- The steps that a segment may be taken for: the key that it is, and the index of which it is a
numeral. -/
inductive IsReadFrom : Step → List Char → Prop where
  | key (segment : List Char) : IsReadFrom (.key (String.ofList segment)) segment
  | index {segment : List Char} {position : Nat} (numeral : IsNumeral segment position)
      (small : position < Nat.pow 2 64) : IsReadFrom (.index position) segment

end Step

/-- The segments of a dotted name: what stands between its dots. -/
structure IsDotted (name : String) (segments : List (List Char)) : Prop where
  nonempty : segments ≠ []
  plain : ∀ segment ∈ segments, '.' ∉ segment
  joined : joinWith ['.'] segments = name.toList

/-- A node from which a segment leads nowhere. -/
inductive IsStuck : Value → List Char → Prop where
  | missing {members : Members} {segment : List Char}
      (absent : members.get? (String.ofList segment) = none) : IsStuck (.object members) segment
  | outOfRange {items : List Value} {segment : List Char} {position : Nat}
      (read : (Step.index position).IsReadFrom segment) (beyond : items.length ≤ position) :
      IsStuck (.array items) segment
  | unparsable {items : List Value} {segment : List Char}
      (unread : ∀ position, ¬ (Step.index position).IsReadFrom segment) :
      IsStuck (.array items) segment
  | null (segment : List Char) : IsStuck .null segment
  | bool (b : Bool) (segment : List Char) : IsStuck (.bool b) segment
  | number (n : Number) (segment : List Char) : IsStuck (.number n) segment
  | string (s : String) (segment : List Char) : IsStuck (.string s) segment

/-! ## Steps by segments -/

theorem isReadFrom_index_iff {position : Nat} {segment : List Char} :
    (Step.index position).IsReadFrom segment ↔
      numeralBelow? indexBound segment = some position := by
  have hbound : indexBound = Nat.pow 2 64 := by decide
  rw [numeralBelow?_eq_some_iff, hbound]
  constructor
  · intro read
    cases read with
    | index numeral small => exact ⟨numeral, small⟩
  · rintro ⟨numeral, small⟩
    exact .index numeral small

theorem Step.IsNameable.isReadFrom {step : Step} (nameable : step.IsNameable) :
    step.IsReadFrom step.segment := by
  cases nameable with
  | @key name =>
      have read := IsReadFrom.key name.toList
      rwa [String.ofList_toList] at read
  | @index position small =>
      have hdigits : decimalDigits position = paddedDigits 0 position := by
        rw [paddedDigits, Nat.zero_sub, List.replicate_zero, List.nil_append]
      have numeral := IsNumeral.unsigned 0 position
      rw [← hdigits] at numeral
      exact .index numeral small

theorem Step.IsNameable.dot_not_mem {step : Step} (nameable : step.IsNameable) :
    '.' ∉ step.segment := by
  cases nameable with
  | key plain => exact plain
  | index small => exact fun hmem => absurd (isAsciiDigit_of_mem_decimalDigits hmem) (by decide)

/-- Walking along segments is taking steps that are read from them. -/
theorem reaches_iff_exists_nodeAt {value node : Value} {segments : List (List Char)} :
    Reaches value segments node ↔
      ∃ steps, List.Forall₂ Step.IsReadFrom steps segments ∧ NodeAt value steps node := by
  constructor
  · intro walk
    induction walk with
    | here value => exact ⟨[], .nil, .here value⟩
    | key entry _ ih =>
        obtain ⟨steps, read, below⟩ := ih
        exact ⟨_, .cons (.key _) read, .key entry below⟩
    | index numeral item _ ih =>
        obtain ⟨steps, read, below⟩ := ih
        exact ⟨_, .cons (isReadFrom_index_iff.2 numeral) read, .index item below⟩
  · rintro ⟨steps, read, below⟩
    induction below generalizing segments with
    | here node =>
        cases read
        exact .here node
    | key entry _ ih =>
        cases read with
        | cons first others =>
          cases first with
          | key segment => exact .key entry (ih others)
    | index item _ ih =>
        cases read with
        | cons first others =>
          exact .index (isReadFrom_index_iff.1 first) item (ih others)

theorem step?_eq_none_iff {value : Value} {segment : List Char} :
    Values.step? value segment = none ↔ IsStuck value segment := by
  cases value with
  | null => exact iff_of_true rfl (.null segment)
  | bool b => exact iff_of_true rfl (.bool b segment)
  | number n => exact iff_of_true rfl (.number n segment)
  | string s => exact iff_of_true rfl (.string s segment)
  | object members =>
      constructor
      · exact .missing
      · rintro ⟨absent⟩
        exact absent
  | array items =>
      rw [Values.step?, Option.bind_eq_bind, Option.bind_eq_none_iff]
      constructor
      · intro hnone
        cases hnumeral : numeralBelow? indexBound segment with
        | none =>
            refine .unparsable fun position read => ?_
            rw [isReadFrom_index_iff, hnumeral] at read
            cases read
        | some position =>
            exact .outOfRange (isReadFrom_index_iff.2 hnumeral)
              (List.getElem?_eq_none_iff.1 (hnone position hnumeral))
      · rintro (_ | ⟨read, beyond⟩ | unread) position hnumeral
        · rw [isReadFrom_index_iff, hnumeral] at read
          cases read
          exact List.getElem?_eq_none beyond
        · exact absurd (isReadFrom_index_iff.2 hnumeral) (unread position)

/-- A walk leads nowhere exactly when it is stuck at a node on its way. -/
theorem follow?_eq_none_iff {value : Value} {segments : List (List Char)} :
    Values.follow? value segments = none ↔
      ∃ before segment after stop, segments = before ++ segment :: after ∧
        Values.follow? value before = some stop ∧ IsStuck stop segment := by
  induction segments generalizing value with
  | nil => simp [Values.follow?]
  | cons first segments ih =>
      rw [Values.follow?, Option.bind_eq_bind]
      cases hstep : Values.step? value first with
      | none =>
          refine iff_of_true rfl ⟨[], first, segments, value, rfl, rfl, ?_⟩
          exact step?_eq_none_iff.1 hstep
      | some child =>
          rw [Option.bind_some, ih]
          constructor
          · rintro ⟨before, segment, after, stop, rfl, walk, stuck⟩
            refine ⟨first :: before, segment, after, stop, rfl, ?_, stuck⟩
            rw [Values.follow?, hstep]
            exact walk
          · rintro ⟨before, segment, after, stop, heq, walk, stuck⟩
            cases before with
            | nil =>
                cases heq
                cases walk
                rw [step?_eq_none_iff.2 stuck] at hstep
                cases hstep
            | cons other before =>
                obtain ⟨rfl, hrest⟩ := List.cons.inj heq
                rw [Values.follow?, hstep] at walk
                exact ⟨before, segment, after, stop, hrest, walk, stuck⟩

theorem lookup?_eq_follow? (values : Values) (name : String) :
    values.lookup? name =
      Values.follow? (.object values.members) (partsAt '.' name.toList) := by
  obtain ⟨key, parts, hparts⟩ := List.exists_cons_of_ne_nil (partsAt_ne_nil '.' name.toList)
  rw [Values.lookup?, hparts]
  rfl

theorem isDotted_iff {name : String} {segments : List (List Char)} :
    IsDotted name segments ↔ segments = partsAt '.' name.toList := by
  constructor
  · rintro ⟨nonempty, plain, joined⟩
    rw [← joined, partsAt_joinWith nonempty plain]
  · rintro rfl
    exact ⟨partsAt_ne_nil '.' _, fun segment hsegment => not_mem_of_mem_partsAt hsegment,
      joinWith_partsAt ..⟩

/-! ## Looking up -/

/-- A node is looked up under its steps joined by dots. A name leads to the node that its segments
lead to, each a key into an object or a numeral of an index into an array, and else some segment is
the first that leads nowhere. -/
theorem lookup?_nodes (values : Values) :
    (∀ steps node, steps ≠ [] → (∀ step ∈ steps, step.IsNameable) →
        NodeAt (.object values.members) steps node →
          values.lookup? (String.ofList (joinWith ['.'] (steps.map Step.segment))) = some node) ∧
      ∀ name, ∃ segments, (∀ others, IsDotted name others ↔ others = segments) ∧
        (∀ node, values.lookup? name = some node ↔
          ∃ steps, List.Forall₂ Step.IsReadFrom steps segments ∧
            NodeAt (.object values.members) steps node) ∧
        (values.lookup? name = none ↔
          ∃ before segment after steps stop, segments = before ++ segment :: after ∧
            List.Forall₂ Step.IsReadFrom steps before ∧
            NodeAt (.object values.members) steps stop ∧ IsStuck stop segment) := by
  have hfound (name : String) (node : Value) : values.lookup? name = some node ↔
      ∃ steps, List.Forall₂ Step.IsReadFrom steps (partsAt '.' name.toList) ∧
        NodeAt (.object values.members) steps node := by
    rw [lookup?_eq_follow?, follow?_eq_some_iff, reaches_iff_exists_nodeAt]
  refine ⟨fun steps node nonempty nameable below => ?_, fun name => ?_⟩
  · have hsegments : partsAt '.' (joinWith ['.'] (steps.map Step.segment)) =
        steps.map Step.segment := by
      apply partsAt_joinWith (by simpa using nonempty)
      intro segment hsegment
      obtain ⟨step, hstep, rfl⟩ := List.mem_map.1 hsegment
      exact (nameable step hstep).dot_not_mem
    rw [hfound, String.toList_ofList, hsegments]
    refine ⟨steps, ?_, below⟩
    rw [List.forall₂_map_right_iff, List.forall₂_same]
    exact fun step hstep => (nameable step hstep).isReadFrom
  · refine ⟨partsAt '.' name.toList, fun others => isDotted_iff, hfound name, ?_⟩
    rw [lookup?_eq_follow?, follow?_eq_none_iff]
    simp only [follow?_eq_some_iff, reaches_iff_exists_nodeAt]
    constructor
    · rintro ⟨before, segment, after, stop, heq, ⟨steps, read, below⟩, stuck⟩
      exact ⟨before, segment, after, steps, stop, heq, read, below, stuck⟩
    · rintro ⟨before, segment, after, steps, stop, heq, read, below, stuck⟩
      exact ⟨before, segment, after, stop, heq, ⟨steps, read, below⟩, stuck⟩

/-- Values with a key that looks like an index, and with an empty key. -/
def guestValues : Values :=
  ⟨.ofList [("guests", .array [.null, .object [("", .bool true), ("1", .string "Ann")]])]⟩

/-- The steps to the node at the empty key. -/
def stepsToEmptyKey : List Step :=
  [.key "guests", .index 1, .key ""]

theorem lookup?_nodes_guests :
    (stepsToEmptyKey ≠ [] ∧ (∀ step ∈ stepsToEmptyKey, step.IsNameable) ∧
        NodeAt (.object guestValues.members) stepsToEmptyKey (.bool true) ∧
        guestValues.lookup? "guests.1." = some (.bool true)) ∧
      guestValues.lookup? "guests.+01.1" = some (.string "Ann") ∧
      guestValues.lookup? "guests.2." = none := by
  have hguests : guestValues.members.get? "guests" =
      some (.array [.null, .object [("", .bool true), ("1", .string "Ann")]]) := rfl
  have nonempty : stepsToEmptyKey ≠ [] := by decide
  have nameable : ∀ step ∈ stepsToEmptyKey, step.IsNameable := by
    simp only [stepsToEmptyKey, List.forall_mem_cons, List.not_mem_nil, false_implies,
      implies_true, and_true]
    exact ⟨.key (by decide), .index (by decide), .key (by decide)⟩
  have below : NodeAt (.object guestValues.members) stepsToEmptyKey (.bool true) :=
    .key hguests (.index rfl (.key rfl (.here _)))
  have hname : String.ofList (joinWith ['.'] (stepsToEmptyKey.map Step.segment)) =
      "guests.1." := by
    decide +kernel
  obtain ⟨reached, named⟩ := lookup?_nodes guestValues
  refine ⟨⟨nonempty, nameable, below, ?_⟩, ?_, ?_⟩
  · rw [← hname]
    exact reached _ _ nonempty nameable below
  · obtain ⟨segments, hsegments, found, -⟩ := named "guests.+01.1"
    obtain rfl : ["guests".toList, "+01".toList, "1".toList] = segments :=
      (hsegments _).1 ⟨by decide, by decide, by decide⟩
    have numeral : (Step.index 1).IsReadFrom "+01".toList :=
      isReadFrom_index_iff.2 rfl
    exact (found _).2 ⟨_, .cons (.key _) (.cons numeral (.cons (.key _) .nil)),
      .key hguests (.index rfl (.key rfl (.here _)))⟩
  · obtain ⟨segments, hsegments, -, lost⟩ := named "guests.2."
    obtain rfl : ["guests".toList, "2".toList, []] = segments :=
      (hsegments _).1 ⟨by decide, by decide, by decide⟩
    have numeral : (Step.index 2).IsReadFrom "2".toList :=
      isReadFrom_index_iff.2 rfl
    exact lost.2 ⟨["guests".toList], "2".toList, [[]], _, _, rfl, .cons (.key _) .nil,
      .key hguests (.here _), .outOfRange numeral (Nat.le_refl 2)⟩

end MailMerge.Template
