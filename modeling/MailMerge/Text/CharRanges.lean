/-
# Sets of characters given by ranges

A set of characters as a list of inclusive code point ranges, the form in which the tables of
Unicode properties are kept.
-/

namespace MailMerge.Text

/-- A set of characters, given by inclusive code point ranges. -/
structure CharRanges where
  /-- First and last code point of every range. -/
  ranges : Array (Nat × Nat)

namespace CharRanges

/-- The set with the given ranges. -/
def of (ranges : List (Nat × Nat)) : CharRanges :=
  ⟨ranges.toArray⟩

/-- Membership in some range of the set. -/
def contains (set : CharRanges) (c : Char) : Bool :=
  set.ranges.any fun (first, last) => first ≤ c.toNat && c.toNat ≤ last

end CharRanges

end MailMerge.Text
