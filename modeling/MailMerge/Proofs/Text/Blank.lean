/-
# Runs of characters and blanks

Where a run of characters of one kind ends, and which code points are blank. The
blanks are few enough to be listed, so that a property of all of them is a property
of the list.
-/

import MailMerge.Text.Blank

namespace MailMerge.Text

/-- A run goes up to the first character of another kind. -/
theorem span_append {p : Char → Bool} {run rest : List Char} (inside : ∀ c ∈ run, p c)
    (stop : ∀ c ∈ rest.head?, p c = false) :
    (run ++ rest).takeWhile p = run ∧ (run ++ rest).dropWhile p = rest := by
  rw [List.takeWhile_append_of_pos inside, List.dropWhile_append_of_pos inside]
  cases rest with
  | nil => simp
  | cons c rest =>
      have hc : p c = false := stop c rfl
      simp [hc]

/-- Without its leading blanks a text begins with a character that is none exactly when only blanks
stand in front of it. -/
theorem exists_trimLeft_eq_cons_iff {text : List Char} {c : Char} (visible : isBlank c = false) :
    (∃ rest, trimLeft text = c :: rest) ↔
      ∃ blanks rest, (∀ d ∈ blanks, isBlank d) ∧ text = blanks ++ c :: rest := by
  constructor
  · rintro ⟨rest, hrest⟩
    refine ⟨text.takeWhile isBlank, rest, List.all_eq_true.1 List.all_takeWhile, ?_⟩
    rw [← hrest, trimLeft, List.takeWhile_append_dropWhile]
  · rintro ⟨blanks, rest, hblanks, rfl⟩
    exact ⟨rest, (span_append hblanks (by simpa using visible)).2⟩

/-- The code points with the property White_Space. -/
def blankCodes : List Nat :=
  [9, 10, 11, 12, 13, 32, 0x85, 0xA0, 0x1680, 0x2000, 0x2001, 0x2002, 0x2003, 0x2004, 0x2005,
    0x2006, 0x2007, 0x2008, 0x2009, 0x200A, 0x2028, 0x2029, 0x202F, 0x205F, 0x3000]

theorem mem_blankCodes {c : Char} (blank : isBlank c) : c.toNat ∈ blankCodes := by
  simp only [isBlank, Bool.or_eq_true, Bool.and_eq_true, decide_eq_true_eq, beq_iff_eq] at blank
  simp only [blankCodes, List.mem_cons, List.not_mem_nil, or_false]
  omega

/-- What fails on every listed blank fails on every blank. -/
theorem eq_false_of_isBlank {p : Char → Bool}
    (listed : ∀ code ∈ blankCodes, p (Char.ofNat code) = false) {c : Char} (blank : isBlank c) :
    p c = false := by
  have hcode := listed c.toNat (mem_blankCodes blank)
  rwa [Char.ofNat_toNat] at hcode

end MailMerge.Text
