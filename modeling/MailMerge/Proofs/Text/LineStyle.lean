/-
# Texts in several line styles

A text of which some line ends are written in one of three styles, among characters
that are the same in every style. Once line endings are unified, the three texts
differ by line feeds only: a carriage return and a line feed that come from
different sides of such a line end make one line break where they meet and two where
they do not. The main statements say that the unified texts are equal exactly when
no such pair of neighbours occurs.
-/

import Mathlib.Data.List.Chain
import MailMerge.Proofs.Text.Lines

namespace MailMerge.Text

/-- A text with every line feed written as `ending`. -/
def withLineEnding (ending text : List Char) : List Char :=
  text.flatMap fun c => if c = '\n' then ending else [c]

/-- A character in a text of variable line style. -/
inductive Glyph where
  /-- A line end, written in the style of the text. -/
  | lineEnd
  /-- A character that is the same in every style, line breaks included. -/
  | char (c : Char)
  deriving DecidableEq, Repr

/-- A glyph in the style that ends lines with `ending`. -/
def Glyph.write (ending : List Char) : Glyph → List Char
  | .lineEnd => ending
  | .char c => [c]

/-- A text in the style that ends lines with `ending`. -/
def writeGlyphs (ending : List Char) (glyphs : List Glyph) : List Char :=
  glyphs.flatMap (Glyph.write ending)

/-- A carriage return before a line end; the two are one line break where lines end with a line
feed. -/
def Glyph.ReturnMeetsEnd (first second : Glyph) : Prop :=
  first = .char '\r' ∧ second = .lineEnd

/-- A line end before a line feed; the two are one line break where lines end with a carriage
return. -/
def Glyph.EndMeetsFeed (first second : Glyph) : Prop :=
  first = .lineEnd ∧ second = .char '\n'

/-- No two neighbours are one line break in one style and two in another. -/
def Seamless (glyphs : List Glyph) : Prop :=
  glyphs.IsChain fun first second =>
    ¬ first.ReturnMeetsEnd second ∧ ¬ first.EndMeetsFeed second

/-! ## Texts with added line feeds -/

/-- The second text is the first with `n` line feeds added, each behind another one. -/
inductive Padded : Nat → List Char → List Char → Prop
  | nil : Padded 0 [] []
  | same {n : Nat} {first second : List Char} (c : Char) :
      Padded n first second → Padded n (c :: first) (c :: second)
  | extra {n : Nat} {first second : List Char} :
      Padded n first second → Padded (n + 1) ('\n' :: first) ('\n' :: '\n' :: second)

namespace Padded

variable {n : Nat} {first second : List Char}

theorem length_eq (padded : Padded n first second) : second.length = first.length + n := by
  induction padded with
  | nil => rfl
  | same c _ ih => simp only [List.length_cons, ih]; omega
  | extra _ ih => simp only [List.length_cons, ih]; omega

/-- Nothing is added exactly when the texts are equal. -/
theorem eq_iff (padded : Padded n first second) : first = second ↔ n = 0 := by
  constructor
  · intro heq
    have hlength := padded.length_eq
    rw [heq] at hlength
    omega
  · intro hzero
    induction padded with
    | nil => rfl
    | same c _ ih => rw [ih hzero]
    | extra => cases hzero

theorem head?_eq (padded : Padded n first second) : first.head? = second.head? := by
  cases padded <;> rfl

/-- An added line feed ends the header block earlier or makes the body longer. -/
theorem exists_splitAtEmptyLine (padded : Padded n first second) {before after : List Char}
    (hsplit : splitAtEmptyLine first = some (before, after)) :
    ∃ before' after', splitAtEmptyLine second = some (before', after') ∧
      after.length + n ≤ after'.length := by
  induction padded generalizing before after with
  | nil => cases hsplit
  | @same n first second c padded ih =>
      by_cases hempty : c = '\n' ∧ first.head? = some '\n'
      · obtain ⟨rfl, hfirst⟩ := hempty
        obtain ⟨first, rfl⟩ := List.head?_eq_some_iff.1 hfirst
        obtain ⟨second, rfl⟩ := List.head?_eq_some_iff.1 (padded.head?_eq ▸ hfirst)
        cases hsplit
        have hlength := padded.length_eq
        rw [List.length_cons, List.length_cons] at hlength
        exact ⟨[], second, rfl, by omega⟩
      · have inside : c = '\n' → first.head? ≠ some '\n' := fun hc hfirst =>
          hempty ⟨hc, hfirst⟩
        rw [splitAtEmptyLine_cons inside] at hsplit
        obtain ⟨⟨before, after⟩, hrest, heq⟩ := Option.map_eq_some_iff.1 hsplit
        cases heq
        obtain ⟨before', after', hsecond, hlength⟩ := ih hrest
        rw [padded.head?_eq] at inside
        refine ⟨c :: before', after', ?_, hlength⟩
        rw [splitAtEmptyLine_cons inside, hsecond, Option.map_some]
  | @extra n first second padded _ =>
      have hlength := padded.length_eq
      have htext := congrArg List.length (eq_append_of_splitAtEmptyLine hsplit)
      simp only [List.length_cons, List.length_append] at htext
      exact ⟨[], second, rfl, by omega⟩

end Padded

/-! ## The three styles -/

/-- A character before two texts keeps the difference between them once they are unified, unless
it is a carriage return that a line feed follows in one of them. -/
theorem Padded.unifyLineEndings_cons {n : Nat} {c : Char} {first second : List Char}
    (padded : Padded n (unifyLineEndings first) (unifyLineEndings second))
    (hfirst : c = '\r' → first.head? ≠ some '\n')
    (hsecond : c = '\r' → second.head? ≠ some '\n') :
    Padded n (unifyLineEndings (c :: first)) (unifyLineEndings (c :: second)) := by
  by_cases hc : c = '\r'
  · subst hc
    rw [unifyLineEndings_return_cons (hfirst rfl), unifyLineEndings_return_cons (hsecond rfl)]
    exact .same '\n' padded
  · rw [Text.unifyLineEndings_cons hc, Text.unifyLineEndings_cons hc]
    exact .same c padded

theorem head?_writeGlyphs_return (glyphs : List Glyph) :
    (writeGlyphs ['\r'] glyphs).head? = some '\n' ↔ glyphs.head? = some (.char '\n') := by
  cases glyphs with
  | nil => simp [writeGlyphs]
  | cons glyph rest => cases glyph <;> simp [writeGlyphs, Glyph.write]

theorem head?_writeGlyphs_feed (glyphs : List Glyph) :
    (writeGlyphs ['\n'] glyphs).head? = some '\n' ↔
      glyphs.head? = some .lineEnd ∨ glyphs.head? = some (.char '\n') := by
  cases glyphs with
  | nil => simp [writeGlyphs]
  | cons glyph rest => cases glyph <;> simp [writeGlyphs, Glyph.write]

theorem head?_writeGlyphs_both (glyphs : List Glyph) :
    (writeGlyphs ['\r', '\n'] glyphs).head? = some '\n' ↔ glyphs.head? = some (.char '\n') := by
  cases glyphs with
  | nil => simp [writeGlyphs]
  | cons glyph rest => cases glyph <;> simp [writeGlyphs, Glyph.write]

/-- Where lines end with both characters, every carriage return before a line end is a line break
more than where they end with a line feed. -/
theorem exists_padded_feed_both : (glyphs : List Glyph) →
    ∃ n, Padded n (unifyLineEndings (writeGlyphs ['\n'] glyphs))
        (unifyLineEndings (writeGlyphs ['\r', '\n'] glyphs)) ∧
      (n = 0 ↔ glyphs.IsChain fun first second => ¬ first.ReturnMeetsEnd second)
  | [] => ⟨0, .nil, by simp⟩
  | .lineEnd :: rest => by
      obtain ⟨n, padded, hn⟩ := exists_padded_feed_both rest
      refine ⟨n, .same '\n' padded, hn.trans ?_⟩
      simp [List.isChain_cons, Glyph.ReturnMeetsEnd]
  | .char c :: rest => by
      by_cases hend : c = '\r' ∧ rest.head? = some .lineEnd
      · -- The seam: one line break on the left, and on the right two.
        obtain ⟨rfl, hrest⟩ := hend
        obtain ⟨rest, rfl⟩ := List.head?_eq_some_iff.1 hrest
        obtain ⟨n, padded, -⟩ := exists_padded_feed_both rest
        refine ⟨n + 1, .extra padded, ?_⟩
        simp [Glyph.ReturnMeetsEnd]
      · by_cases hfeed : c = '\r' ∧ rest.head? = some (.char '\n')
        · -- A line break that a value brings along is one in every style.
          obtain ⟨rfl, hrest⟩ := hfeed
          obtain ⟨rest, rfl⟩ := List.head?_eq_some_iff.1 hrest
          obtain ⟨n, padded, hn⟩ := exists_padded_feed_both rest
          refine ⟨n, .same '\n' padded, hn.trans ?_⟩
          simp [List.isChain_cons, Glyph.ReturnMeetsEnd]
        · obtain ⟨n, padded, hn⟩ := exists_padded_feed_both rest
          refine ⟨n, padded.unifyLineEndings_cons ?_ ?_, hn.trans ?_⟩
          · intro hc hhead
            rcases (head?_writeGlyphs_feed rest).1 hhead with hrest | hrest
            · exact hend ⟨hc, hrest⟩
            · exact hfeed ⟨hc, hrest⟩
          · intro hc hhead
            exact hfeed ⟨hc, (head?_writeGlyphs_both rest).1 hhead⟩
          · rw [List.isChain_cons, iff_and_self]
            rintro - next hnext ⟨hc, rfl⟩
            exact hend ⟨Glyph.char.inj hc, hnext⟩
termination_by glyphs => glyphs.length

/-- Where lines end with both characters, every line end before a line feed is a line break more
than where they end with a carriage return. -/
theorem exists_padded_return_both : (glyphs : List Glyph) →
    ∃ n, Padded n (unifyLineEndings (writeGlyphs ['\r'] glyphs))
        (unifyLineEndings (writeGlyphs ['\r', '\n'] glyphs)) ∧
      (n = 0 ↔ glyphs.IsChain fun first second => ¬ first.EndMeetsFeed second)
  | [] => ⟨0, .nil, by simp⟩
  | .lineEnd :: rest => by
      by_cases hfeed : rest.head? = some (.char '\n')
      · -- The seam: the line feed of a value completes the line end on the left.
        obtain ⟨rest, rfl⟩ := List.head?_eq_some_iff.1 hfeed
        obtain ⟨n, padded, -⟩ := exists_padded_return_both rest
        refine ⟨n + 1, .extra padded, ?_⟩
        simp [Glyph.EndMeetsFeed]
      · obtain ⟨n, padded, hn⟩ := exists_padded_return_both rest
        have hfirst : (writeGlyphs ['\r'] rest).head? ≠ some '\n' := by
          simp [head?_writeGlyphs_return, hfeed]
        refine ⟨n, ?_, hn.trans ?_⟩
        · show Padded n (unifyLineEndings ('\r' :: writeGlyphs ['\r'] rest))
            ('\n' :: unifyLineEndings (writeGlyphs ['\r', '\n'] rest))
          rw [unifyLineEndings_return_cons hfirst]
          exact .same '\n' padded
        · rw [List.isChain_cons, iff_and_self]
          rintro - next hnext ⟨-, rfl⟩
          exact hfeed hnext
  | .char c :: rest => by
      by_cases hfeed : c = '\r' ∧ rest.head? = some (.char '\n')
      · obtain ⟨rfl, hrest⟩ := hfeed
        obtain ⟨rest, rfl⟩ := List.head?_eq_some_iff.1 hrest
        obtain ⟨n, padded, hn⟩ := exists_padded_return_both rest
        refine ⟨n, .same '\n' padded, hn.trans ?_⟩
        simp [List.isChain_cons, Glyph.EndMeetsFeed]
      · obtain ⟨n, padded, hn⟩ := exists_padded_return_both rest
        refine ⟨n, padded.unifyLineEndings_cons ?_ ?_, hn.trans ?_⟩
        · intro hc hhead
          exact hfeed ⟨hc, (head?_writeGlyphs_return rest).1 hhead⟩
        · intro hc hhead
          exact hfeed ⟨hc, (head?_writeGlyphs_both rest).1 hhead⟩
        · simp [List.isChain_cons, Glyph.EndMeetsFeed]
termination_by glyphs => glyphs.length

/-- A text is seamless when it has neither kind of seam. -/
theorem seamless_iff {glyphs : List Glyph} :
    Seamless glyphs ↔
      (glyphs.IsChain fun first second => ¬ first.ReturnMeetsEnd second) ∧
      (glyphs.IsChain fun first second => ¬ first.EndMeetsFeed second) := by
  unfold Seamless
  induction glyphs with
  | nil => simp
  | cons glyph rest ih =>
      rw [List.isChain_cons, List.isChain_cons, List.isChain_cons, ih]
      constructor
      · rintro ⟨here, returns, ends⟩
        exact ⟨⟨fun next hnext => (here next hnext).1, returns⟩,
          fun next hnext => (here next hnext).2, ends⟩
      · rintro ⟨⟨hreturn, returns⟩, hend, ends⟩
        exact ⟨fun next hnext => ⟨hreturn next hnext, hend next hnext⟩, returns, ends⟩

/-- In a seamless text the style of the line ends makes no difference. -/
theorem Seamless.unifyLineEndings_eq {glyphs : List Glyph} (seamless : Seamless glyphs) :
    unifyLineEndings (writeGlyphs ['\r', '\n'] glyphs) =
        unifyLineEndings (writeGlyphs ['\n'] glyphs) ∧
      unifyLineEndings (writeGlyphs ['\r'] glyphs) =
        unifyLineEndings (writeGlyphs ['\n'] glyphs) := by
  obtain ⟨returns, ends⟩ := seamless_iff.1 seamless
  obtain ⟨n, feedPadded, hn⟩ := exists_padded_feed_both glyphs
  obtain ⟨m, returnPadded, hm⟩ := exists_padded_return_both glyphs
  have hfeed := feedPadded.eq_iff.2 (hn.2 returns)
  have hreturn := returnPadded.eq_iff.2 (hm.2 ends)
  exact ⟨hfeed.symm, hreturn.trans hfeed.symm⟩

end MailMerge.Text
