/-
# JSON text stands on one line

The text of a value is never empty and holds no line break, however deep the value
is: strings escape their line breaks, keys are strings, and everything else is made
of digits and marks.
-/

import MailMerge.Proofs.Json.Shape
import MailMerge.Proofs.Text.Numeral

namespace MailMerge.Decimal

open MailMerge.Text

/-- The parts of a layout hold no line break. -/
structure FloatLayout.IsUnbroken (layout : FloatLayout) : Prop where
  wholeSuffix : Unbroken layout.wholeSuffix
  exponentMark : Unbroken layout.exponentMark
  positiveExponentSign : Unbroken layout.positiveExponentSign

namespace FloatLayout

variable {layout : FloatLayout} {digits : List Char}

theorem IsUnbroken.positional (plain : layout.IsUnbroken) (hdigits : Unbroken digits)
    (leading : Int) : Unbroken (layout.positional digits leading) := by
  have hzeros (n : Nat) : Unbroken (List.replicate n '0') := unbroken_replicate (by decide) n
  unfold FloatLayout.positional
  split
  · simp [hzeros, hdigits]
  · dsimp only
    split
    · simp [hzeros, hdigits, plain.wholeSuffix]
    · simp [hdigits.of_subset (List.take_subset ..), hdigits.of_subset (List.drop_subset ..)]

theorem IsUnbroken.scientific (plain : layout.IsUnbroken) (hdigits : Unbroken digits)
    (leading : Int) : Unbroken (layout.scientific digits leading) := by
  have hsign : Unbroken (if leading < 0 then ['-'] else layout.positiveExponentSign) := by
    split
    · decide
    · exact plain.positiveExponentSign
  simp only [FloatLayout.scientific, unbroken_append]
  refine ⟨⟨⟨⟨hdigits.of_subset (List.take_subset ..), ?_⟩, plain.exponentMark⟩, hsign⟩,
    unbroken_decimalDigits _⟩
  split
  · exact unbroken_nil
  · exact unbroken_cons.2 ⟨by decide, hdigits.of_subset (List.drop_subset ..)⟩

theorem IsUnbroken.write (plain : layout.IsUnbroken) (x : Float) : Unbroken (layout.write x) := by
  have hsign : Unbroken (if (Magnitude.of x).negative then ['-'] else []) := by
    split <;> decide
  unfold FloatLayout.write
  dsimp only
  split
  · simp [hsign, plain.wholeSuffix]
  · split
    · exact unbroken_append.2 ⟨hsign, plain.positional (unbroken_decimalDigits _) _⟩
    · exact unbroken_append.2 ⟨hsign, plain.scientific (unbroken_decimalDigits _) _⟩

theorem positional_ne_nil (layout : FloatLayout) (hdigits : digits ≠ []) (leading : Int) :
    layout.positional digits leading ≠ [] := by
  unfold FloatLayout.positional
  split
  · exact List.cons_ne_nil _ _
  · dsimp only
    split
    · simp [hdigits]
    · simp

theorem write_ne_nil (layout : FloatLayout) (x : Float) : layout.write x ≠ [] := by
  have hdigits (n : Nat) := decimalDigits_ne_nil n
  unfold FloatLayout.write
  dsimp only
  split
  · simp
  · split
    · simp [positional_ne_nil layout (hdigits _)]
    · simp [FloatLayout.scientific, hdigits]

end FloatLayout

end MailMerge.Decimal

namespace MailMerge.Json

open MailMerge.Text

theorem unbroken_escapeChar (c : Char) : Unbroken (escapeChar c) := by
  have hhex : ∀ value < 16, hexDigitLower value ≠ '\r' ∧ hexDigitLower value ≠ '\n' := by decide
  by_cases hcontrol : c.toNat < 32
  · have hhigh := hhex (c.toNat / 16) (by omega)
    have hlow := hhex (c.toNat % 16) (by omega)
    simp only [escapeChar, hcontrol, if_true]
    repeat' split
    all_goals simp [hhigh, hlow]
  · have hplain : c ≠ '\r' ∧ c ≠ '\n' := by
      refine ⟨?_, ?_⟩
      · rintro rfl
        exact hcontrol (by decide)
      · rintro rfl
        exact hcontrol (by decide)
    simp only [escapeChar, hcontrol, if_false]
    repeat' split
    all_goals simp [hplain]

/-- A string is written on one line, since its line breaks are escaped. -/
theorem unbroken_writeString (s : String) : Unbroken (writeString s) := by
  have hbody : Unbroken (s.toList.flatMap escapeChar) := by
    rw [unbroken_iff]
    intro c hc
    obtain ⟨d, -, hc⟩ := List.mem_flatMap.1 hc
    exact unbroken_iff.1 (unbroken_escapeChar d) c hc
  simp [writeString, hbody]

theorem Number.unbroken_write (n : Number) : Unbroken n.write := by
  cases n with
  | integer n =>
      rw [Number.write]
      split <;> simp [unbroken_decimalDigits]
  | float x => exact Decimal.FloatLayout.IsUnbroken.write ⟨by decide, by decide, by decide⟩ x

theorem Number.write_ne_nil (n : Number) : n.write ≠ [] := by
  cases n with
  | integer n =>
      rw [Number.write]
      split <;> simp [decimalDigits_ne_nil]
  | float x => exact floatLayout.write_ne_nil x

theorem unbroken_writeArray {items : List (List Char)} (hitems : ∀ item ∈ items, Unbroken item) :
    Unbroken (writeArray items) := by
  have hcomma : Unbroken [','] := by decide
  simp [writeArray, unbroken_joinWith hcomma hitems]

theorem unbroken_writeObject {members : List (String × List Char)}
    (hmembers : ∀ member ∈ members, Unbroken member.2) : Unbroken (writeObject members) := by
  have hcomma : Unbroken [','] := by decide
  rw [writeObject, List.cons_append, unbroken_cons, unbroken_append]
  refine ⟨by decide, unbroken_joinWith hcomma ?_, by decide⟩
  intro row hrow
  obtain ⟨⟨key, value⟩, hmember, rfl⟩ := List.mem_map.1 hrow
  have hvalue := hmembers _ hmember
  exact unbroken_append.2 ⟨unbroken_writeString key, unbroken_cons.2 ⟨by decide, hvalue⟩⟩

/-- The text of a value holds no line break. -/
theorem Value.unbroken_write (value : Value) : Unbroken value.write := by
  induction value with
  | null => rw [Value.write]; decide
  | bool b => cases b <;> rw [Value.write] <;> decide
  | number n => exact n.unbroken_write
  | string s => exact unbroken_writeString s
  | array items ih =>
      rw [Value.write, writeItems_eq_map]
      exact unbroken_writeArray (List.forall_mem_map.2 ih)
  | object members ih =>
      rw [Value.write, writeMembers_eq_map]
      exact unbroken_writeObject (List.forall_mem_map.2 ih)

/-- The text of a value is not empty. -/
theorem Value.write_ne_nil (value : Value) : value.write ≠ [] := by
  rcases value with _ | (_ | _) | n | s | items | members
  all_goals rw [Value.write]
  · decide
  · decide
  · decide
  · exact n.write_ne_nil
  · simp [writeString]
  · simp [writeArray]
  · simp [writeObject]

end MailMerge.Json
