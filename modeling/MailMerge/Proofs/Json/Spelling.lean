/-
# Texts that spell outlines

A text spells an outline when reading it, wherever a value may begin, comes down to handing
on the outline. Written strings, integers and words spell scalars, and brackets and braces
around spellings spell arrays and objects, so that what is written of an exact value spells
the outline of the value.
-/

import Mathlib.Data.List.Forall2
import MailMerge.Proofs.Json.Scan
import MailMerge.Proofs.Json.Shape

namespace MailMerge.Json

open MailMerge.Text

/-- Hand a finished value on: to the innermost open part, or as the whole outline. -/
def deliver (outline : Outline) (parts : List OpenPart) (tokens : List Token) :
    Outline × List Token :=
  match parts with
  | [] => (outline, tokens)
  | part :: parts => readOutline .separator (part.add outline :: parts) tokens

/-- A value may begin here. -/
def Awaited.AllowsValue (awaited : Awaited) : Prop :=
  awaited = .value ∨ awaited = .firstItem

/-- A key may begin here. -/
def Awaited.AllowsKey (awaited : Awaited) : Prop :=
  awaited = .key ∨ awaited = .firstMember

/-- Reading the text comes down to handing on the outline, whatever else is open or follows. -/
def Spells (text : List Char) (outline : Outline) : Prop :=
  ∀ awaited parts rest, Awaited.AllowsValue awaited → EndsNumber rest →
    readOutline awaited parts (lex (text ++ rest)) = deliver outline parts (lex rest)

section Reading

variable {awaited : Awaited} {parts : List OpenPart} {tokens : List Token}

theorem readOutline_scalar {token : Token} {outline : Outline} (allowed : awaited.AllowsValue)
    (hscalar : token.scalar? = some outline) :
    readOutline awaited parts (token :: tokens) = deliver outline parts tokens := by
  rcases allowed with rfl | rfl
  all_goals
    cases token <;> cases hscalar <;> cases parts <;> rfl

theorem readOutline_openBracket (allowed : awaited.AllowsValue) :
    readOutline awaited parts (.openBracket :: tokens) =
      readOutline .firstItem (.array [] :: parts) tokens := by
  rcases allowed with rfl | rfl
  all_goals
    cases parts <;> rfl

theorem readOutline_openBrace (allowed : awaited.AllowsValue) :
    readOutline awaited parts (.openBrace :: tokens) =
      readOutline .firstMember (.object [] :: parts) tokens := by
  rcases allowed with rfl | rfl
  all_goals
    cases parts <;> rfl

theorem readOutline_key (allowed : awaited.AllowsKey) (before : List (Option String × Outline))
    (key : Option String) :
    readOutline awaited (.object before :: parts) (.string key :: .colon :: tokens) =
      readOutline .value (.member before key :: parts) tokens := by
  rcases allowed with rfl | rfl
  all_goals
    rfl

theorem readOutline_closeBracket (items : List Outline) :
    readOutline .separator (.array items :: parts) (.closeBracket :: tokens) =
      deliver (.array items.reverse .closed) parts tokens := by
  cases parts <;> rfl

theorem readOutline_closeBrace (members : List (Option String × Outline)) :
    readOutline .separator (.object members :: parts) (.closeBrace :: tokens) =
      deliver (.object members.reverse .closed) parts tokens := by
  cases parts <;> rfl

/-- Behind a comma stands the next item. -/
theorem readOutline_nextItem (items : List Outline) :
    readOutline .separator (.array items :: parts) (.comma :: tokens) =
      readOutline .value (.array items :: parts) tokens := rfl

/-- Behind a comma stands the next key. -/
theorem readOutline_nextKey (members : List (Option String × Outline)) :
    readOutline .separator (.object members :: parts) (.comma :: tokens) =
      readOutline .key (.object members :: parts) tokens := rfl

end Reading

/-! ## Scalars -/

theorem spells_string (s : String) : Spells (writeString s) (.string (some s)) := by
  intro awaited parts rest allowed _
  rw [lex_writeString, readOutline_scalar allowed rfl]

theorem spells_integer (n : Integer) :
    Spells (Number.integer n).write (.number (some (.integer n))) := by
  intro awaited parts rest allowed ends
  rw [lex_write_integer n ends, readOutline_scalar allowed rfl]

theorem spells_null : Spells ['n', 'u', 'l', 'l'] .null := by
  intro awaited parts rest allowed _
  exact (congrArg _ (lex_null rest)).trans (readOutline_scalar allowed rfl)

theorem spells_true : Spells ['t', 'r', 'u', 'e'] (.bool true) := by
  intro awaited parts rest allowed _
  exact (congrArg _ (lex_true rest)).trans (readOutline_scalar allowed rfl)

theorem spells_false : Spells ['f', 'a', 'l', 's', 'e'] (.bool false) := by
  intro awaited parts rest allowed _
  exact (congrArg _ (lex_false rest)).trans (readOutline_scalar allowed rfl)

/-! ## Arrays and objects -/

theorem joinWith_append (first second : List Char) (others : List (List Char))
    (rest : List Char) :
    joinWith [','] (first :: second :: others) ++ rest =
      first ++ ',' :: (joinWith [','] (second :: others) ++ rest) := by
  rw [joinWith.eq_3 _ _ _ (List.cons_ne_nil _ _), List.append_assoc, List.append_assoc,
    List.singleton_append]

/-- Items parted by commas are read one after the other up to the closing bracket. -/
theorem readOutline_items {texts : List (List Char)} {outlines : List Outline}
    (spelled : List.Forall₂ Spells texts outlines) (nonempty : texts ≠ []) {awaited : Awaited}
    (allowed : awaited.AllowsValue) (before : List Outline) (parts : List OpenPart)
    (rest : List Char) :
    readOutline awaited (.array before :: parts) (lex (joinWith [','] texts ++ ']' :: rest)) =
      deliver (.array (before.reverse ++ outlines) .closed) parts (lex rest) := by
  induction spelled generalizing awaited before with
  | nil => exact absurd rfl nonempty
  | @cons text outline texts outlines hfirst hothers ih =>
      cases hothers with
      | nil =>
          rw [joinWith, hfirst _ _ _ allowed (endsNumber_cons.2 (by decide)), lex_closeBracket,
            deliver, OpenPart.add, readOutline_closeBracket, List.reverse_cons]
      | @cons second _ texts _ hsecond hothers =>
          rw [joinWith_append, hfirst _ _ _ allowed (endsNumber_cons.2 (by decide)), lex_comma,
            deliver, OpenPart.add, readOutline_nextItem, ih (List.cons_ne_nil _ _) (.inl rfl),
            List.reverse_cons, List.append_assoc, List.singleton_append]

/-- Spelled items in brackets spell an array. -/
theorem spells_array {texts : List (List Char)} {outlines : List Outline}
    (spelled : List.Forall₂ Spells texts outlines) :
    Spells (writeArray texts) (.array outlines .closed) := by
  intro awaited parts rest allowed _
  rw [writeArray, List.append_assoc, List.cons_append, List.singleton_append, lex_openBracket,
    readOutline_openBracket allowed]
  cases spelled with
  | nil =>
      rw [joinWith, List.nil_append, lex_closeBracket]
      cases parts <;> rfl
  | cons hfirst hothers =>
      exact readOutline_items (.cons hfirst hothers) (List.cons_ne_nil _ _) (.inr rfl) [] parts rest

/-- The text of a key with a written value. -/
def writeMember (member : String × List Char) : List Char :=
  writeString member.1 ++ ':' :: member.2

theorem writeObject_eq (members : List (String × List Char)) :
    writeObject members = '\x7b' :: (joinWith [','] (members.map writeMember) ++ ['\x7d']) :=
  rfl

/-- A written key with a value that spells the outline of the member. -/
structure SpellsMember (member : String × List Char) (outline : Option String × Outline) :
    Prop where
  key : outline.1 = some member.1
  value : Spells member.2 outline.2

theorem Spells.member {text : List Char} {outline : Outline} (spelled : Spells text outline)
    (key : String) : SpellsMember (key, text) (some key, outline) :=
  ⟨rfl, spelled⟩

/-- A key, a colon and a spelled value are read as a member. -/
theorem SpellsMember.readOutline_append {member : String × List Char}
    {outline : Option String × Outline} (spelled : SpellsMember member outline)
    {awaited : Awaited} (allowed : awaited.AllowsKey) (before : List (Option String × Outline))
    (parts : List OpenPart) {rest : List Char} (ends : EndsNumber rest) :
    readOutline awaited (.object before :: parts)
        (lex (writeMember member ++ rest)) =
      readOutline .separator (.object (outline :: before) :: parts) (lex rest) := by
  obtain ⟨key, value⟩ := outline
  obtain ⟨rfl, hvalue⟩ := spelled
  rw [writeMember, List.append_assoc, List.cons_append, lex_writeString, lex_colon,
    readOutline_key allowed, hvalue _ _ _ (.inl rfl) ends, deliver, OpenPart.add]

/-- Members parted by commas are read one after the other up to the closing brace. -/
theorem readOutline_members {members : List (String × List Char)}
    {outlines : List (Option String × Outline)}
    (spelled : List.Forall₂ SpellsMember members outlines) (nonempty : members ≠ [])
    {awaited : Awaited} (allowed : awaited.AllowsKey) (before : List (Option String × Outline))
    (parts : List OpenPart) (rest : List Char) :
    readOutline awaited (.object before :: parts)
        (lex (joinWith [','] (members.map writeMember) ++ '\x7d' :: rest)) =
      deliver (.object (before.reverse ++ outlines) .closed) parts (lex rest) := by
  induction spelled generalizing awaited before with
  | nil => exact absurd rfl nonempty
  | @cons member outline members outlines hfirst hothers ih =>
      cases hothers with
      | nil =>
          rw [List.map_cons, List.map_nil, joinWith,
            hfirst.readOutline_append allowed _ _ (endsNumber_cons.2 (by decide)), lex_closeBrace,
            readOutline_closeBrace, List.reverse_cons]
      | @cons second _ members _ hsecond hothers =>
          rw [List.map_cons, List.map_cons, joinWith_append,
            hfirst.readOutline_append allowed _ _ (endsNumber_cons.2 (by decide)), lex_comma,
            readOutline_nextKey, ← List.map_cons, ih (List.cons_ne_nil _ _) (.inl rfl),
            List.reverse_cons, List.append_assoc, List.singleton_append]

/-- Spelled members in braces spell an object. -/
theorem spells_object {members : List (String × List Char)}
    {outlines : List (Option String × Outline)}
    (spelled : List.Forall₂ SpellsMember members outlines) :
    Spells (writeObject members) (.object outlines .closed) := by
  intro awaited parts rest allowed _
  rw [writeObject_eq, List.cons_append, List.append_assoc, List.singleton_append, lex_openBrace,
    readOutline_openBrace allowed]
  cases spelled with
  | nil =>
      rw [List.map_nil, joinWith, List.nil_append, lex_closeBrace]
      cases parts <;> rfl
  | cons hfirst hothers =>
      exact readOutline_members (.cons hfirst hothers) (List.cons_ne_nil _ _) (.inr rfl) [] parts
        rest

/-! ## Values -/

theorem spellsMember_writeMembers {members : Members}
    (spelled : ∀ member ∈ members, Spells member.2.write member.2.outline) :
    List.Forall₂ SpellsMember (writeMembers members) (outlineMembers members) := by
  rw [writeMembers_eq_map, outlineMembers_eq_map, List.forall₂_map_left_iff,
    List.forall₂_map_right_iff, List.forall₂_same]
  exact fun member hmember => (spelled member hmember).member member.1

/-- What is written of an exact value spells its outline. -/
theorem Value.spells_write {value : Value} (exact : value.IsExact) :
    Spells value.write value.outline := by
  induction value with
  | null => exact spells_null
  | bool b => cases b <;> first | exact spells_true | exact spells_false
  | number n =>
      cases n with
      | integer n => exact spells_integer n
      | float x => exact absurd (.self _) (exact x)
  | string s => exact spells_string s
  | array items ih =>
      rw [Value.write, Value.outline, writeItems_eq_map, outlineItems_eq_map]
      refine spells_array ?_
      rw [List.forall₂_map_left_iff, List.forall₂_map_right_iff, List.forall₂_same]
      exact fun item hitem => ih item hitem (exact.item hitem)
  | object members ih =>
      rw [Value.write, Value.outline]
      exact spells_object (spellsMember_writeMembers fun member hmember =>
        ih member hmember (exact.member hmember))

/-- A text that spells an outline is that outline, with nothing after it. -/
theorem Spells.document_of {text : List Char} {outline : Outline} (spelled : Spells text outline) :
    Document.of (String.ofList text) = ⟨outline, []⟩ := by
  have hread := spelled .value [] [] (.inl rfl) endsNumber_nil
  rw [List.append_nil] at hread
  rw [Document.of, String.toList_ofList, hread, lex]
  rfl

end MailMerge.Json
