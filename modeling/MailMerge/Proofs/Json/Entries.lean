/-
# Entries of an object

A text that is an object gives its entries one after the other, perhaps with the same key more than
once. What is read from it depends on nothing but the value that each key has at last: objects are
kept in the order of their keys, so those that agree on every key are the same.
-/

import Mathlib.Data.List.Induction
import Mathlib.Data.List.Nodup
import MailMerge.Proofs.Json.Reader

namespace MailMerge.Json

open MailMerge.Stage

/-! ## Members -/

namespace Members

/-- Of two values that are given to a key the later stays. -/
theorem insert_insert (members : Members) (key : String) (first second : Value) :
    (members.insert key first).insert key second = members.insert key second := by
  induction members with
  | nil => simp [insert]
  | cons member rest ih =>
      obtain ⟨name, held⟩ := member
      by_cases hbefore : key < name
      · simp [insert, hbefore]
      · by_cases hsame : key = name
        · simp [insert, hsame]
        · simp [insert, hbefore, hsame, ih]

/-- Different keys may be given their values in either order. -/
theorem insert_comm (members : Members) {first second : String} (different : first ≠ second)
    (value held : Value) :
    (members.insert first value).insert second held =
      (members.insert second held).insert first value := by
  induction members with
  | nil => grind [insert]
  | cons member rest ih => grind [insert]

theorem nodup_of_pairwise_keys {members : Members} (ordered : members.keys.Pairwise (· < ·)) :
    members.Nodup :=
  List.Nodup.of_map Prod.fst (ordered.imp fun hlt => String.ne_of_lt hlt)

/-- Members that give every key the same value are the same. -/
theorem ext_get? {first second : Members} (hfirst : first.keys.Pairwise (· < ·))
    (hsecond : second.keys.Pairwise (· < ·)) (same : ∀ key, first.get? key = second.get? key) :
    first = second := by
  have hperm : first.Perm second := by
    refine (List.perm_ext_iff_of_nodup (nodup_of_pairwise_keys hfirst)
      (nodup_of_pairwise_keys hsecond)).2 fun member => ?_
    rw [← get?_eq_some_iff hfirst, ← get?_eq_some_iff hsecond, same]
  refine hperm.eq_of_pairwise ?_ (List.pairwise_map.1 hfirst) (List.pairwise_map.1 hsecond)
  exact fun _ _ _ _ hlt hgt => absurd hgt (String.lt_asymm hlt)

/-- The value that a key has at last. -/
def finalValue? (entries : List (String × Value)) (key : String) : Option Value :=
  ((entries.filter fun entry => entry.1 = key).getLast?).map Prod.snd

theorem finalValue?_append_singleton (entries : List (String × Value)) (entry : String × Value)
    (key : String) :
    finalValue? (entries ++ [entry]) key =
      if entry.1 = key then some entry.2 else finalValue? entries key := by
  by_cases hkey : entry.1 = key
  · simp [finalValue?, List.filter_append, hkey]
  · simp [finalValue?, List.filter_append, hkey]

theorem get?_ofList (entries : List (String × Value)) (key : String) :
    (ofList entries).get? key = finalValue? entries key := by
  induction entries using List.reverseRecOn with
  | nil => rfl
  | append_singleton entries entry ih =>
      rw [ofList, List.foldl_append]
      rw [finalValue?_append_singleton, ← ih]
      exact get?_insert key

/-- Entries that give every key the same value at last make the same members. -/
theorem ofList_congr {first second : List (String × Value)}
    (same : ∀ key, finalValue? first key = finalValue? second key) :
    ofList first = ofList second := by
  refine ext_get? (pairwise_keys_ofList first) (pairwise_keys_ofList second) fun key => ?_
  rw [get?_ofList, get?_ofList, same]

end Members

/-! ## Texts -/

/-- A member of an outline gives an entry if it has a key and a value of at most this depth. -/
def GivesEntry (room : Nat) (outline : Option String × Outline) (entry : String × Value) : Prop :=
  outline.1 = some entry.1 ∧ outline.2.toValue room = .ok entry.2

/-- A text is an object with these entries, in the order of the text and each as often as it is
given. -/
def IsObjectText (text : String) (entries : List (String × Value)) : Prop :=
  ∃ outlines, Document.of text = ⟨.object outlines .closed, []⟩ ∧
    List.Forall₂ (GivesEntry (nestingLimit - 1)) outlines entries

/-- Members are read when each of them gives an entry, and the entries are inserted in order. -/
theorem readMembers_eq_ok_iff {room : Nat} {outlines : List (Option String × Outline)}
    {before members : Members} :
    readMembers room before outlines = .ok members ↔
      ∃ entries, List.Forall₂ (GivesEntry room) outlines entries ∧
        entries.foldl (fun members (key, value) => members.insert key value) before = members := by
  induction outlines generalizing before with
  | nil => simp [readMembers]
  | cons outline outlines ih =>
      obtain ⟨key?, inner⟩ := outline
      rw [readMembers, bind_eq_ok_iff]
      simp only [bind_eq_ok_iff, ih]
      constructor
      · rintro ⟨key, hkey, value, hvalue, entries, hentries, hmembers⟩
        cases key? with
        | none => cases hkey
        | some name =>
            cases hkey
            exact ⟨(key, value) :: entries, .cons ⟨rfl, hvalue⟩ hentries, hmembers⟩
      · rintro ⟨entries, hentries, hmembers⟩
        cases hentries with
        | @cons _ entry _ entries hfirst hentries =>
            obtain ⟨rfl, hvalue⟩ := hfirst
            exact ⟨entry.1, rfl, entry.2, hvalue, entries, hentries, hmembers⟩

/-- Only an object that is closed and has room is read as an object. -/
theorem toValue_eq_object_iff {room : Nat} {outline : Outline} {members : Members} :
    outline.toValue room = .ok (.object members) ↔
      room ≠ 0 ∧ ∃ outlines, outline = .object outlines .closed ∧
        readMembers (room - 1) [] outlines = .ok members := by
  cases outline with
  | null | bool | missing => simp [Outline.toValue]
  | number number? => cases number? <;> simp [Outline.toValue]
  | string string? => cases string? <;> simp [Outline.toValue]
  | array items ending =>
      rw [Outline.toValue]
      split <;> simp [bind_eq_ok_iff]
  | object outlines ending =>
      rw [Outline.toValue]
      split
      · simp [*]
      · cases ending with
        | broken rest => simp [bind_eq_ok_iff, Ending.check, *]
        | closed => simp [bind_eq_ok_iff, Ending.check, *]

/-- The texts that are read as objects are those with entries, and the members read are those that
the entries make. -/
theorem parse_eq_object_iff {text : String} {members : Members} :
    Value.parse text = .ok (.object members) ↔
      ∃ entries, IsObjectText text entries ∧ Members.ofList entries = members := by
  rw [Value.parse, readDocument]
  simp only [bind_eq_ok_iff]
  constructor
  · rintro ⟨value, hvalue, hdone⟩
    split at hdone
    · next hempty =>
        cases hdone
        obtain ⟨-, outlines, hroot, hread⟩ := toValue_eq_object_iff.1 hvalue
        obtain ⟨entries, hentries, hmembers⟩ := readMembers_eq_ok_iff.1 hread
        refine ⟨entries, ⟨outlines, ?_, hentries⟩, hmembers⟩
        rw [← hroot, ← List.isEmpty_iff.1 hempty]
    · cases hdone
  · rintro ⟨entries, ⟨outlines, hdocument, hentries⟩, rfl⟩
    rw [hdocument]
    have hread : readMembers (nestingLimit - 1) [] outlines = .ok (Members.ofList entries) :=
      readMembers_eq_ok_iff.2 ⟨entries, hentries, rfl⟩
    exact ⟨_, toValue_eq_object_iff.2 ⟨by decide, outlines, rfl, hread⟩, rfl⟩

theorem IsObjectText.parse_eq {text : String} {entries : List (String × Value)}
    (spelled : IsObjectText text entries) :
    Value.parse text = .ok (.object (Members.ofList entries)) :=
  parse_eq_object_iff.2 ⟨entries, spelled, rfl⟩

end MailMerge.Json
