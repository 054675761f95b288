/-
# What recording keeps of the annotations

An entry keeps the annotations of its event one by one. An annotation whose name belongs to
the entry moves to a longer name, and there it takes the place of the annotation that had the
longer name from the beginning. Recording loses an annotation in no other way: an entry holds
exactly those annotations whose place is not taken.
-/

import Mathlib.Data.List.Nodup
import MailMerge.Proofs.Trace.Codec

namespace MailMerge.Trace

open MailMerge.Json MailMerge.Time

/-! ## Names of annotations -/

theorem annotationName_of_mem {name : String} (reserved : name ∈ reservedNames) :
    annotationName name = "annotation." ++ name :=
  if_pos (by simpa using reserved)

theorem annotationName_of_not_mem {name : String} (free : name ∉ reservedNames) :
    annotationName name = name :=
  if_neg (by simpa using free)

/-- The longer name of a name that belongs to entries belongs to none, and comes before it. -/
theorem longer_not_mem_and_lt {name : String} (reserved : name ∈ reservedNames) :
    "annotation." ++ name ∉ reservedNames ∧ "annotation." ++ name < name := by
  revert name
  decide

/-- Two annotations are kept under one name only if one has the longer name of the other. -/
theorem annotationName_eq_iff {first second : String} :
    annotationName first = annotationName second ↔
      first = second ∨ (first ∈ reservedNames ∧ second = "annotation." ++ first) ∨
        (second ∈ reservedNames ∧ first = "annotation." ++ second) := by
  constructor
  · intro heq
    by_cases hfirst : first ∈ reservedNames <;> by_cases hsecond : second ∈ reservedNames
    · rw [annotationName_of_mem hfirst, annotationName_of_mem hsecond] at heq
      exact .inl ((String.append_right_inj _).1 heq)
    · rw [annotationName_of_mem hfirst, annotationName_of_not_mem hsecond] at heq
      exact .inr (.inl ⟨hfirst, heq.symm⟩)
    · rw [annotationName_of_not_mem hfirst, annotationName_of_mem hsecond] at heq
      exact .inr (.inr ⟨hsecond, heq⟩)
    · rw [annotationName_of_not_mem hfirst, annotationName_of_not_mem hsecond] at heq
      exact .inl heq
  · rintro (rfl | ⟨hfirst, rfl⟩ | ⟨hsecond, rfl⟩)
    · rfl
    · rw [annotationName_of_mem hfirst, annotationName_of_not_mem (longer_not_mem_and_lt hfirst).1]
    · rw [annotationName_of_mem hsecond,
        annotationName_of_not_mem (longer_not_mem_and_lt hsecond).1]

/-- Another annotation takes the place of this one, which has its longer name. -/
def IsTaken (annotations : Members) (name : String) : Prop :=
  ∃ other ∈ annotations.keys, other ∈ reservedNames ∧ name = "annotation." ++ other

instance (annotations : Members) (name : String) : Decidable (IsTaken annotations name) :=
  inferInstanceAs (Decidable (∃ other ∈ annotations.keys, other ∈ reservedNames ∧ _))

/-- No place is taken of an annotation whose own name belongs to entries. -/
theorem not_isTaken_of_mem {annotations : Members} {name : String}
    (reserved : name ∈ reservedNames) : ¬ IsTaken annotations name := by
  rintro ⟨other, -, hother, rfl⟩
  exact (longer_not_mem_and_lt hother).1 reserved

/-- Where no place is taken, different annotations are kept under different names. -/
theorem eq_of_annotationName_eq {annotations : Members} {first second : String}
    (hfirst : first ∈ annotations.keys) (hsecond : second ∈ annotations.keys)
    (freeFirst : ¬ IsTaken annotations first) (freeSecond : ¬ IsTaken annotations second)
    (heq : annotationName first = annotationName second) : first = second := by
  rcases annotationName_eq_iff.1 heq with rfl | ⟨hreserved, rfl⟩ | ⟨hreserved, rfl⟩
  · rfl
  · exact absurd ⟨first, hfirst, hreserved, rfl⟩ freeSecond
  · exact absurd ⟨second, hsecond, hreserved, rfl⟩ freeFirst

/-! ## Recording -/

/-- An annotation under the name by which it is kept. -/
def keptPair (pair : String × Value) : String × Value :=
  (annotationName pair.1, pair.2)

/-- The annotations as an entry keeps them. -/
def kept (annotations : Members) : Members :=
  .ofList (annotations.map keptPair)

/-- Every annotation is kept with its own value, under its name or, if this belongs to entries,
under the longer one; and as many are kept as there are. -/
structure KeepsAll (annotations extra : Members) : Prop where
  free : ∀ pair ∈ annotations, pair.1 ∉ reservedNames → extra.get? pair.1 = some pair.2
  reserved : ∀ pair ∈ annotations, pair.1 ∈ reservedNames →
    extra.get? ("annotation." ++ pair.1) = some pair.2
  count : extra.length = annotations.length

section Kept

variable {annotations : Members} {name : String} {value : Value}

/-- An annotation whose place is not taken is kept. -/
theorem get?_kept (ordered : annotations.keys.Pairwise (· < ·))
    (hpair : (name, value) ∈ annotations) (free : ¬ IsTaken annotations name) :
    (kept annotations).get? (annotationName name) = some value := by
  obtain ⟨before, after, rfl⟩ := List.append_of_mem hpair
  rw [kept, List.map_append, List.map_cons]
  apply Members.get?_ofList_append_cons
  -- Of two names that are kept as one the longer comes first, so none that follows is kept here.
  rw [List.map_map, List.mem_map]
  rintro ⟨⟨later, held⟩, hlater, hsame⟩
  have hkeys : (Members.keys (before ++ (name, value) :: after)) =
      Members.keys before ++ name :: Members.keys after := by
    simp [Members.keys]
  have hkey : later ∈ Members.keys after := List.mem_map_of_mem hlater
  rw [hkeys, List.pairwise_append] at ordered
  have hafter : name < later := (List.pairwise_cons.1 ordered.2.1).1 later hkey
  rcases annotationName_eq_iff.1 hsame with rfl | ⟨hreserved, rfl⟩ | ⟨hreserved, rfl⟩
  · exact String.lt_irrefl _ hafter
  · refine free ⟨later, ?_, hreserved, rfl⟩
    rw [hkeys]
    exact List.mem_append_right _ (List.mem_cons_of_mem _ hkey)
  · exact String.lt_asymm hafter (longer_not_mem_and_lt hreserved).2

/-- What is kept is the annotations whose place is not taken. -/
theorem mem_kept_iff (ordered : annotations.keys.Pairwise (· < ·)) {member : String × Value} :
    member ∈ kept annotations ↔
      ∃ pair ∈ annotations, ¬ IsTaken annotations pair.1 ∧ keptPair pair = member := by
  constructor
  · intro hmember
    obtain ⟨⟨own, value⟩, hpair, rfl⟩ := List.mem_map.1 (Members.mem_of_mem_ofList hmember)
    by_cases taken : IsTaken annotations own
    · -- What is kept in this place is the annotation that took it.
      obtain ⟨other, hkey, hreserved, rfl⟩ := taken
      obtain ⟨⟨other, held⟩, hother, rfl⟩ := List.mem_map.1 hkey
      have free : ¬ IsTaken annotations other := not_isTaken_of_mem hreserved
      have hname : annotationName ("annotation." ++ other) = annotationName other :=
        annotationName_eq_iff.2 (.inr (.inr ⟨hreserved, rfl⟩))
      have hheld : (kept annotations).get? (annotationName ("annotation." ++ other)) = some value :=
        (Members.get?_eq_some_iff (Members.pairwise_keys_ofList _)).2 hmember
      rw [hname, get?_kept ordered hother free] at hheld
      cases hheld
      exact ⟨_, hother, free, by rw [keptPair, keptPair, hname]⟩
    · exact ⟨_, hpair, taken, rfl⟩
  · rintro ⟨⟨own, value⟩, hpair, free, rfl⟩
    exact Members.mem_of_get?_eq_some (get?_kept ordered hpair free)

theorem perm_kept (ordered : annotations.keys.Pairwise (· < ·)) :
    (kept annotations).Perm
      ((annotations.filter (¬ IsTaken annotations ·.1)).map keptPair) := by
  have hkept : (kept annotations).Nodup :=
    .of_map Prod.fst ((Members.pairwise_keys_ofList _).imp fun hlt => String.ne_of_lt hlt)
  have hannotations : annotations.Nodup :=
    .of_map Prod.fst (ordered.imp fun hlt => String.ne_of_lt hlt)
  have hothers : ((annotations.filter (¬ IsTaken annotations ·.1)).map keptPair).Nodup := by
    refine (hannotations.filter _).map_on ?_
    rintro ⟨first, value⟩ hfirst ⟨second, held⟩ hsecond heq
    obtain ⟨hname, rfl⟩ : annotationName first = annotationName second ∧ value = held :=
      Prod.mk.inj heq
    obtain ⟨hfirst, freeFirst⟩ := List.mem_filter.1 hfirst
    obtain ⟨hsecond, freeSecond⟩ := List.mem_filter.1 hsecond
    have hsame : first = second :=
      eq_of_annotationName_eq (List.mem_map_of_mem hfirst) (List.mem_map_of_mem hsecond)
        (of_decide_eq_true freeFirst) (of_decide_eq_true freeSecond) hname
    rw [hsame]
  refine (List.perm_ext_iff_of_nodup hkept hothers).2 fun member => ?_
  rw [mem_kept_iff ordered]
  simp [and_assoc]

end Kept

/-- Recording keeps the annotations whose place is not taken, and no others. It keeps all of them
if and only if none that needs a longer name comes together with one that has it already. -/
theorem entry_keepsAll_iff {event : Event} (ordered : event.annotations.keys.Pairwise (· < ·))
    (now : Utc) :
    (event.entry now).extra.Perm
        ((event.annotations.filter (¬ IsTaken event.annotations ·.1)).map keptPair) ∧
      (KeepsAll event.annotations (event.entry now).extra ↔
        ∀ name ∈ reservedNames, name ∈ event.annotations.keys →
          "annotation." ++ name ∉ event.annotations.keys) := by
  have hperm := perm_kept ordered
  have hcount : (kept event.annotations).length = event.annotations.length ↔
      ∀ pair ∈ event.annotations, ¬ IsTaken event.annotations pair.1 := by
    rw [hperm.length_eq, List.length_map, List.length_filter_eq_length_iff]
    simp only [decide_eq_true_iff]
  refine ⟨hperm, fun keeps name hreserved hname htaken => ?_, fun apart => ?_⟩
  · obtain ⟨pair, hpair, heq⟩ := List.mem_map.1 htaken
    exact hcount.1 keeps.count pair hpair ⟨name, hname, hreserved, heq⟩
  · have free : ∀ pair ∈ event.annotations, ¬ IsTaken event.annotations pair.1 := by
      rintro pair hpair ⟨other, hother, hreserved, heq⟩
      exact apart other hreserved hother (heq ▸ List.mem_map_of_mem hpair)
    constructor
    · intro pair hpair hname
      have hheld := get?_kept ordered hpair (free pair hpair)
      rwa [annotationName_of_not_mem hname] at hheld
    · intro pair hpair hname
      have hheld := get?_kept ordered hpair (free pair hpair)
      rwa [annotationName_of_mem hname] at hheld
    · exact hcount.2 free

/-- Noon of a leap day. -/
def leapDay : Utc := ⟨⟨2024, 2, 29⟩, 12, 0, 0, 0⟩

/-- An event whose annotations have one name in common with entries, and none of the longer names
twice. -/
def reply : Event where
  level := .info
  message := "MAIL FROM"
  annotations := [("annotation.level", .ofNat 2), ("code", .string "250"), ("timestamp", .null)]

theorem entry_keepsAll_reply :
    reply.annotations.keys.Pairwise (· < ·) ∧
      KeepsAll reply.annotations (reply.entry leapDay).extra := by
  have ordered : reply.annotations.keys.Pairwise (· < ·) := by decide
  exact ⟨ordered, (entry_keepsAll_iff ordered leapDay).2.2 (by decide)⟩

/-- An event with an annotation that has the longer name of another. -/
def echo : Event where
  level := .info
  message := "x"
  annotations := [("annotation.level", .ofNat 2), ("level", .ofNat 1)]

theorem not_keepsAll_echo :
    echo.annotations.keys.Pairwise (· < ·) ∧
      ¬ KeepsAll echo.annotations (echo.entry leapDay).extra := by
  refine ⟨by decide, fun keeps => ?_⟩
  have hcount : (echo.entry leapDay).extra.length = 1 := by decide
  cases hcount.symm.trans keeps.count

end MailMerge.Trace
