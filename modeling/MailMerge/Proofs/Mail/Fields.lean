/-
# Fields and headers put to use

The text that a field shows after other fields were set: names are compared without
regard to case, and the last field that was set decides. Headers of a message are
set as fields in their order, so that the last header of a name, in whatever case,
decides what the field of that name shows.
-/

import MailMerge.Mail.Build
import MailMerge.Proofs.Stage

namespace MailMerge.Text

theorem sameIgnoringCase_iff {left right : String} :
    sameIgnoringCase left right ↔ left.toList.map lowerAscii = right.toList.map lowerAscii :=
  beq_iff_eq

theorem sameIgnoringCase_congr {left right : String} (same : sameIgnoringCase left right)
    (other : String) : sameIgnoringCase left other = sameIgnoringCase right other := by
  rw [sameIgnoringCase, sameIgnoringCase, sameIgnoringCase_iff.1 same]

theorem sameIgnoringCase_comm (left right : String) :
    sameIgnoringCase left right = sameIgnoringCase right left := by
  rw [Bool.eq_iff_iff, sameIgnoringCase_iff, sameIgnoringCase_iff]
  exact eq_comm

end MailMerge.Text

namespace MailMerge.Mail

open MailMerge.Message MailMerge.Stage MailMerge.Text

/-! ## Fields -/

namespace Fields

variable {name : String}

/-- The field of a name. -/
def field? (name : String) (fields : Fields) : Option Field :=
  fields.find? fun field => sameIgnoringCase field.name name

theorem shown?_eq (fields : Fields) :
    fields.shown? name = (fields.field? name).map fun field => field.value.shown := rfl

/-- A field that is set is the field of its name, and of no other name. -/
theorem field?_set (field : Field) (fields : Fields) :
    (fields.set field).field? name =
      if sameIgnoringCase field.name name then some field else fields.field? name := by
  induction fields with
  | nil =>
      by_cases hname : sameIgnoringCase field.name name <;> simp [set, field?, hname]
  | cons f fields ih =>
      by_cases hsame : sameIgnoringCase f.name field.name
      · rw [set, if_pos hsame]
        have hcongr := sameIgnoringCase_congr hsame name
        by_cases hname : sameIgnoringCase field.name name
        · simp [field?, hname]
        · simp [field?, hname, hcongr]
      · rw [set, if_neg hsame]
        by_cases hfirst : sameIgnoringCase f.name name
        · have hname : ¬ sameIgnoringCase field.name name := by
            intro hname
            rw [sameIgnoringCase_congr hfirst, sameIgnoringCase_comm] at hsame
            exact hsame hname
          simp [field?, hfirst, hname]
        · simp only [field?, List.find?_cons, hfirst] at ih ⊢
          exact ih

/-- A field that is set decides what its name shows, and no other name. -/
theorem shown?_set (field : Field) (fields : Fields) :
    (fields.set field).shown? name =
      if sameIgnoringCase field.name name then some field.value.shown else fields.shown? name := by
  rw [shown?_eq, field?_set]
  split <;> rfl

theorem shown?_append (first second : Fields) :
    shown? name (first ++ second) = (first.shown? name).or (second.shown? name) := by
  rw [shown?, List.find?_append, Option.map_or]
  rfl

/-- Setting a field and taking a name out can change places, except that a field of that name is
taken out again. -/
theorem without_set (name : String) (field : Field) (fields : Fields) :
    (fields.set field).without name =
      if sameIgnoringCase field.name name then fields.without name
      else (fields.without name).set field := by
  -- The first field of the same name is replaced, and it is taken out just when the new one is.
  induction fields with
  | nil =>
      by_cases hname : sameIgnoringCase field.name name <;> simp [set, without, hname]
  | cons f fields ih =>
      by_cases hsame : sameIgnoringCase f.name field.name
      · rw [set, if_pos hsame]
        have hcongr := sameIgnoringCase_congr hsame name
        by_cases hname : sameIgnoringCase field.name name
        · simp [without, hname, hcongr]
        · simp [without, hname, hcongr, set, hsame]
      · rw [set, if_neg hsame]
        by_cases hfirst : sameIgnoringCase f.name name
        · simpa [without, hfirst] using ih
        · by_cases hname : sameIgnoringCase field.name name
          · simpa [without, hfirst, hname] using ih
          · simpa [without, hfirst, hname, set, hsame] using ih

theorem without_append (name : String) (first second : Fields) :
    without name (first ++ second) = first.without name ++ second.without name :=
  List.filter_append ..

theorem field?_without {other : String} (different : sameIgnoringCase other name = false)
    (fields : Fields) : (fields.without name).field? other = fields.field? other := by
  rw [field?, field?, without, List.find?_filter]
  congr 1
  funext field
  by_cases hother : sameIgnoringCase field.name other
  · rw [sameIgnoringCase_congr hother, different, hother]
    rfl
  · simp [hother]

theorem shown?_without {other : String} (different : sameIgnoringCase other name = false)
    (fields : Fields) : (fields.without name).shown? other = fields.shown? other := by
  rw [shown?_eq, field?_without different, shown?_eq]

theorem mem_set {field other : Field} {fields : Fields} (hmem : other ∈ fields.set field) :
    other = field ∨ other ∈ fields := by
  fun_induction set field fields with
  | case1 => exact .inl (List.mem_singleton.1 hmem)
  | case2 f fields _ =>
      exact (List.mem_cons.1 hmem).imp_right (List.mem_cons_of_mem _)
  | case3 f fields _ ih =>
      rcases List.mem_cons.1 hmem with rfl | hmem
      · exact .inr (List.mem_cons_self ..)
      · exact (ih hmem).imp_right (List.mem_cons_of_mem _)

/-- A change that keeps names can be made before or after a field is set. -/
theorem map_set {change : Field → Field} (kept : ∀ field, (change field).name = field.name)
    (field : Field) (fields : Fields) :
    (fields.set field).map change = set (change field) (fields.map change) := by
  induction fields with
  | nil => rfl
  | cons f fields ih =>
      rw [set, List.map_cons, set, kept, kept]
      split
      · rfl
      · rw [List.map_cons, ih]

end Fields

/-! ## Headers -/

/-- The last filled header whose name is `name` in some letter case. -/
def headerFor? (entries : List (String × String)) (name : String) : Option (String × String) :=
  (entries.filter fun entry => !entry.2.isEmpty && sameIgnoringCase entry.1 name).getLast?

/-- The value of the last filled header whose name is `name` in some letter case. -/
def headerText? (entries : List (String × String)) (name : String) : Option String :=
  (headerFor? entries name).map Prod.snd

theorem headerFor?_cons (entry : String × String) (entries : List (String × String))
    (name : String) :
    headerFor? (entry :: entries) name =
      (headerFor? entries name).or
        (if !entry.2.isEmpty && sameIgnoringCase entry.1 name then some entry else none) := by
  rw [headerFor?, List.filter_cons]
  split
  · rw [List.getLast?_cons, headerFor?]
    cases (entries.filter _).getLast? <;> rfl
  · rw [Option.or_none]
    rfl

/-- The field of a header. -/
def headerField (entry : String × String) : Field :=
  .ofText entry.1 entry.2.toList

/-- A field that no header may set aside: it is neither the type of the body nor one of the
fields of every mail. -/
def IsHeaderField (name : String) : Prop :=
  ∀ own ∈ "Content-Type" :: ownFieldNames, sameIgnoringCase name own = false

instance (name : String) : Decidable (IsHeaderField name) :=
  inferInstanceAs (Decidable (∀ own ∈ "Content-Type" :: ownFieldNames, _))

/-- A header becomes the field of its name when it is filled. -/
theorem field?_applyUse {name : String} (free : IsHeaderField name) {given value : String}
    {use : HeaderUse} (used : useHeader given value = .ok use) (fields : Fields) :
    (applyUse fields use).field? name =
      ((if !value.isEmpty && sameIgnoringCase given name then some (given, value) else none).map
        headerField).or (fields.field? name) := by
  have hown (own : String) (hmem : own ∈ "Content-Type" :: ownFieldNames)
      (hsame : sameIgnoringCase given own) : sameIgnoringCase given name = false := by
    rw [sameIgnoringCase_congr hsame, sameIgnoringCase_comm]
    exact free own hmem
  rw [useHeader] at used
  split at used
  · next hempty =>
    cases used
    simp [applyUse, hempty]
  · next hfilled =>
    split at used
    · next htype =>
      have hname := hown "Content-Type" (by simp) htype
      split at used
      · cases used
        simp [applyUse, hname]
      · cases used
    · split at used
      · next howned =>
        obtain ⟨own, hmem, hsame⟩ := List.any_eq_true.1 howned
        have hname := hown own (by simp [hmem]) (sameIgnoringCase_comm .. ▸ hsame)
        cases used
        simp [applyUse, hname]
      · split at used
        · cases used
          rw [applyUse, Fields.field?_set]
          by_cases hname : sameIgnoringCase given name
          · simp [Field.ofText, headerField, hname, hfilled]
          · simp [Field.ofText, hname]
        · cases used

/-- After all headers were put to use, the last one of a name is its field. -/
theorem field?_foldl_applyUse {name : String} (free : IsHeaderField name)
    {entries : List (String × String)} {uses : List HeaderUse}
    (used : useHeaders entries = .ok uses) (fields : Fields) :
    (uses.foldl applyUse fields).field? name =
      ((headerFor? entries name).map headerField).or (fields.field? name) := by
  induction entries generalizing uses fields with
  | nil =>
      cases used
      rfl
  | cons entry entries ih =>
      obtain ⟨given, value⟩ := entry
      simp only [useHeaders, bind_eq_ok_iff] at used
      obtain ⟨use, huse, others, hothers, heq⟩ := used
      cases heq
      rw [List.foldl_cons, ih hothers, field?_applyUse free huse, headerFor?_cons,
        Option.map_or, Option.or_assoc]

/-- After all headers were put to use, the last one of a name decides what its field shows. -/
theorem shown?_foldl_applyUse {name : String} (free : IsHeaderField name)
    {entries : List (String × String)} {uses : List HeaderUse}
    (used : useHeaders entries = .ok uses) (fields : Fields) :
    (uses.foldl applyUse fields).shown? name =
      ((headerText? entries name).map String.toList).or (fields.shown? name) := by
  rw [Fields.shown?_eq, field?_foldl_applyUse free used, headerText?, Option.map_or,
    Option.map_map, Option.map_map]
  rfl

/-- What is taken out at the end makes no difference to the fields that headers are put into. -/
theorem without_foldl_applyUse {name : String} {first second : Fields}
    (same : first.without name = second.without name) (uses : List HeaderUse) :
    (uses.foldl applyUse first).without name = (uses.foldl applyUse second).without name := by
  induction uses generalizing first second with
  | nil => exact same
  | cons use uses ih =>
      apply ih
      cases use with
      | field given => rw [applyUse, applyUse, Fields.without_set, Fields.without_set, same]
      | skipped => exact same
      | bodyType mediaType => exact same
      | dropped => exact same

/-- A header that becomes a field gives it its name and its value as a text; its name can name a
field and is none of those that are set aside. -/
theorem useHeader_eq_field {name value : String} {field : Field}
    (used : useHeader name value = .ok (.field field)) :
    field = .ofText name value.toList ∧ isFieldName name ∧ IsHeaderField name := by
  rw [useHeader] at used
  split at used
  · cases used
  · split at used
    · split at used <;> cases used
    · next htype =>
      split at used
      · cases used
      · next howned =>
        split at used
        · next valid =>
          cases used
          refine ⟨rfl, valid, ?_⟩
          intro own hown
          rw [Bool.eq_false_iff]
          rcases List.mem_cons.1 hown with rfl | hown
          · exact htype
          · exact fun hsame => howned (List.any_eq_true.2 ⟨own, hown, hsame⟩)
        · cases used

theorem exists_mem_of_useHeaders {entries : List (String × String)} {uses : List HeaderUse}
    (used : useHeaders entries = .ok uses) {use : HeaderUse} (hmem : use ∈ uses) :
    ∃ entry ∈ entries, useHeader entry.1 entry.2 = .ok use := by
  induction entries generalizing uses with
  | nil =>
      cases used
      cases hmem
  | cons entry entries ih =>
      simp only [useHeaders, bind_eq_ok_iff] at used
      obtain ⟨first, hfirst, others, hothers, heq⟩ := used
      cases heq
      rcases List.mem_cons.1 hmem with rfl | hmem
      · exact ⟨entry, by simp, hfirst⟩
      · obtain ⟨other, hother, hused⟩ := ih hothers hmem
        exact ⟨other, List.mem_cons_of_mem _ hother, hused⟩

/-- After headers were put to use, every field was there before or was given by one of them. -/
theorem mem_foldl_applyUse {fields : Fields} {uses : List HeaderUse} {field : Field}
    (hfield : field ∈ uses.foldl applyUse fields) : field ∈ fields ∨ .field field ∈ uses := by
  induction uses generalizing fields with
  | nil => exact .inl hfield
  | cons use uses ih =>
      rcases ih hfield with hfield | hfield
      · cases use with
        | field given =>
            rcases Fields.mem_set hfield with rfl | hfield
            · exact .inr (List.mem_cons_self ..)
            · exact .inl hfield
        | skipped => exact .inl hfield
        | bodyType mediaType => exact .inl hfield
        | dropped => exact .inl hfield
      · exact .inr (List.mem_cons_of_mem _ hfield)

end MailMerge.Mail
