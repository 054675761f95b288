/-
# The order of settings

Options that denote different fields may be set in any order. Where two keys denote one field the
greater has the last word, and where an option is refused those with smaller keys are set and no
others. So what a text gives depends only on the value that each key has in it at last, not on the
order in which the keys are written or on how often.
-/

import Mathlib
import MailMerge.Proofs.Options.Sequence

namespace MailMerge

open MailMerge.Json

namespace Options

variable {options changed : Options} {members : Members}

/-! ## Any order -/

/-- Options for pairwise different places come to the same in any order. -/
theorem foldl_setOrKeep_of_perm {order : List (String × Value)}
    (distinct : (members.map fun member => OptionPlace.ofKey member.1).Nodup)
    (horder : order.Perm members) (options : Options) :
    order.foldl setOrKeep options = members.foldl setOrKeep options := by
  refine (horder.symm.foldl_eq' (fun first hfirst second hsecond options => ?_) options).symm
  by_cases hsame : second = first
  · rw [hsame]
  · refine setOrKeep_comm (fun hplace => hsame ?_) options
    exact List.inj_on_of_nodup_map distinct hsecond hfirst hplace

theorem setAll_iff_of_perm {order : List (String × Value)}
    (distinct : (members.map fun member => OptionPlace.ofKey member.1).Nodup)
    (horder : order.Perm members) :
    options.setAll order = (changed, .ok ()) ↔ options.setAll members = (changed, .ok ()) := by
  rw [setAll_eq_ok_iff, setAll_eq_ok_iff, foldl_setOrKeep_of_perm distinct horder]
  simp only [horder.mem_iff]

/-! ## The last word -/

/-- What is set for other places leaves a place as it is. -/
theorem held?_foldl_setOrKeep {place : OptionPlace}
    (elsewhere : ∀ member ∈ members, OptionPlace.ofKey member.1 ≠ place) (options : Options) :
    place.held? (members.foldl setOrKeep options) = place.held? options := by
  induction members generalizing options with
  | nil => rfl
  | cons member members ih =>
      obtain ⟨hmember, hmembers⟩ := List.forall_mem_cons.1 elsewhere
      rw [List.foldl_cons, ih hmembers, setOrKeep_eq_take, OptionPlace.take]
      split
      · exact OptionPlace.held?_put_of_ne options (Ne.symm hmember) _
      · rfl

/-- What a place held before other options were set shows in no other place after them. -/
theorem exists_foldl_put (place : OptionPlace) (content : place.Content) (members : Members)
    (options : Options) :
    ∃ held, members.foldl setOrKeep (place.put options content) =
      place.put (members.foldl setOrKeep options) held := by
  induction members generalizing options content with
  | nil => exact ⟨content, rfl⟩
  | cons member members ih =>
      simp only [List.foldl_cons, setOrKeep_eq_take, OptionPlace.take]
      cases given : (OptionPlace.ofKey member.1).read member.1 member.2 with
      | error _ => exact ih content options
      | ok second =>
          by_cases hplace : OptionPlace.ofKey member.1 = place
          · subst hplace
            -- The first content is replaced, and the second is there twice over.
            obtain ⟨held, hheld⟩ := ih second ((OptionPlace.ofKey member.1).put options second)
            rw [OptionPlace.put_put] at hheld
            refine ⟨held, ?_⟩
            simp only [OptionPlace.put_put]
            exact hheld
          · simp only [OptionPlace.put_comm options hplace content second]
            exact ih content _

/-- A setting has no effect where a later one for the same place is accepted. -/
theorem setOrKeep_foldl_setOrKeep {first second : String × Value}
    (same : OptionPlace.ofKey first.1 = OptionPlace.ofKey second.1)
    (accepted : options.Accepts second.1 second.2) (between : Members) (start : Options) :
    (between.foldl setOrKeep (start.setOrKeep first)).setOrKeep second =
      (between.foldl setOrKeep start).setOrKeep second := by
  obtain ⟨content, given⟩ := accepts_iff_exists_read.1 accepted
  rw [setOrKeep_eq_take start, OptionPlace.take, same]
  split
  · next held _ =>
      obtain ⟨later, hlater⟩ := exists_foldl_put (OptionPlace.ofKey second.1) held between start
      rw [hlater]
      simp only [setOrKeep_eq_take _ second, OptionPlace.take, given, OptionPlace.put_put]
  · rfl

section Aliases

variable {key smaller larger : String} {value : Value}

/-- Of two keys for one place the smaller may as well be left out. -/
theorem setAll_filter_ne (ordered : members.keys.Pairwise (· < ·))
    (same : OptionPlace.ofKey smaller = OptionPlace.ofKey larger) (hlt : smaller < larger)
    (hsmaller : smaller ∈ members.keys) (hlarger : (larger, value) ∈ members)
    (hset : options.setAll members = (changed, .ok ())) :
    options.setAll (members.filter (·.1 ≠ smaller)) = (changed, .ok ()) := by
  obtain ⟨haccepted, hchanged⟩ := setAll_eq_ok_iff.1 hset
  have hkept : ∀ member ∈ members.filter (·.1 ≠ smaller), options.Accepts member.1 member.2 :=
    fun member hmember => haccepted member (List.mem_filter.1 hmember).1
  refine setAll_eq_ok_iff.2 ⟨hkept, ?_⟩
  obtain ⟨⟨_, first⟩, hfirst, rfl⟩ := List.mem_map.1 hsmaller
  obtain ⟨before, rest, rfl⟩ := List.append_of_mem hfirst
  rw [filter_ne_of_ordered ordered, ← hchanged]
  -- The greater key comes after the smaller one, where its setting makes up for the one left out.
  have hrest : (larger, value) ∈ rest := by
    rcases List.mem_append.1 hlarger with hbefore | hafter
    · exact absurd ((lt_and_gt_of_ordered ordered).1 _ hbefore) (String.lt_asymm hlt)
    · refine (List.mem_cons.1 hafter).resolve_left fun heq => ?_
      exact String.ne_of_lt hlt (congrArg Prod.fst heq).symm
  have hvalue := haccepted (larger, value) hlarger
  obtain ⟨between, after, rfl⟩ := List.append_of_mem hrest
  simp only [List.foldl_append, List.foldl_cons]
  exact congrArg (List.foldl setOrKeep · after)
    (setOrKeep_foldl_setOrKeep same hvalue between _).symm

/-- The greatest of the keys for a place decides what the place holds. -/
theorem held?_of_setAll {before after : Members} {alone : Options}
    (elsewhere : ∀ member ∈ after, OptionPlace.ofKey member.1 ≠ OptionPlace.ofKey key)
    (hset : options.setAll (before ++ (key, value) :: after) = (changed, .ok ()))
    (halone : options.set key value = .ok alone) :
    (OptionPlace.ofKey key).held? changed = (OptionPlace.ofKey key).held? alone := by
  obtain ⟨-, rfl⟩ := setAll_eq_ok_iff.1 hset
  obtain ⟨content, given⟩ := accepts_iff_exists_read.1 ⟨alone, halone⟩
  rw [set_eq_map_put, given] at halone
  cases halone
  rw [List.foldl_append, List.foldl_cons, held?_foldl_setOrKeep elsewhere, setOrKeep_eq_take,
    OptionPlace.take, given, OptionPlace.held?_put_self, OptionPlace.held?_put_self]

/-- A field has no third key, so nothing is greater than the greater of two. -/
theorem not_lt_of_mem_keys {field : OptionField} {third : String} (hsmaller : smaller ∈ field.keys)
    (hlarger : larger ∈ field.keys) (hlt : smaller < larger) (hthird : third ∈ field.keys) :
    ¬ larger < third := by
  have hkeys : ∀ a ∈ field.keys, ∀ b ∈ field.keys, ∀ c ∈ field.keys, a < b → ¬ b < c := by
    cases field <;> decide
  exact hkeys smaller hsmaller larger hlarger third hthird hlt

/-- Of two keys for one field the greater decides what the field holds. -/
theorem exists_set_of_keys {field : OptionField} (ordered : members.keys.Pairwise (· < ·))
    (hsmaller : smaller ∈ field.keys) (hlarger : larger ∈ field.keys) (hlt : smaller < larger)
    (hvalue : (larger, value) ∈ members) (hset : options.setAll members = (changed, .ok ())) :
    ∃ alone, options.set larger value = .ok alone ∧ field.get changed = field.get alone := by
  obtain ⟨alone, halone⟩ := (setAll_eq_ok_iff.1 hset).1 _ hvalue
  refine ⟨alone, halone, ?_⟩
  obtain ⟨before, after, rfl⟩ := List.append_of_mem hvalue
  have hplace := OptionPlace.ofKey_eq_known_iff.2 hlarger
  have elsewhere : ∀ member ∈ after, OptionPlace.ofKey member.1 ≠ OptionPlace.ofKey larger := by
    intro member hmember hsame
    have hthird := OptionPlace.ofKey_eq_known_iff.1 (hsame.trans hplace)
    exact not_lt_of_mem_keys hsmaller hlarger hlt hthird
      ((lt_and_gt_of_ordered ordered).2 member hmember)
  have hheld := held?_of_setAll elsewhere hset halone
  rw [hplace] at hheld
  exact Option.some.inj hheld

end Aliases

/-! ## Texts -/

/-- Texts in which every key has the same value at last give the same options, or fail alike. -/
theorem parse_congr {first second : String} {entries held : List (String × Value)}
    (hfirst : IsObjectText first entries) (hsecond : IsObjectText second held)
    (same : ∀ key, Members.finalValue? entries key = Members.finalValue? held key) :
    parse first = parse second := by
  rw [parse, parse, hfirst.parse_eq, hsecond.parse_eq, Members.ofList_congr same]

/-- The order in which options are written does not matter. If no two keys of a map denote the same
place, setting its options one by one in any order comes to the same as setting them all. Of two
keys for one field the greater wins: the smaller may as well be left out. Where an option is
refused, those with smaller keys than the first such one have been set, and no others. And of a text
only the value that each key has at last counts. -/
theorem setAll_order (options : Options) {members : Members}
    (ordered : members.keys.Pairwise (· < ·)) :
    ((members.map fun member => OptionPlace.ofKey member.1).Nodup →
      ∀ order : List (String × Value), order.Perm members → ∀ changed,
        order.foldlM (fun options member => options.set member.1 member.2) options = .ok changed ↔
          options.setAll members = (changed, .ok ())) ∧
      (∀ changed, options.setAll members = (changed, .ok ()) →
        ∀ field : OptionField, ∀ smaller ∈ field.keys, ∀ larger ∈ field.keys, smaller < larger →
          smaller ∈ members.keys → ∀ value, (larger, value) ∈ members →
            options.setAll (members.filter (·.1 ≠ smaller)) = (changed, .ok ()) ∧
              ∃ alone, options.set larger value = .ok alone ∧ field.get changed = field.get alone) ∧
      (∀ left invalid, options.setAll members = (left, .error invalid) →
        ∃ key value, options.IsFirstRefused members key value ∧
          options.setAll (members.filter (·.1 < key)) = (left, .ok ())) ∧
      ∀ (first second : String) (entries held : List (String × Value)),
        IsObjectText first entries → IsObjectText second held →
          (∀ key, Members.finalValue? entries key = Members.finalValue? held key) →
            parse first = parse second := by
  refine ⟨fun distinct order horder changed => ?_, ?_, fun left invalid failed => ?_, ?_⟩
  · rw [foldlM_set_eq_ok_iff]
    exact setAll_iff_of_perm distinct horder
  · intro changed hset field smaller hsmaller larger hlarger hlt hheld value hvalue
    have same := (OptionPlace.ofKey_eq_known_iff.2 hsmaller).trans
      (OptionPlace.ofKey_eq_known_iff.2 hlarger).symm
    exact ⟨setAll_filter_ne ordered same hlt hheld hvalue hset,
      exists_set_of_keys ordered hsmaller hlarger hlt hvalue hset⟩
  · obtain ⟨key, value, hfirst, hleft, -⟩ := exists_isFirstRefused ordered failed
    exact ⟨key, value, hfirst, hleft⟩
  · intro first second entries held hfirst hsecond same
    exact parse_congr hfirst hsecond same

/-- A port, and a username under each of its keys. -/
def loginOptions : Members :=
  [("port", .ofNat 587), ("user", .string "ann"), ("username", .string "bob")]

/-- The entries of a text with the same options, where one is given twice. -/
def loginEntries : List (String × Value) :=
  [("username", .string "bob"), ("user", .string "eve"), ("port", .ofNat 587),
    ("user", .string "ann")]

theorem setAll_order_login :
    loginOptions.keys.Pairwise (· < ·) ∧
      ∃ changed, ({} : Options).setAll loginOptions = (changed, .ok ()) ∧
        changed.username = some "bob" ∧
        ({} : Options).setAll (loginOptions.filter (·.1 ≠ "user")) = (changed, .ok ()) ∧
        parse "\x7b\"username\":\"bob\",\"user\":\"eve\",\"port\":587,\"user\":\"ann\"\x7d" =
          parse "\x7b\"port\":587,\"user\":\"ann\",\"username\":\"bob\"\x7d" := by
  have ordered : loginOptions.keys.Pairwise (· < ·) := by decide
  obtain ⟨-, hgreater, -, htexts⟩ := setAll_order {} ordered
  refine ⟨ordered, { port := 587, username := some "bob" }, rfl, rfl, ?_, ?_⟩
  · exact (hgreater _ rfl .username "user" (by decide) "username" (by decide) (by decide)
      (by decide) (.string "bob") (by simp [loginOptions])).1
  · refine htexts _ _ loginEntries loginOptions ?_ ?_ fun key => ?_
    · refine ⟨[(some "username", .string (some "bob")), (some "user", .string (some "eve")),
        (some "port", .number (some (.ofNat 587))), (some "user", .string (some "ann"))],
        by cbv, ?_⟩
      exact .cons ⟨rfl, rfl⟩ (.cons ⟨rfl, rfl⟩ (.cons ⟨rfl, rfl⟩ (.cons ⟨rfl, rfl⟩ .nil)))
    · refine ⟨[(some "port", .number (some (.ofNat 587))), (some "user", .string (some "ann")),
        (some "username", .string (some "bob"))], by cbv, ?_⟩
      exact .cons ⟨rfl, rfl⟩ (.cons ⟨rfl, rfl⟩ (.cons ⟨rfl, rfl⟩ .nil))
    · simp only [Members.finalValue?, loginEntries, loginOptions, List.filter_cons, List.filter_nil]
      grind

end Options

end MailMerge
