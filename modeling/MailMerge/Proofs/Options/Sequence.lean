/-
# Options set one after the other

Whether a value is accepted for a key is settled by the two alone, whatever was set before. Hence
several options are set just when each of them is accepted, and where one is not, those before it
stay set. As maps are in the order of their keys, these are the options with smaller keys.
-/

import MailMerge.Proofs.Options.Place

namespace MailMerge

open MailMerge.Json MailMerge.Stage

/-! ## One option -/

namespace OptionPlace

/-- The options with what a setting gives to a place; the options themselves if it gives nothing. -/
def take (place : OptionPlace) (options : Options) (member : String × Value) : Options :=
  match place.read member.1 member.2 with
  | .ok content => place.put options content
  | .error _ => options

variable {place other : OptionPlace}

/-- Different places may take their contents in either order. -/
theorem take_comm (different : other ≠ place) (options : Options) (first second : String × Value) :
    other.take (place.take options first) second =
      place.take (other.take options second) first := by
  simp only [take]
  cases place.read first.1 first.2 with
  | error _ => rfl
  | ok content =>
      cases other.read second.1 second.2 with
      | error _ => rfl
      | ok held => exact put_comm options different content held

end OptionPlace

namespace Options

/-- Set one option, or keep the options as they are when the value is refused. -/
def setOrKeep (options : Options) (member : String × Value) : Options :=
  (options.set member.1 member.2).toOption.getD options

/-- A value is accepted for a key. -/
def Accepts (options : Options) (key : String) (value : Value) : Prop :=
  ∃ changed, options.set key value = .ok changed

variable {options other : Options} {key : String} {value : Value} {member second : String × Value}

theorem setOrKeep_eq_take (options : Options) (member : String × Value) :
    options.setOrKeep member = (OptionPlace.ofKey member.1).take options member := by
  rw [setOrKeep, set_eq_map_put, OptionPlace.take]
  cases (OptionPlace.ofKey member.1).read member.1 member.2 <;> rfl

theorem accepts_iff_exists_read :
    options.Accepts key value ↔
      ∃ content, (OptionPlace.ofKey key).read key value = .ok content := by
  rw [Accepts, set_eq_map_put]
  cases (OptionPlace.ofKey key).read key value with
  | error invalid => simp [Except.map]
  | ok content => simp [Except.map]

/-- The options have no part in what is accepted. -/
theorem accepts_congr (options other : Options) (key : String) (value : Value) :
    options.Accepts key value ↔ other.Accepts key value := by
  rw [accepts_iff_exists_read, accepts_iff_exists_read]

theorem set_eq_error_congr {invalid : InvalidOption} (options other : Options) :
    options.set key value = .error invalid ↔ other.set key value = .error invalid := by
  rw [set_eq_map_put, set_eq_map_put]
  cases (OptionPlace.ofKey key).read key value <;> simp [Except.map]

/-- Options whose keys denote different places may be set in either order. -/
theorem setOrKeep_comm (different : OptionPlace.ofKey second.1 ≠ OptionPlace.ofKey member.1)
    (options : Options) :
    (options.setOrKeep member).setOrKeep second = (options.setOrKeep second).setOrKeep member := by
  simp only [setOrKeep_eq_take]
  exact OptionPlace.take_comm different options member second

/-! ## Several options -/

variable {changed left : Options} {members : Members} {invalid : InvalidOption}

/-- Setting several options goes through just when every one is accepted. -/
theorem setAll_eq_ok_iff :
    options.setAll members = (changed, .ok ()) ↔
      (∀ member ∈ members, options.Accepts member.1 member.2) ∧
        members.foldl setOrKeep options = changed := by
  induction members generalizing options with
  | nil => simp [setAll]
  | cons member members ih =>
      obtain ⟨key, value⟩ := member
      rw [setAll, List.forall_mem_cons, List.foldl_cons]
      cases hset : options.set key value with
      | error invalid => simp [Accepts, hset]
      | ok next =>
          have hnext : options.setOrKeep (key, value) = next := by
            rw [setOrKeep, hset]
            rfl
          have haccepted : options.Accepts key value := ⟨next, hset⟩
          simp only [ih, hnext, haccepted, true_and, accepts_congr next options]

/-- So does setting them call by call. -/
theorem foldlM_set_eq_ok_iff {pairs : List (String × Value)} :
    pairs.foldlM (fun options member => options.set member.1 member.2) options = .ok changed ↔
      options.setAll pairs = (changed, .ok ()) := by
  induction pairs generalizing options with
  | nil => simp [setAll, pure, Except.pure]
  | cons member pairs ih =>
      obtain ⟨key, value⟩ := member
      rw [List.foldlM_cons, setAll]
      cases hset : options.set key value with
      | error invalid => simp [error_bind]
      | ok next => rw [ok_bind, ih]

/-- Setting several options fails just when one is refused. Those before it were accepted and stay
set. -/
theorem setAll_eq_error_iff :
    options.setAll members = (left, .error invalid) ↔
      ∃ before key value after, members = before ++ (key, value) :: after ∧
        options.setAll before = (left, .ok ()) ∧ left.set key value = .error invalid := by
  induction members generalizing options with
  | nil => simp [setAll]
  | cons member members ih =>
      obtain ⟨key, value⟩ := member
      rw [setAll]
      cases hset : options.set key value with
      | error refusal =>
          constructor
          · intro hleft
            cases hleft
            exact ⟨[], key, value, members, rfl, rfl, hset⟩
          · rintro ⟨before, other, held, after, heq, hbefore, hrefused⟩
            cases before with
            | nil =>
                cases heq
                cases hbefore
                rw [hset] at hrefused
                cases hrefused
                rfl
            | cons first before =>
                cases heq
                rw [setAll, hset] at hbefore
                cases hbefore
      | ok next =>
          rw [ih]
          constructor
          · rintro ⟨before, other, held, after, rfl, hbefore, hrefused⟩
            refine ⟨(key, value) :: before, other, held, after, rfl, ?_, hrefused⟩
            rw [setAll, hset]
            exact hbefore
          · rintro ⟨before, other, held, after, heq, hbefore, hrefused⟩
            cases before with
            | nil =>
                cases heq
                cases hbefore
                cases hset.symm.trans hrefused
            | cons first before =>
                cases heq
                rw [setAll, hset] at hbefore
                exact ⟨before, other, held, after, rfl, hbefore, hrefused⟩

/-! ## The first option that is refused -/

/-- A member of a map is the first in the order of the keys that is refused. -/
structure IsFirstRefused (options : Options) (members : Members) (key : String) (value : Value) :
    Prop where
  mem : (key, value) ∈ members
  refused : ¬ options.Accepts key value
  first : ∀ member ∈ members, member.1 < key → options.Accepts member.1 member.2

/-- No refused member comes before the first. -/
theorem IsFirstRefused.not_lt {name : String} {held : Value}
    (first : options.IsFirstRefused members key value)
    (other : options.IsFirstRefused members name held) : ¬ name < key :=
  fun hlt => other.refused (first.first _ other.mem hlt)

theorem IsFirstRefused.unique {name : String} {held : Value}
    (ordered : members.keys.Pairwise (· < ·)) (first : options.IsFirstRefused members key value)
    (other : options.IsFirstRefused members name held) : key = name ∧ value = held := by
  obtain rfl : key = name :=
    String.le_antisymm (String.not_lt.1 (first.not_lt other)) (String.not_lt.1 (other.not_lt first))
  have hvalue := (Members.get?_eq_some_iff ordered).2 first.mem
  rw [(Members.get?_eq_some_iff ordered).2 other.mem] at hvalue
  exact ⟨rfl, (Option.some.inj hvalue).symm⟩

/-- In a map the keys before a key are smaller and those after it greater. -/
theorem lt_and_gt_of_ordered {before after : Members}
    (ordered : (before ++ (key, value) :: after).keys.Pairwise (· < ·)) :
    (∀ member ∈ before, member.1 < key) ∧ ∀ member ∈ after, key < member.1 := by
  refine ⟨fun member hmember => ?_, fun member hmember => ?_⟩
  · exact Members.forall_lt_of_pairwise ordered member.1 (List.mem_map_of_mem hmember)
  · rw [Members.keys, List.map_append, List.map_cons, List.pairwise_append,
      List.pairwise_cons] at ordered
    exact ordered.2.1.1 member.1 (List.mem_map_of_mem hmember)

theorem filter_lt_of_ordered {before after : Members}
    (ordered : (before ++ (key, value) :: after).keys.Pairwise (· < ·)) :
    (before ++ (key, value) :: after).filter (·.1 < key) = before := by
  obtain ⟨hbefore, hafter⟩ := lt_and_gt_of_ordered ordered
  rw [List.filter_append, List.filter_eq_self.2, List.filter_cons_of_neg (by simp),
    List.filter_eq_nil_iff.2, List.append_nil]
  · intro member hmember hlt
    exact String.lt_asymm (hafter member hmember) (of_decide_eq_true hlt)
  · exact fun member hmember => decide_eq_true (hbefore member hmember)

theorem filter_ne_of_ordered {before after : Members}
    (ordered : (before ++ (key, value) :: after).keys.Pairwise (· < ·)) :
    (before ++ (key, value) :: after).filter (·.1 ≠ key) = before ++ after := by
  obtain ⟨hbefore, hafter⟩ := lt_and_gt_of_ordered ordered
  rw [List.filter_append, List.filter_cons_of_neg (by simp), List.filter_eq_self.2,
    List.filter_eq_self.2]
  · exact fun member hmember => decide_eq_true (String.ne_of_lt (hafter member hmember)).symm
  · exact fun member hmember => decide_eq_true (String.ne_of_lt (hbefore member hmember))

/-- When options in the order of their keys are not all set, it is for the first that is refused,
and the options with smaller keys are set. -/
theorem exists_isFirstRefused (ordered : members.keys.Pairwise (· < ·))
    (failed : options.setAll members = (left, .error invalid)) :
    ∃ key value, options.IsFirstRefused members key value ∧
      options.setAll (members.filter (·.1 < key)) = (left, .ok ()) ∧
      ∀ options : Options, options.set key value = .error invalid := by
  obtain ⟨before, key, value, after, rfl, hbefore, hrefused⟩ := setAll_eq_error_iff.1 failed
  have hrefused : ∀ options : Options, options.set key value = .error invalid :=
    fun options => (set_eq_error_congr options left).2 hrefused
  rw [← filter_lt_of_ordered ordered] at hbefore
  refine ⟨key, value, ⟨by simp, ?_, fun member hmember hlt => ?_⟩, hbefore, hrefused⟩
  · rintro ⟨changed, hset⟩
    cases hset.symm.trans (hrefused options)
  · refine (setAll_eq_ok_iff.1 hbefore).1 member ?_
    exact List.mem_filter.2 ⟨hmember, decide_eq_true hlt⟩

end Options

end MailMerge
