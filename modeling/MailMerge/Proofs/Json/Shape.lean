/-
# What lies within a JSON value

A value is inspected through the values within it. It is ordered when the keys of every
object within it increase, as the keys of members always do that were given one after the
other, and it is exact when no number within it is a floating-point number.
-/

import MailMerge.Json.Printer
import MailMerge.Json.Reader

namespace MailMerge.Json

/-- What a value has when the values it holds have it, every value has. -/
@[elab_as_elim, induction_eliminator]
theorem Value.induction {motive : Value → Prop} (null : motive .null)
    (bool : ∀ b, motive (.bool b)) (number : ∀ n, motive (.number n))
    (string : ∀ s, motive (.string s))
    (array : ∀ items, (∀ item ∈ items, motive item) → motive (.array items))
    (object : ∀ members, (∀ member ∈ members, motive member.2) → motive (.object members)) :
    (value : Value) → motive value
  | .null => null
  | .bool b => bool b
  | .number n => number n
  | .string s => string s
  | .array items => array items fun item _ =>
      Value.induction null bool number string array object item
  | .object members => object members fun member _ =>
      Value.induction null bool number string array object member.2
termination_by value => sizeOf value
decreasing_by
  · decreasing_tactic
  · obtain ⟨key, value⟩ := member
    have hsmaller := List.sizeOf_lt_of_mem ‹_ ∈ members›
    simp only [Prod.mk.sizeOf_spec, Value.object.sizeOf_spec] at hsmaller ⊢
    omega

/-! ## Texts and outlines of parts -/

theorem writeItems_eq_map (items : List Value) : writeItems items = items.map Value.write := by
  induction items with
  | nil => rfl
  | cons item items ih => rw [writeItems, ih, List.map_cons]

theorem writeMembers_eq_map (members : Members) :
    writeMembers members = members.map fun member => (member.1, member.2.write) := by
  induction members with
  | nil => rfl
  | cons member members ih => rw [writeMembers, ih, List.map_cons]

theorem outlineItems_eq_map (items : List Value) :
    outlineItems items = items.map Value.outline := by
  induction items with
  | nil => rfl
  | cons item items ih => rw [outlineItems, ih, List.map_cons]

theorem outlineMembers_eq_map (members : Members) :
    outlineMembers members = members.map fun member => (some member.1, member.2.outline) := by
  induction members with
  | nil => rfl
  | cons member members ih => rw [outlineMembers, ih, List.map_cons]

/-! ## Values within a value -/

/-- A value is another one or lies somewhere inside it. -/
inductive Value.Within : Value → Value → Prop
  | self (value : Value) : Within value value
  | item {inner item : Value} {items : List Value} (hitem : item ∈ items)
      (hinner : Within inner item) : Within inner (.array items)
  | member {inner : Value} {member : String × Value} {members : Members}
      (hmember : member ∈ members) (hinner : Within inner member.2) :
      Within inner (.object members)

/-- The keys of an object; other values have none. -/
def Value.keys : Value → List String
  | .object members => Members.keys members
  | _ => []

/-- The keys of every object within the value increase. -/
def Value.IsOrdered (value : Value) : Prop :=
  ∀ inner : Value, inner.Within value → inner.keys.Pairwise (· < ·)

/-- Every number within the value is an integer. -/
def Value.IsExact (value : Value) : Prop :=
  ∀ x, ¬(Value.number (.float x)).Within value

mutual

/-- How deep the arrays and objects of a value nest. -/
def Value.depth : Value → Nat
  | .array items => depthOfItems items + 1
  | .object members => depthOfMembers members + 1
  | _ => 0

/-- The depth of the deepest item. -/
def depthOfItems : List Value → Nat
  | [] => 0
  | item :: items => max item.depth (depthOfItems items)

/-- The depth of the deepest value of a member. -/
def depthOfMembers : List (String × Value) → Nat
  | [] => 0
  | (_, value) :: members => max value.depth (depthOfMembers members)

end

namespace Value

variable {items : List Value} {members : Members}

theorem IsOrdered.item {item : Value} (ordered : (array items).IsOrdered) (hitem : item ∈ items) :
    item.IsOrdered :=
  fun inner hinner => ordered inner (.item hitem hinner)

theorem IsOrdered.member {member : String × Value} (ordered : (object members).IsOrdered)
    (hmember : member ∈ members) : member.2.IsOrdered :=
  fun inner hinner => ordered inner (.member hmember hinner)

theorem IsOrdered.keys (ordered : (object members).IsOrdered) :
    (Members.keys members).Pairwise (· < ·) :=
  ordered _ (.self _)

/-- A value without parts has no keys to be out of order. -/
theorem isOrdered_of_depth_eq_zero {value : Value} (flat : value.depth = 0) :
    value.IsOrdered := by
  intro inner hinner
  cases hinner with
  | self =>
      cases value with
      | null | bool _ | number _ | string _ | array _ => exact List.Pairwise.nil
      | object members => simp [depth] at flat
  | item => simp [depth] at flat
  | member => simp [depth] at flat

theorem isOrdered_array (hitems : ∀ item ∈ items, item.IsOrdered) : (array items).IsOrdered := by
  intro inner hinner
  cases hinner with
  | self => exact List.Pairwise.nil
  | item hitem hinner => exact hitems _ hitem inner hinner

theorem isOrdered_object (hkeys : (Members.keys members).Pairwise (· < ·))
    (hmembers : ∀ member ∈ members, member.2.IsOrdered) : (object members).IsOrdered := by
  intro inner hinner
  cases hinner with
  | self => exact hkeys
  | member hmember hinner => exact hmembers _ hmember inner hinner

theorem IsExact.item {item : Value} (exact : (array items).IsExact) (hitem : item ∈ items) :
    item.IsExact :=
  fun x hx => exact x (.item hitem hx)

theorem IsExact.member {member : String × Value} (exact : (object members).IsExact)
    (hmember : member ∈ members) : member.2.IsExact :=
  fun x hx => exact x (.member hmember hx)

theorem isExact_array (hitems : ∀ item ∈ items, item.IsExact) : (array items).IsExact := by
  intro x hx
  cases hx with
  | item hitem hinner => exact hitems _ hitem x hinner

theorem isExact_object (hmembers : ∀ member ∈ members, member.2.IsExact) :
    (object members).IsExact := by
  intro x hx
  cases hx with
  | member hmember hinner => exact hmembers _ hmember x hinner

theorem depth_le_of_mem_items {item : Value} (hitem : item ∈ items) :
    item.depth ≤ depthOfItems items := by
  induction items with
  | nil => exact absurd hitem List.not_mem_nil
  | cons first items ih =>
      rw [depthOfItems]
      rcases List.mem_cons.1 hitem with rfl | hitem
      · exact Nat.le_max_left ..
      · exact Nat.le_trans (ih hitem) (Nat.le_max_right ..)

theorem depth_le_of_mem_members {member : String × Value} (hmember : member ∈ members) :
    member.2.depth ≤ depthOfMembers members := by
  induction members with
  | nil => exact absurd hmember List.not_mem_nil
  | cons first members ih =>
      rw [depthOfMembers]
      rcases List.mem_cons.1 hmember with rfl | hmember
      · exact Nat.le_max_left ..
      · exact Nat.le_trans (ih hmember) (Nat.le_max_right ..)

end Value

/-! ## Members in order -/

namespace Members

variable {members : Members} {key : String} {value : Value} {member : String × Value}

theorem mem_insert (hmember : member ∈ members.insert key value) :
    member = (key, value) ∨ member ∈ members := by
  fun_induction insert members key value with
  | case1 => exact .inl (List.mem_singleton.1 hmember)
  | case2 => exact List.mem_cons.1 hmember
  | case3 _ v rest =>
      exact (List.mem_cons.1 hmember).imp_right (List.mem_cons_of_mem _)
  | case4 k v rest _ _ ih =>
      rcases List.mem_cons.1 hmember with rfl | hmember
      · exact .inr List.mem_cons_self
      · exact (ih hmember).imp_right (List.mem_cons_of_mem _)

theorem mem_keys_insert {name : String} (hname : name ∈ (members.insert key value).keys) :
    name = key ∨ name ∈ members.keys := by
  obtain ⟨member, hmember, rfl⟩ := List.mem_map.1 hname
  rcases mem_insert hmember with rfl | hmember
  · exact .inl rfl
  · exact .inr (List.mem_map_of_mem hmember)

/-- Giving a key a value keeps the keys in order. -/
theorem pairwise_keys_insert (ordered : members.keys.Pairwise (· < ·)) (key : String)
    (value : Value) : (members.insert key value).keys.Pairwise (· < ·) := by
  fun_induction insert members key value with
  | case1 => exact List.pairwise_singleton ..
  | case2 k v rest hbefore =>
      refine List.pairwise_cons.2 ⟨?_, ordered⟩
      intro name hname
      rcases List.mem_cons.1 hname with rfl | hname
      · exact hbefore
      · exact String.lt_trans hbefore ((List.pairwise_cons.1 ordered).1 name hname)
  | case3 => exact ordered
  | case4 k v rest hbefore hother ih =>
      obtain ⟨hfirst, hrest⟩ := List.pairwise_cons.1 ordered
      refine List.pairwise_cons.2 ⟨?_, ih hrest⟩
      intro name hname
      rcases mem_keys_insert hname with rfl | hname
      · exact Std.lt_of_le_of_ne (String.not_lt.1 hbefore) (Ne.symm hother)
      · exact hfirst name hname

/-- A key greater than all others goes to the end. -/
theorem insert_eq_append (greatest : ∀ name ∈ members.keys, name < key) :
    members.insert key value = members ++ [(key, value)] := by
  induction members with
  | nil => rfl
  | cons first rest ih =>
      obtain ⟨hfirst, hrest⟩ := List.forall_mem_cons.1 greatest
      have hother : key ≠ first.1 := fun heq => String.lt_irrefl key (heq ▸ hfirst)
      rw [insert, if_neg (String.lt_asymm hfirst), if_neg hother, ih hrest, List.cons_append]

/-- In an order of the keys, each is greater than those before it. -/
theorem forall_lt_of_pairwise {before after : Members}
    (ordered : (before ++ (key, value) :: after).keys.Pairwise (· < ·)) :
    ∀ name ∈ before.keys, name < key := by
  rw [keys, List.map_append, List.map_cons] at ordered
  exact fun name hname => (List.pairwise_append.1 ordered).2.2 name hname key List.mem_cons_self

/-- A key that was given a value has it, and every other key has what it had. -/
theorem get?_insert (name : String) :
    (members.insert key value).get? name =
      if key = name then some value else members.get? name := by
  fun_induction insert members key value with
  | case1 => rfl
  | case2 => rfl
  | case3 =>
      rw [get?, get?]
      split <;> rfl
  | case4 k v rest _ hother ih =>
      rw [get?, get?, ih]
      by_cases hname : k = name
      · rw [if_pos hname, if_pos hname, if_neg fun hkey => hother (hkey.trans hname.symm)]
      · rw [if_neg hname, if_neg hname]

theorem mem_of_get?_eq_some {name : String} (held : members.get? name = some value) :
    (name, value) ∈ members := by
  induction members with
  | nil => cases held
  | cons first rest ih =>
      rw [get?] at held
      split at held
      · next hname =>
          cases held
          exact hname ▸ List.mem_cons_self
      · exact List.mem_cons_of_mem _ (ih held)

/-- A key has the value that stands beside it. -/
theorem get?_eq_some_iff (ordered : members.keys.Pairwise (· < ·)) {name : String} :
    members.get? name = some value ↔ (name, value) ∈ members := by
  refine ⟨mem_of_get?_eq_some, fun hmember => ?_⟩
  induction members with
  | nil => cases hmember
  | cons first rest ih =>
      obtain ⟨hfirst, hrest⟩ := List.pairwise_cons.1 ordered
      rw [get?]
      rcases List.mem_cons.1 hmember with rfl | hmember
      · exact if_pos rfl
      · have hname : first.1 ≠ name := fun heq =>
          String.lt_irrefl name (heq ▸ hfirst name (List.mem_map_of_mem hmember))
        rw [if_neg hname]
        exact ih hrest hmember

/-! ## Members from a list -/

/-- What is put in place of other members is one of the given pairs or was there before. -/
theorem mem_foldl_insert {pairs : List (String × Value)}
    (hmember : member ∈ pairs.foldl (fun members pair => members.insert pair.1 pair.2) members) :
    member ∈ pairs ∨ member ∈ members := by
  induction pairs generalizing members with
  | nil => exact .inr hmember
  | cons pair pairs ih =>
      rcases ih hmember with hmember | hmember
      · exact .inl (List.mem_cons_of_mem _ hmember)
      · rcases mem_insert hmember with rfl | hmember
        · exact .inl List.mem_cons_self
        · exact .inr hmember

theorem mem_of_mem_ofList {pairs : List (String × Value)} (hmember : member ∈ ofList pairs) :
    member ∈ pairs :=
  (mem_foldl_insert hmember).resolve_right List.not_mem_nil

theorem pairwise_keys_foldl_insert (pairs : List (String × Value))
    (ordered : members.keys.Pairwise (· < ·)) :
    (pairs.foldl (fun members pair => members.insert pair.1 pair.2)
      members).keys.Pairwise (· < ·) := by
  induction pairs generalizing members with
  | nil => exact ordered
  | cons pair pairs ih => exact ih (pairwise_keys_insert ordered pair.1 pair.2)

theorem pairwise_keys_ofList (pairs : List (String × Value)) :
    (ofList pairs).keys.Pairwise (· < ·) :=
  pairwise_keys_foldl_insert pairs List.Pairwise.nil

/-- Keys that are given no value keep what they had. -/
theorem get?_foldl_insert_of_not_mem {pairs : List (String × Value)} {name : String}
    (absent : name ∉ pairs.map Prod.fst) :
    (pairs.foldl (fun members pair => members.insert pair.1 pair.2) members).get? name =
      members.get? name := by
  induction pairs generalizing members with
  | nil => rfl
  | cons pair pairs ih =>
      rw [List.map_cons, List.mem_cons, not_or] at absent
      rw [List.foldl_cons, ih absent.2, get?_insert, if_neg (Ne.symm absent.1)]

/-- Of several values for a key the last counts. -/
theorem get?_ofList_append_cons {before after : List (String × Value)}
    (last : key ∉ after.map Prod.fst) :
    (ofList (before ++ (key, value) :: after)).get? key = some value := by
  rw [ofList, List.foldl_append, List.foldl_cons]
  refine (get?_foldl_insert_of_not_mem last).trans ?_
  rw [get?_insert, if_pos rfl]

end Members

end MailMerge.Json
