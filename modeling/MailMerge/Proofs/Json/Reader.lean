/-
# Values and their outlines

The outline of an ordered value reads as that value when there is room for its depth, every
value that is read is ordered, and no object within the outline of an ordered value gives a
key twice.
-/

import MailMerge.Proofs.Json.Shape
import MailMerge.Proofs.Stage

namespace MailMerge.Json

open MailMerge.Stage

/-! ## Reading an outline of a value -/

theorem readItems_outlines {room : Nat} {items : List Value}
    (hitems : ∀ item ∈ items, item.outline.toValue room = .ok item) :
    readItems room (outlineItems items) = .ok items := by
  induction items with
  | nil => rfl
  | cons item items ih =>
      obtain ⟨hitem, hitems⟩ := List.forall_mem_cons.1 hitems
      rw [outlineItems, readItems, hitem, ih hitems]
      rfl

theorem readMembers_outlines {room : Nat} {before members : Members}
    (ordered : (before ++ members).keys.Pairwise (· < ·))
    (hmembers : ∀ member ∈ members, member.2.outline.toValue room = .ok member.2) :
    readMembers room before (outlineMembers members) = .ok (before ++ members) := by
  induction members generalizing before with
  | nil => rw [outlineMembers, readMembers, List.append_nil]
  | cons member members ih =>
      obtain ⟨hmember, hmembers⟩ := List.forall_mem_cons.1 hmembers
      have greatest := Members.forall_lt_of_pairwise ordered
      rw [List.append_cons] at ordered ⊢
      rw [outlineMembers, readMembers, readKey, hmember, ← ih ordered hmembers,
        ← Members.insert_eq_append greatest]
      rfl

/-- The outline of an ordered value reads as the value when there is room for it. -/
theorem Value.toValue_outline {value : Value} (ordered : value.IsOrdered) {room : Nat}
    (hroom : value.depth ≤ room) : value.outline.toValue room = .ok value := by
  induction value generalizing room with
  | null => rfl
  | bool b => rfl
  | number n => rfl
  | string s => rfl
  | array items ih =>
      rw [Value.depth] at hroom
      have hitems : readItems (room - 1) (outlineItems items) = .ok items :=
        readItems_outlines fun item hitem => by
          have hdepth := depth_le_of_mem_items hitem
          exact ih item hitem (ordered.item hitem) (by omega)
      rw [Value.outline, Outline.toValue, if_neg (by omega), hitems]
      rfl
  | object members ih =>
      rw [Value.depth] at hroom
      have hmembers : readMembers (room - 1) [] (outlineMembers members) = .ok ([] ++ members) :=
        readMembers_outlines ordered.keys fun member hmember => by
          have hdepth := depth_le_of_mem_members hmember
          exact ih member hmember (ordered.member hmember) (by omega)
      rw [Value.outline, Outline.toValue, if_neg (by omega), hmembers]
      rfl

/-! ## Order of what is read -/

theorem Value.IsOrdered.insert {members : Members} (ordered : (Value.object members).IsOrdered)
    (key : String) {value : Value} (hvalue : value.IsOrdered) :
    (Value.object (members.insert key value)).IsOrdered := by
  refine Value.isOrdered_object (Members.pairwise_keys_insert ordered.keys key value) ?_
  intro member hmember
  rcases Members.mem_insert hmember with rfl | hmember
  · exact hvalue
  · exact ordered.member hmember

mutual

/-- Every value that is read is ordered. -/
theorem Outline.isOrdered_of_toValue : (outline : Outline) → ∀ {room : Nat} {value : Value},
    outline.toValue room = .ok value → value.IsOrdered
  | .null, _, _, read => by
      cases read
      exact Value.isOrdered_of_depth_eq_zero rfl
  | .bool b, _, _, read => by
      cases read
      exact Value.isOrdered_of_depth_eq_zero rfl
  | .number (some n), _, _, read => by
      cases read
      exact Value.isOrdered_of_depth_eq_zero rfl
  | .string (some s), _, _, read => by
      cases read
      exact Value.isOrdered_of_depth_eq_zero rfl
  | .number none, _, _, read | .string none, _, _, read | .missing, _, _, read => by cases read
  | .array items ending, room, value, read => by
      rw [Outline.toValue] at read
      split at read
      · cases read
      · obtain ⟨values, hvalues, read⟩ := bind_eq_ok_iff.1 read
        obtain ⟨_, _, read⟩ := bind_eq_ok_iff.1 read
        cases read
        exact Value.isOrdered_array (isOrdered_of_readItems items hvalues)
  | .object members ending, room, value, read => by
      rw [Outline.toValue] at read
      split at read
      · cases read
      · obtain ⟨result, hresult, read⟩ := bind_eq_ok_iff.1 read
        obtain ⟨_, _, read⟩ := bind_eq_ok_iff.1 read
        cases read
        exact isOrdered_of_readMembers members
          (Value.isOrdered_object List.Pairwise.nil (by simp)) hresult

theorem isOrdered_of_readItems : (items : List Outline) → ∀ {room : Nat} {values : List Value},
    readItems room items = .ok values → ∀ value ∈ values, value.IsOrdered
  | [], room, values, read => by
      cases read
      exact fun _ hvalue => absurd hvalue List.not_mem_nil
  | item :: items, room, values, read => by
      rw [readItems] at read
      obtain ⟨first, hfirst, read⟩ := bind_eq_ok_iff.1 read
      obtain ⟨others, hothers, read⟩ := bind_eq_ok_iff.1 read
      cases read
      exact List.forall_mem_cons.2
        ⟨item.isOrdered_of_toValue hfirst, isOrdered_of_readItems items hothers⟩

theorem isOrdered_of_readMembers : (members : List (Option String × Outline)) →
    ∀ {room : Nat} {before result : Members}, (Value.object before).IsOrdered →
      readMembers room before members = .ok result → (Value.object result).IsOrdered
  | [], room, before, result, ordered, read => by
      cases read
      exact ordered
  | (key, outline) :: members, room, before, result, ordered, read => by
      rw [readMembers] at read
      obtain ⟨key, _, read⟩ := bind_eq_ok_iff.1 read
      obtain ⟨value, hvalue, read⟩ := bind_eq_ok_iff.1 read
      exact isOrdered_of_readMembers members
        (ordered.insert key (outline.isOrdered_of_toValue hvalue)) read

end

/-! ## Keys of outlines -/

/-- An outline is another one or lies somewhere inside it. -/
inductive Outline.Within : Outline → Outline → Prop
  | self (outline : Outline) : Within outline outline
  | item {inner item : Outline} {items : List Outline} {ending : Ending} (hitem : item ∈ items)
      (hinner : Within inner item) : Within inner (.array items ending)
  | member {inner : Outline} {member : Option String × Outline}
      {members : List (Option String × Outline)} {ending : Ending} (hmember : member ∈ members)
      (hinner : Within inner member.2) : Within inner (.object members ending)

/-- The keys of an object as they are given; other outlines have none. -/
def Outline.keys : Outline → List (Option String)
  | .object members _ => members.map Prod.fst
  | _ => []

/-- No object within the outline gives a key twice. -/
def Outline.HasDistinctKeys (outline : Outline) : Prop :=
  ∀ inner : Outline, inner.Within outline → inner.keys.Nodup

theorem Outline.hasDistinctKeys_string (s : Option String) :
    (Outline.string s).HasDistinctKeys := by
  intro inner hinner
  cases hinner
  exact List.nodup_nil

theorem Outline.HasDistinctKeys.member {members : List (Option String × Outline)}
    {ending : Ending} (distinct : (Outline.object members ending).HasDistinctKeys)
    {member : Option String × Outline} (hmember : member ∈ members) :
    member.2.HasDistinctKeys :=
  fun inner hinner => distinct inner (.member hmember hinner)

theorem Outline.hasDistinctKeys_object {members : List (Option String × Outline)} {ending : Ending}
    (hkeys : (members.map Prod.fst).Nodup)
    (hmembers : ∀ member ∈ members, member.2.HasDistinctKeys) :
    (Outline.object members ending).HasDistinctKeys := by
  intro inner hinner
  cases hinner with
  | self => exact hkeys
  | member hmember hinner => exact hmembers _ hmember inner hinner

theorem keys_outlineMembers (members : Members) :
    (outlineMembers members).map Prod.fst = members.keys.map some := by
  rw [outlineMembers_eq_map, List.map_map, Members.keys, List.map_map]
  rfl

/-- Keys in order are given once. -/
theorem nodup_keys_outlineMembers {members : Members} (ordered : members.keys.Pairwise (· < ·)) :
    ((outlineMembers members).map Prod.fst).Nodup := by
  rw [keys_outlineMembers, List.Nodup, List.pairwise_map]
  refine ordered.imp fun {first second} hlt heq => ?_
  rw [Option.some.inj heq] at hlt
  exact String.lt_irrefl second hlt

/-- The outline of an ordered value gives no key twice. -/
theorem Value.IsOrdered.hasDistinctKeys {value : Value} (ordered : value.IsOrdered) :
    value.outline.HasDistinctKeys := by
  induction value with
  | null | bool _ | number _ | string _ =>
      intro inner hinner
      cases hinner
      exact List.nodup_nil
  | array items ih =>
      intro inner hinner
      rw [Value.outline, outlineItems_eq_map] at hinner
      cases hinner with
      | self => exact List.nodup_nil
      | item hitem hinner =>
          obtain ⟨item, hmem, rfl⟩ := List.mem_map.1 hitem
          exact ih item hmem (ordered.item hmem) inner hinner
  | object members ih =>
      refine Outline.hasDistinctKeys_object (nodup_keys_outlineMembers ordered.keys) ?_
      rw [outlineMembers_eq_map, List.forall_mem_map]
      exact fun member hmember => ih member hmember (ordered.member hmember)

end MailMerge.Json
