import NodeDescriptor.Json.Reader
import NodeDescriptor.Proofs.Dict

/-!
# Values without repeated keys

The tree of a JSON value admits objects that repeat a key, but no text is read as such a value:
reading merges repeated keys at every depth. So a statement about documents may ask for distinct
keys without leaving out any document that can be read.
-/

set_option autoImplicit false

namespace NodeDescriptor.Json

mutual

/-- No object in the value repeats a key. -/
def hasDistinctKeys : Json → Bool
  | .array items => itemsHaveDistinctKeys items
  | .object members => decide (Entries.keys members).Nodup && membersHaveDistinctKeys members
  | _ => true

/-- No object in any of the items repeats a key. -/
def itemsHaveDistinctKeys : List Json → Bool
  | [] => true
  | item :: rest => item.hasDistinctKeys && itemsHaveDistinctKeys rest

/-- No object in any of the members repeats a key. -/
def membersHaveDistinctKeys : List (String × Json) → Bool
  | [] => true
  | (_, value) :: rest => value.hasDistinctKeys && membersHaveDistinctKeys rest

end

private theorem itemsHaveDistinctKeys_iff {items : List Json} :
    itemsHaveDistinctKeys items = true ↔ ∀ item ∈ items, item.hasDistinctKeys = true := by
  induction items with
  | nil => simp [itemsHaveDistinctKeys]
  | cons item rest ih => rw [itemsHaveDistinctKeys, Bool.and_eq_true, ih, List.forall_mem_cons]

private theorem membersHaveDistinctKeys_iff {members : List (String × Json)} :
    membersHaveDistinctKeys members = true ↔
      ∀ member ∈ members, member.2.hasDistinctKeys = true := by
  induction members with
  | nil => simp [membersHaveDistinctKeys]
  | cons member rest ih =>
      rw [membersHaveDistinctKeys, Bool.and_eq_true, ih, List.forall_mem_cons]

theorem hasDistinctKeys_array_iff {items : List Json} :
    (Json.array items).hasDistinctKeys = true ↔ ∀ item ∈ items, item.hasDistinctKeys = true := by
  rw [hasDistinctKeys, itemsHaveDistinctKeys_iff]

theorem hasDistinctKeys_object_iff {members : List (String × Json)} :
    (Json.object members).hasDistinctKeys = true ↔
      (Entries.keys members).Nodup ∧ ∀ member ∈ members, member.2.hasDistinctKeys = true := by
  rw [hasDistinctKeys, Bool.and_eq_true, membersHaveDistinctKeys_iff, decide_eq_true_iff]

/-- The members of an object in which a member was found are distinct in turn. -/
theorem hasDistinctKeys_of_lookup {members : List (String × Json)} {key : String} {value : Json}
    (distinct : (Json.object members).hasDistinctKeys = true)
    (found : members.lookup key = some value) : value.hasDistinctKeys = true :=
  (hasDistinctKeys_object_iff.mp distinct).2 _ (Entries.mem_of_lookup found)

theorem lookup_of_mem {members : List (String × Json)} {member : String × Json}
    (distinct : (Json.object members).hasDistinctKeys = true) (listed : member ∈ members) :
    members.lookup member.1 = some member.2 :=
  (Entries.lookup_eq_some_iff_mem (hasDistinctKeys_object_iff.mp distinct).1).mpr listed

theorem nodup_keys_of_lookup {members inner : List (String × Json)} {key : String}
    (distinct : (Json.object members).hasDistinctKeys = true)
    (found : members.lookup key = some (.object inner)) : (Entries.keys inner).Nodup :=
  (hasDistinctKeys_object_iff.mp (hasDistinctKeys_of_lookup distinct found)).1

/-! ## Merging -/

private theorem hasDistinctKeys_object_put {members : List (String × Json)} {key : String}
    {value : Json}
    (before : (Json.object members).hasDistinctKeys = true)
    (distinct : value.hasDistinctKeys = true) :
    (Json.object (Entries.put members key value)).hasDistinctKeys = true := by
  obtain ⟨keys, each⟩ := hasDistinctKeys_object_iff.mp before
  rw [hasDistinctKeys_object_iff]
  refine ⟨Entries.nodup_keys_put keys key value, fun member listed => ?_⟩
  rcases Entries.mem_of_mem_put listed with earlier | rfl
  · exact each member earlier
  · exact distinct

mutual

/-- A value whose repeated keys are merged repeats none. -/
theorem hasDistinctKeys_merged : (value : Json) → value.merged.hasDistinctKeys = true
  | .array items => by
      rw [merged, hasDistinctKeys_array_iff]
      exact hasDistinctKeys_mergedItems items
  | .object members => by
      rw [merged]
      exact @hasDistinctKeys_mergedMembers [] (by decide) members
  | .null | .bool _ | .number _ | .string _ => rfl

private theorem hasDistinctKeys_mergedItems :
    (items : List Json) → ∀ item ∈ mergedItems items, item.hasDistinctKeys = true
  | [] => by simp [mergedItems]
  | item :: rest => by
      rw [mergedItems, List.forall_mem_cons]
      exact ⟨hasDistinctKeys_merged item, hasDistinctKeys_mergedItems rest⟩

private theorem hasDistinctKeys_mergedMembers {before : List (String × Json)}
    (distinct : (Json.object before).hasDistinctKeys = true) :
    (members : List (String × Json)) →
      (Json.object (mergedMembers before members)).hasDistinctKeys = true
  | [] => distinct
  | (key, value) :: rest => by
      rw [mergedMembers]
      exact hasDistinctKeys_mergedMembers
        (hasDistinctKeys_object_put distinct (hasDistinctKeys_merged value)) rest

end

mutual

/-- A value that repeats no key is merged already. -/
theorem merged_of_hasDistinctKeys :
    (value : Json) → value.hasDistinctKeys = true → value.merged = value
  | .array items, distinct => by
      rw [merged, mergedItems_of_hasDistinctKeys items (hasDistinctKeys_array_iff.mp distinct)]
  | .object members, distinct => by
      obtain ⟨keys, each⟩ := hasDistinctKeys_object_iff.mp distinct
      rw [merged, mergedMembers_of_nodup [] members keys each, List.nil_append]
  | .null, _ | .bool _, _ | .number _, _ | .string _, _ => rfl

private theorem mergedItems_of_hasDistinctKeys : (items : List Json) →
    (∀ item ∈ items, item.hasDistinctKeys = true) → mergedItems items = items
  | [], _ => rfl
  | item :: rest, each => by
      obtain ⟨head, tail⟩ := List.forall_mem_cons.mp each
      rw [mergedItems, merged_of_hasDistinctKeys item head,
        mergedItems_of_hasDistinctKeys rest tail]

private theorem mergedMembers_of_nodup (before : List (String × Json)) :
    (members : List (String × Json)) →
    (Entries.keys (before ++ members)).Nodup →
      (∀ member ∈ members, member.2.hasDistinctKeys = true) →
        mergedMembers before members = before ++ members
  | [], _, _ => (List.append_nil before).symm
  | (key, value) :: rest, keys, each => by
      obtain ⟨head, tail⟩ := List.forall_mem_cons.mp each
      have shifted : before ++ (key, value) :: rest = (before ++ [(key, value)]) ++ rest := by simp
      have absent := Entries.not_mem_keys_of_nodup_append keys
      rw [mergedMembers, merged_of_hasDistinctKeys value head, Entries.put_of_not_mem absent,
        mergedMembers_of_nodup (before ++ [(key, value)]) rest (shifted ▸ keys) tail, ← shifted]

end

/-- Whatever text is read, the value repeats no key. -/
theorem hasDistinctKeys_of_read? {text : String} {value : Json} (read : read? text = some value) :
    value.hasDistinctKeys = true := by
  obtain ⟨written, -, rfl⟩ := Option.map_eq_some_iff.mp read
  exact hasDistinctKeys_merged written

end NodeDescriptor.Json
