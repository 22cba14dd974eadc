import Mathlib.Data.List.Nodup
import NodeDescriptor.Dict

/-!
# Keys and entries of dictionaries

Which keys a dictionary has after entries were written to it, and that a list with distinct keys
is the dictionary that is made from it.
-/

set_option autoImplicit false

namespace NodeDescriptor

variable {α β : Type}

theorem map_eq_self_iff {items : List α} {f : α → α} :
    items.map f = items ↔ ∀ item ∈ items, f item = item := by
  have pointwise : items.map f = items.map id ↔ ∀ item ∈ items, f item = id item :=
    List.map_inj_left
  rwa [List.map_id] at pointwise

namespace Entries

theorem lookup_isSome_iff {entries : List (String × α)} {key : String} :
    (entries.lookup key).isSome = true ↔ key ∈ keys entries := by
  simp only [List.lookup_isSome_iff, beq_iff_eq, keys, List.mem_map]
  constructor
  · intro found
    obtain ⟨entry, member, same⟩ := found
    exact ⟨entry, member, same.symm⟩
  · intro found
    obtain ⟨entry, member, same⟩ := found
    exact ⟨entry, member, same.symm⟩

theorem mem_of_lookup {entries : List (String × α)} {key : String} {value : α}
    (found : entries.lookup key = some value) : (key, value) ∈ entries := by
  obtain ⟨before, after, rfl, -⟩ := List.lookup_eq_some_iff.mp found
  simp

/-- Where keys are distinct, looking a key up finds its only entry. -/
theorem lookup_eq_some_iff_mem {entries : List (String × α)} (distinct : (keys entries).Nodup)
    {key : String} {value : α} : entries.lookup key = some value ↔ (key, value) ∈ entries := by
  constructor
  · exact mem_of_lookup
  · intro member
    have present : (entries.lookup key).isSome = true :=
      lookup_isSome_iff.mpr (List.mem_map_of_mem (f := Prod.fst) member)
    obtain ⟨other, found⟩ := Option.isSome_iff_exists.mp present
    have same : (key, other) = (key, value) :=
      List.inj_on_of_nodup_map distinct (mem_of_lookup found) member rfl
    rw [found]
    exact congrArg some (Prod.mk.inj same).2

theorem lookup_map_values (entries : List (String × α)) (f : α → β) (key : String) :
    (entries.map fun entry => (entry.1, f entry.2)).lookup key = (entries.lookup key).map f := by
  induction entries with
  | nil => rfl
  | cons entry rest ih =>
      rw [List.map_cons, List.lookup_cons, List.lookup_cons, ih]
      cases key == entry.1 <;> rfl

/-- Where keys are distinct, it does not matter from which end a key is looked up. -/
theorem lookup_reverse {entries : List (String × α)} (distinct : (keys entries).Nodup)
    (key : String) : entries.reverse.lookup key = entries.lookup key := by
  have reversed : (keys entries.reverse).Nodup := by
    rw [keys, List.map_reverse]
    exact List.nodup_reverse.mpr distinct
  refine Option.ext fun value => ?_
  rw [lookup_eq_some_iff_mem reversed, lookup_eq_some_iff_mem distinct, List.mem_reverse]

theorem mem_keys_put {entries : List (String × α)} {key other : String} {value : α} :
    other ∈ keys (put entries key value) ↔ other ∈ keys entries ∨ other = key := by
  rw [keys_put]
  split
  · rename_i present
    exact ⟨Or.inl, fun either => either.elim id fun same => same ▸ present⟩
  · simp

theorem mem_keys_merge {entries additions : List (String × α)} {other : String} :
    other ∈ keys (merge entries additions) ↔ other ∈ keys entries ∨ other ∈ keys additions := by
  induction additions generalizing entries with
  | nil => simp [merge]
  | cons entry rest ih =>
      have step : merge entries (entry :: rest) = merge (put entries entry.1 entry.2) rest := rfl
      rw [step, ih, mem_keys_put, keys_cons, List.mem_cons, or_assoc]

theorem mem_of_mem_put {entries : List (String × α)} {key : String} {value : α}
    {entry : String × α} (member : entry ∈ put entries key value) :
    entry ∈ entries ∨ entry = (key, value) := by
  induction entries with
  | nil => exact Or.inr (List.mem_singleton.mp member)
  | cons first rest ih =>
      obtain ⟨other, current⟩ := first
      rw [put] at member
      split at member
      · rcases List.mem_cons.mp member with rfl | inRest
        · exact Or.inr rfl
        · exact Or.inl (List.mem_cons_of_mem _ inRest)
      · rcases List.mem_cons.mp member with rfl | inRest
        · exact Or.inl List.mem_cons_self
        · exact (ih inRest).imp_left (List.mem_cons_of_mem _)

theorem mem_of_mem_merge {entries additions : List (String × α)} {entry : String × α}
    (member : entry ∈ merge entries additions) : entry ∈ entries ∨ entry ∈ additions := by
  induction additions generalizing entries with
  | nil => exact Or.inl member
  | cons addition rest ih =>
      rcases ih member with earlier | inRest
      · rcases mem_of_mem_put earlier with inEntries | rfl
        · exact Or.inl inEntries
        · exact Or.inr List.mem_cons_self
      · exact Or.inr (List.mem_cons_of_mem _ inRest)

theorem put_of_not_mem {entries : List (String × α)} {key : String} (absent : key ∉ keys entries)
    (value : α) : put entries key value = entries ++ [(key, value)] := by
  induction entries with
  | nil => rfl
  | cons entry rest ih =>
      obtain ⟨other, current⟩ := entry
      rw [keys_cons, List.mem_cons, not_or] at absent
      have different : other ≠ key := fun same => absent.1 same.symm
      rw [put, if_neg different, ih absent.2, List.cons_append]

theorem not_mem_keys_of_nodup_append {before rest : List (String × α)} {key : String} {value : α}
    (distinct : (keys (before ++ (key, value) :: rest)).Nodup) : key ∉ keys before := by
  intro present
  rw [keys, List.map_append, List.nodup_append] at distinct
  exact distinct.2.2 key present key (by simp) rfl

theorem merge_of_nodup {entries additions : List (String × α)}
    (distinct : (keys (entries ++ additions)).Nodup) :
    merge entries additions = entries ++ additions := by
  induction additions generalizing entries with
  | nil => simp [merge]
  | cons entry rest ih =>
      obtain ⟨key, value⟩ := entry
      have absent := not_mem_keys_of_nodup_append distinct
      have step : merge entries ((key, value) :: rest) = merge (put entries key value) rest := rfl
      have shifted : entries ++ [(key, value)] ++ rest = entries ++ (key, value) :: rest := by simp
      rw [step, put_of_not_mem absent, ih (shifted ▸ distinct), shifted]

end Entries

namespace Dict

theorem contains_iff {dict : Dict α} {key : String} : dict.contains key = true ↔ key ∈ dict.keys :=
  Entries.lookup_isSome_iff

theorem get?_eq_some_iff {dict : Dict α} {key : String} {value : α} :
    dict.get? key = some value ↔ (key, value) ∈ dict.entries :=
  Entries.lookup_eq_some_iff_mem dict.distinct

theorem mem_keys_insert {dict : Dict α} {key other : String} {value : α} :
    other ∈ (dict.insert key value).keys ↔ other ∈ dict.keys ∨ other = key :=
  Entries.mem_keys_put

theorem mem_of_mem_ofList {entries : List (String × α)} {entry : String × α}
    (listed : entry ∈ (ofList entries).entries) : entry ∈ entries :=
  (Entries.mem_of_mem_merge listed).resolve_left List.not_mem_nil

@[simp] theorem ofList_entries (dict : Dict α) : ofList dict.entries = dict := by
  apply ext_entries
  rw [entries_ofList, Entries.merge_of_nodup] <;> simp [dict.distinct]

theorem mapValues_eq_self_iff {dict : Dict α} {f : α → α} :
    dict.mapValues f = dict ↔ ∀ entry ∈ dict.entries, f entry.2 = entry.2 := by
  have sameEntries : dict.mapValues f = dict ↔
      dict.entries.map (fun entry => (entry.1, f entry.2)) = dict.entries :=
    ⟨congrArg entries, fun same => ext_entries same⟩
  rw [sameEntries, map_eq_self_iff]
  simp [Prod.ext_iff]

@[simp] theorem mapValues_id (dict : Dict α) : dict.mapValues id = dict :=
  mapValues_eq_self_iff.mpr fun _ _ => rfl

end Dict

end NodeDescriptor
