import NodeDescriptor.Distinct
import NodeDescriptor.Proofs.Dict

/-!
# First occurrences and last values

What collecting values leaves of a list: the values without repeats, in the order in which they
first occur. A dictionary that is made by writing entries one after another orders its keys in this
way, and under each key it has the value that was written last.
-/

set_option autoImplicit false

namespace NodeDescriptor

/-! ## Values without repeats -/

section Values

variable {α : Type} [DecidableEq α] {values others seen firsts : List α}

/-- The values of a list, ordered by their first positions in it. -/
structure FirstOccurrences (values firsts : List α) : Prop where
  mem_iff : ∀ value, value ∈ firsts ↔ value ∈ values
  ordered : firsts.Pairwise fun one other => values.idxOf one < values.idxOf other

namespace FirstOccurrences

private theorem nodup (collected : FirstOccurrences values firsts) : firsts.Nodup :=
  collected.ordered.imp fun earlier same => absurd (same ▸ earlier) (Nat.lt_irrefl _)

theorem perm {otherFirsts : List α} (collected : FirstOccurrences values firsts)
    (collectedOther : FirstOccurrences others otherFirsts) (permuted : values.Perm others) :
    firsts.Perm otherFirsts := by
  rw [List.perm_ext_iff_of_nodup collected.nodup collectedOther.nodup]
  intro value
  rw [collected.mem_iff, collectedOther.mem_iff, permuted.mem_iff]

theorem unique {otherFirsts : List α} (collected : FirstOccurrences values firsts)
    (collectedOther : FirstOccurrences values otherFirsts) : firsts = otherFirsts :=
  List.Perm.eq_of_pairwise
    (fun _ _ _ _ earlier later => absurd (Nat.lt_trans earlier later) (Nat.lt_irrefl _))
    collected.ordered collectedOther.ordered (collected.perm collectedOther (List.Perm.refl _))

theorem nil : FirstOccurrences ([] : List α) [] := ⟨fun _ => Iff.rfl, List.Pairwise.nil⟩

private theorem ordered_append (collected : FirstOccurrences seen firsts) (more : List α) :
    firsts.Pairwise fun one other => (seen ++ more).idxOf one < (seen ++ more).idxOf other := by
  refine collected.ordered.imp_of_mem fun {one other} listed listedOther earlier => ?_
  rw [List.idxOf_append_of_mem ((collected.mem_iff one).mp listed),
    List.idxOf_append_of_mem ((collected.mem_iff other).mp listedOther)]
  exact earlier

theorem add (collected : FirstOccurrences seen firsts) (value : α) :
    FirstOccurrences (seen ++ [value]) (Distinct.add firsts value) := by
  constructor
  · intro other
    rw [Distinct.mem_add, collected.mem_iff, List.mem_append, List.mem_singleton]
  · unfold Distinct.add
    split
    · exact collected.ordered_append [value]
    · rename_i fresh
      have unseen : value ∉ seen := fun listed => fresh ((collected.mem_iff value).mpr listed)
      refine List.pairwise_append.mpr
        ⟨collected.ordered_append [value], List.pairwise_singleton _ _, ?_⟩
      intro earlier listed last single
      have before : earlier ∈ seen := (collected.mem_iff earlier).mp listed
      rw [List.mem_singleton.mp single, List.idxOf_append_of_mem before,
        List.idxOf_append_of_notMem unseen]
      exact Nat.lt_add_right _ (List.idxOf_lt_length_iff.mpr before)

theorem addAll (collected : FirstOccurrences seen firsts) (rest : List α) :
    FirstOccurrences (seen ++ rest) (Distinct.addAll firsts rest) := by
  -- What was collected so far belongs to the values seen so far.
  induction rest generalizing seen firsts with
  | nil =>
      rw [List.append_nil]
      exact collected
  | cons value rest ih =>
      have step : Distinct.addAll firsts (value :: rest) =
          Distinct.addAll (Distinct.add firsts value) rest := rfl
      rw [step, List.append_cons]
      exact ih (collected.add value)

theorem ofList (values : List α) : FirstOccurrences values (Distinct.ofList values) :=
  nil.addAll values

end FirstOccurrences

private theorem Distinct.addAll_of_subset {additions : List α} (present : additions ⊆ values) :
    addAll values additions = values := by
  induction additions with
  | nil => rfl
  | cons value rest ih =>
      have step : addAll values (value :: rest) = addAll (add values value) rest := rfl
      rw [List.cons_subset] at present
      rw [step, add, if_pos present.1, ih present.2]

theorem Distinct.addAll_addAll_self (values additions : List α) :
    addAll (addAll values additions) additions = addAll values additions :=
  addAll_of_subset fun _ added => mem_addAll.mpr (.inr added)

/-- Of distinct values, exactly those that are not there yet are appended. -/
theorem Distinct.addAll_eq_append_filter {additions : List α} (distinct : additions.Nodup) :
    addAll values additions = values ++ additions.filter (· ∉ values) := by
  induction additions generalizing values with
  | nil => simp [addAll]
  | cons value rest ih =>
      obtain ⟨absent, others⟩ := List.nodup_cons.mp distinct
      have step : addAll values (value :: rest) = addAll (add values value) rest := rfl
      rw [step, ih others]
      by_cases present : value ∈ values
      · rw [add, if_pos present, List.filter_cons_of_neg (by simpa using present)]
      · have same : rest.filter (· ∉ values ++ [value]) = rest.filter (· ∉ values) := by
          refine List.filter_congr fun other listed => ?_
          have different : other ≠ value := fun equal => absent (equal ▸ listed)
          simp [different]
        rw [add, if_neg present, List.filter_cons_of_pos (by simpa using present), same,
          List.append_assoc, List.singleton_append]

end Values

/-! ## Dictionaries -/

section Dictionaries

variable {α : Type} {entries additions : List (String × α)} {key other : String} {value : α}

namespace Entries

private theorem lookup_put :
    (put entries key value).lookup other = ((key, value) :: entries).lookup other := by
  by_cases same : other = key
  · subst same
    rw [lookup_put_self, List.lookup_cons_self]
  · have different : (other == key) = false := beq_eq_false_iff_ne.mpr same
    rw [lookup_put_of_ne same, List.lookup_cons, different]

private theorem lookup_merge :
    (merge entries additions).lookup key = (additions.reverse ++ entries).lookup key := by
  induction additions generalizing entries with
  | nil => rfl
  | cons entry rest ih =>
      have step : merge entries (entry :: rest) = merge (put entries entry.1 entry.2) rest := rfl
      rw [step, ih, List.reverse_cons, List.append_assoc, List.singleton_append,
        List.lookup_append, List.lookup_append, lookup_put]

theorem keys_merge :
    keys (merge entries additions) = Distinct.addAll (keys entries) (keys additions) := by
  induction additions generalizing entries with
  | nil => rfl
  | cons entry rest ih =>
      have step : merge entries (entry :: rest) = merge (put entries entry.1 entry.2) rest := rfl
      rw [step, ih, keys_put]
      rfl

theorem lookup_merge_of_nodup (distinct : (keys additions).Nodup) :
    (merge entries additions).lookup key = (additions.lookup key).or (entries.lookup key) := by
  rw [lookup_merge, List.lookup_append, lookup_reverse distinct]

/-- Entries with distinct keys are told by their keys and by what is found under them. -/
theorem ext_of_lookup {left right : List (String × α)} (distinctLeft : (keys left).Nodup)
    (distinctRight : (keys right).Nodup) (sameKeys : keys left = keys right)
    (same : ∀ key, left.lookup key = right.lookup key) : left = right := by
  have rebuilt : ∀ entries : List (String × α), (keys entries).Nodup →
      (keys entries).filterMap (fun key => (entries.lookup key).map (key, ·)) = entries := by
    intro entries distinct
    rw [keys, List.filterMap_map]
    refine Eq.trans (List.filterMap_congr fun entry listed => ?_) List.filterMap_some
    have found : entries.lookup entry.1 = some entry.2 :=
      (lookup_eq_some_iff_mem distinct).mpr listed
    rw [Function.comp_apply, found, Option.map_some]
  rw [← rebuilt left distinctLeft, ← rebuilt right distinctRight, sameKeys]
  exact List.filterMap_congr fun key _ => by rw [same]

theorem merge_merge_self (distinct : (keys entries).Nodup) :
    merge (merge entries additions) additions = merge entries additions := by
  have once : (keys (merge entries additions)).Nodup := nodup_keys_merge distinct additions
  refine ext_of_lookup (nodup_keys_merge once additions) once ?_ fun key => ?_
  · rw [keys_merge, keys_merge, Distinct.addAll_addAll_self]
  · rw [lookup_merge, List.lookup_append, lookup_merge, List.lookup_append, ← Option.or_assoc,
      Option.or_self]

private theorem lookup_reverse_eq_some_iff :
    entries.reverse.lookup key = some value ↔
      ∃ before after, entries = before ++ (key, value) :: after ∧ key ∉ keys after := by
  rw [List.lookup_eq_some_iff]
  constructor
  · rintro ⟨after, before, split, passed⟩
    refine ⟨before.reverse, after.reverse, ?_, ?_⟩
    · rw [← List.reverse_reverse entries, split]
      simp
    · intro listed
      obtain ⟨entry, inAfter, same⟩ := List.mem_map.mp listed
      have different := passed entry (List.mem_reverse.mp inAfter)
      rw [same] at different
      simp at different
  · rintro ⟨before, after, rfl, absent⟩
    refine ⟨after.reverse, before.reverse, by simp, fun entry listed => ?_⟩
    rw [bne_iff_ne]
    rintro rfl
    exact absent (List.mem_map_of_mem (List.mem_reverse.mp listed))

end Entries

/-- A dictionary has the keys of a list of entries in the order in which they first occur, each
with the value of its last entry. -/
structure Dict.Collects (dict : Dict α) (given : List (String × α)) : Prop where
  keys : FirstOccurrences (Entries.keys given) dict.keys
  last : ∀ key value, dict.get? key = some value ↔
    ∃ before after, given = before ++ (key, value) :: after ∧ key ∉ Entries.keys after

theorem Dict.collects_of_entries {dict : Dict α} {given : List (String × α)}
    (written : dict.entries = Entries.merge [] given) : dict.Collects given := by
  constructor
  · rw [Dict.keys, written, Entries.keys_merge]
    exact FirstOccurrences.ofList (Entries.keys given)
  · intro key value
    rw [Dict.get?, written, Entries.lookup_merge, List.append_nil,
      Entries.lookup_reverse_eq_some_iff]

theorem Dict.collects_iff {dict : Dict α} {given : List (String × α)} :
    dict.Collects given ↔ dict = Dict.ofList given := by
  have made : (ofList given).Collects given := collects_of_entries (entries_ofList given)
  constructor
  · intro collected
    apply ext_entries
    refine Entries.ext_of_lookup dict.distinct (ofList given).distinct
      (collected.keys.unique made.keys) fun key => Option.ext fun value => ?_
    exact (collected.last key value).trans (made.last key value).symm
  · rintro rfl
    exact made

end Dictionaries

end NodeDescriptor
