import NodeDescriptor.Json.Record
import NodeDescriptor.Proofs.AllOrNothing
import NodeDescriptor.Proofs.Dict

/-!
# Records that were written

A record is written as the fields that have something to say. Loading finds each of them again
under its name and nothing else, and lists, dictionaries and words are loaded as they were
written.
-/

set_option autoImplicit false

namespace NodeDescriptor.Record

variable {α β : Type}

/-! ## Written fields -/

/-- The members for fields, of which those without a value are left out. -/
def members (fields : List (String × Option Json)) : List (String × Json) :=
  fields.filterMap fun field => field.2.map fun value => (field.1, value)

/-- What is written of a list. -/
def listValue (values : List α) (write : α → Json) : Option Json :=
  if values.isEmpty then none else some (.array (values.map write))

/-- What is written of a dictionary. -/
def dictValue (dict : Dict α) (write : α → Json) : Option Json :=
  if dict.isEmpty then none else some (ofDict write dict)

@[simp] theorem members_nil : members [] = [] := rfl

theorem members_cons (name : String) (value : Option Json) (rest : List (String × Option Json)) :
    members ((name, value) :: rest) = field? name value id ++ members rest := by
  cases value <;> rfl

theorem field?_some (name : String) (value : Json) :
    field? name (some value) id = [(name, value)] := rfl

theorem field?_map (name : String) (value : Option α) (write : α → Json) :
    field? name (value.map write) id = field? name value write := by
  cases value <;> rfl

theorem field?_listValue (name : String) (values : List α) (write : α → Json) :
    field? name (listValue values write) id = listField name values write := by
  unfold listValue listField
  split <;> rfl

theorem field?_dictValue (name : String) (dict : Dict α) (write : α → Json) :
    field? name (dictValue dict write) id = dictField name dict write := by
  unfold dictValue dictField
  split <;> rfl

/-! ## Finding fields again -/

theorem mem_members_iff {fields : List (String × Option Json)} {name : String} {value : Json} :
    (name, value) ∈ members fields ↔ (name, some value) ∈ fields := by
  simp only [members, List.mem_filterMap, Option.map_eq_some_iff, Prod.mk.injEq, Prod.exists]
  constructor
  · intro listed
    obtain ⟨_, _, listed, _, rfl, rfl, rfl⟩ := listed
    exact listed
  · intro listed
    exact ⟨name, some value, listed, value, rfl, rfl, rfl⟩

theorem keys_members_sublist (fields : List (String × Option Json)) :
    (Entries.keys (members fields)).Sublist (fields.map Prod.fst) := by
  induction fields with
  | nil => exact List.Sublist.slnil
  | cons field rest ih =>
      obtain ⟨name, value⟩ := field
      rw [members_cons]
      cases value with
      | none => exact ih.cons name
      | some value => exact ih.cons_cons name

variable {fields : List (String × Option Json)}

theorem nodup_keys_members (distinct : (fields.map Prod.fst).Nodup) :
    (Entries.keys (members fields)).Nodup :=
  distinct.sublist (keys_members_sublist fields)

theorem lookup_members (distinct : (fields.map Prod.fst).Nodup) {name : String}
    {value? : Option Json} (written : (name, value?) ∈ fields) :
    (members fields).lookup name = value? := by
  cases value? with
  | some value =>
      rw [Entries.lookup_eq_some_iff_mem (nodup_keys_members distinct)]
      exact mem_members_iff.mpr written
  -- A value that was found would have been written under a name that says nothing.
  | none =>
      cases found : (members fields).lookup name with
      | none => rfl
      | some value =>
          have other : (name, some value) ∈ fields :=
            mem_members_iff.mp (Entries.mem_of_lookup found)
          have same : (name, some value) = (name, (none : Option Json)) :=
            List.inj_on_of_nodup_map distinct other written rfl
          cases same

theorem open?_members (distinct : (fields.map Prod.fst).Nodup) (names : List String) :
    open? names (.object (members fields)) = some (members fields) := by
  have once : ∀ name, (Entries.keys (members fields)).count name ≤ 1 :=
    List.nodup_iff_count_le_one.mp (nodup_keys_members distinct)
  simp [open?, Json.asObject?, once]

/-! ## Loading -/

/-- What is loaded of an optional value: null is no value. -/
def unlessNull : Option Json → Option Json
  | some .null => none
  | value => value

theorem unlessNull_eq_self_iff {value : Option Json} :
    unlessNull value = value ↔ value ≠ some .null := by
  cases value with
  | none => simp [unlessNull]
  | some value => cases value <;> simp [unlessNull]

section Loading

variable {stored : List (String × Json)} {field : String} {load : Json → Option β}

/-- A field that was loaded is handed to the rest of the loader. -/
theorem bind_of_loaded {γ : Type} {loaded : Option β} {value : β} {next : β → Option γ}
    {result : Option γ} (read : loaded = some value) (rest : next value = result) :
    (loaded >>= next) = result := by
  subst read
  exact rest

theorem required?_of_lookup (value : Json) {result : β} (found : stored.lookup field = some value)
    (reads : load value = some result) : required? stored field load = some result := by
  rw [required?, found, Option.bind_some, reads]

theorem withDefault?_of_lookup (value : Json) {default result : β}
    (found : stored.lookup field = some value) (reads : load value = some result) :
    withDefault? stored field default load = some result := by
  rw [withDefault?, found]
  exact reads

/-- An optional field is loaded as it was written, unless it is written as null. -/
theorem optional?_of_lookup (write : α → Json) {result : α → β} {value : Option α}
    (found : stored.lookup field = value.map write)
    (reads : ∀ value, load (write value) = some (result value))
    (real : ∀ value, write value ≠ .null) :
    optional? stored field load = some (value.map result) := by
  rw [optional?, found]
  cases value with
  | none => rfl
  | some value =>
      simp only [Option.map_some]
      split
      · contradiction
      · rename_i isNull
        exact absurd (Option.some.inj isNull) (real value)
      · rename_i written other shape
        rw [← Option.some.inj shape, reads, Option.map_some]

theorem optional?_raw {value : Option Json} (found : stored.lookup field = value.map id) :
    optional? stored field some = some (unlessNull value) := by
  rw [optional?, found]
  cases value with
  | none => rfl
  | some value => cases value <;> rfl

theorem list?_array {write : α → Json} {result : α → β} {values : List α}
    (reads : ∀ value ∈ values, load (write value) = some (result value)) :
    list? load (.array (values.map write)) = some (values.map result) := by
  rw [list?, Json.asArray?, Option.bind_some, mapM_map_eq_some reads]

theorem withDefault?_list (write : α → Json) {result : α → β} {values : List α}
    (found : stored.lookup field = listValue values write)
    (reads : ∀ value ∈ values, load (write value) = some (result value)) :
    withDefault? stored field [] (list? load) = some (values.map result) := by
  rw [listValue] at found
  split at found
  · rename_i empty
    rw [withDefault?, found, List.isEmpty_iff.mp empty, List.map_nil]
  · exact withDefault?_of_lookup _ found (list?_array reads)

theorem dict?_ofDict {write : α → Json} {result : α → β} {dict : Dict α}
    (reads : ∀ entry ∈ dict.entries, load (write entry.2) = some (result entry.2)) :
    dict? load (ofDict write dict) = some (dict.mapValues result) := by
  have each : (dict.entries.map fun entry => (entry.1, write entry.2)).mapM
      (fun member => (load member.2).map fun loaded => (member.1, loaded)) =
        some (dict.mapValues result).entries := by
    refine mapM_map_eq_some fun entry listed => ?_
    rw [reads entry listed, Option.map_some]
  rw [dict?, ofDict, Json.asObject?, Option.bind_some, each, Option.map_some, Dict.ofList_entries]

theorem withDefault?_dict (write : α → Json) {result : α → β} {dict : Dict α}
    (found : stored.lookup field = dictValue dict write)
    (reads : ∀ entry ∈ dict.entries, load (write entry.2) = some (result entry.2)) :
    withDefault? stored field .empty (dict? load) = some (dict.mapValues result) := by
  rw [dictValue] at found
  split at found
  · rename_i empty
    rw [withDefault?, found]
    refine congrArg some (Dict.ext_entries ?_)
    simp [Dict.mapValues, List.isEmpty_iff.mp empty]
  · exact withDefault?_of_lookup _ found (dict?_ofDict reads)

theorem keyword?_ofKeyword [Keyword α] (value : α) : keyword? (ofKeyword value) = some value := by
  rw [keyword?, ofKeyword, Json.asString?, Option.bind_some, Keyword.ofWord?_word]

end Loading

end NodeDescriptor.Record
