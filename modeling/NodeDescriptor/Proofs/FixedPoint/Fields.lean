import NodeDescriptor.Proofs.Comments
import NodeDescriptor.Proofs.RoundTrip.Values

/-!
# Checking fields that were written

What is written of a value is one of the forms that a descriptor may use for it, and no short one.
So a check finds nothing in a field that was written and answers what was written; a field that
was left out is read as nothing.
-/

set_option autoImplicit false

namespace NodeDescriptor

variable {α β : Type}

theorem Checked.eq_clean {checked : Checked α} {value : α} (answers : checked.value = value)
    (findings : checked.findings = []) : checked = .clean value := by
  cases checked
  cases answers
  cases findings
  rfl

/-! ## Fields that are left out -/

@[simp] theorem getD_map_some (value : Option α) : (value.map some).getD none = value := by
  cases value <;> rfl

namespace Record

/-- A list that is not empty. -/
def someList (values : List α) : Option (List α) := if values.isEmpty then none else some values

/-- A dictionary that is not empty. -/
def someDict (dict : Dict α) : Option (Dict α) := if dict.isEmpty then none else some dict

private theorem eq_of_someList {values given : List α} (kept : someList values = some given) :
    given = values := by
  unfold someList at kept
  split at kept
  · cases kept
  · exact (Option.some.inj kept).symm

theorem eq_of_someDict {dict given : Dict α} (kept : someDict dict = some given) :
    given = dict := by
  unfold someDict at kept
  split at kept
  · cases kept
  · exact (Option.some.inj kept).symm

private theorem listValue_eq_map (values : List α) (write : α → Json) :
    listValue values write = (someList values).map fun given => .array (given.map write) := by
  unfold listValue someList
  split <;> rfl

theorem dictValue_eq_map (dict : Dict α) (write : α → Json) :
    dictValue dict write = (someDict dict).map (ofDict write) := by
  unfold dictValue someDict
  split <;> rfl

@[simp] theorem getD_someList (values : List α) : (someList values).getD [] = values := by
  cases values <;> rfl

@[simp] theorem getD_someDict (dict : Dict α) : (someDict dict).getD .empty = dict := by
  unfold someDict
  split
  · rename_i empty
    exact (Dict.ext_entries (List.isEmpty_iff.mp empty)).symm
  · rfl

end Record

theorem Metadata.toJson_eq (metadata : Metadata) : metadata.toJson = .object metadata.entries := by
  simp [toJson, Record.ofDict]

namespace Member

variable {stored : List (String × Json)} {key : String} {check : Json → Checked (Option β)}

/-! ## Single fields -/

theorem form_eq_clean {form? : Json → Option α} {expected : String} {value : Json} {result : α}
    (read : form? value = some result) : form form? expected value = .clean (some result) := by
  rw [form, read]

theorem required_of_lookup (value : Json) {result : β} (found : stored.lookup key = some value)
    (reads : check value = .clean (some result)) :
    required stored key check = .clean (some result) := by
  simp only [required, found, reads]
  rfl

theorem withDefault_of_lookup (value : Json) {default result : β}
    (found : stored.lookup key = some value) (reads : check value = .clean (some result)) :
    withDefault stored key default check = .clean (some result) := by
  simp only [withDefault, found, reads]
  rfl

theorem optional_of_given (value : Json) {result : β} (found : stored.lookup key = some value)
    (reads : check value = .clean (some result)) :
    optional stored key check = .clean (some result) := by
  simp only [optional, found, reads]
  rfl

theorem optional_of_lookup (write : α → Json) {result : α → β} {value : Option α}
    (found : stored.lookup key = value.map write)
    (reads : ∀ given, value = some given → check (write given) = .clean (some (result given))) :
    optional stored key check = .clean (value.map result) := by
  cases value with
  | none => simp only [optional, found, Option.map_none]
  | some given =>
      simp only [optional, found, Option.map_some, reads given rfl]
      rfl

theorem optional_list (write : α → Json) {result : List α → β} {values : List α}
    (found : stored.lookup key = Record.listValue values write)
    (reads : check (.array (values.map write)) = .clean (some (result values))) :
    optional stored key check = .clean ((Record.someList values).map result) := by
  rw [Record.listValue_eq_map] at found
  refine optional_of_lookup _ found fun given kept => ?_
  rw [Record.eq_of_someList kept]
  exact reads

theorem optional_dict (write : α → Json) {result : Dict α → β} {dict : Dict α}
    (found : stored.lookup key = Record.dictValue dict write)
    (reads : check (Record.ofDict write dict) = .clean (some (result dict))) :
    optional stored key check = .clean ((Record.someDict dict).map result) := by
  rw [Record.dictValue_eq_map] at found
  refine optional_of_lookup _ found fun given kept => ?_
  rw [Record.eq_of_someDict kept]
  exact reads

/-! ## Forms -/

theorem keyword_eq_clean [Keyword α] {expected : String} (given : α) :
    form Record.keyword? expected (Record.ofKeyword given) = .clean (some given) :=
  form_eq_clean (Record.keyword?_ofKeyword given)

theorem word_eq_clean [Keyword α] {expected : String} (given : α) :
    word expected (Record.ofKeyword given) = .clean (some (some given)) := by
  simp only [Record.ofKeyword, word, Keyword.ofWord?_word]
  rfl

theorem strings_eq_clean (texts : List String) :
    strings (.ofStrings texts) = .clean (some texts) :=
  form_eq_clean (Json.mapM_asString?_eq_some_iff.mpr rfl)

end Member

end NodeDescriptor
