import NodeDescriptor.Attribute.Metadata
import NodeDescriptor.Diagnostic.Checked
import NodeDescriptor.Entry.Shorthand
import NodeDescriptor.Proofs.AllOrNothing

/-!
# Forms of values

The forms that members of a descriptor may take, said of JSON values and without the readers. Each
form is then matched with the reader that is used for it: the reader answers exactly on the form.
-/

set_option autoImplicit false

namespace NodeDescriptor

namespace Json

/-! ## Forms -/

def IsString (value : Json) : Prop := ∃ text, value = .string text

def IsBoolean (value : Json) : Prop := ∃ truth, value = .bool truth

/-- A list of strings. -/
def IsStringList (value : Json) : Prop := ∃ texts, value = .ofStrings texts

/-- A string or a list of strings. -/
def IsStrings (value : Json) : Prop := value.IsString ∨ value.IsStringList

/-- An object whose members are all strings. -/
def IsStringMap (value : Json) : Prop :=
  ∃ members, value = .object members ∧ ∀ member ∈ members, member.2.IsString

/-- A string that is one of some words. -/
def IsWordOf (words : List String) (value : Json) : Prop := ∃ word ∈ words, value = .string word

/-- A boolean, or a truth value in words. -/
def IsFlag (value : Json) : Prop := value.IsBoolean ∨ value.IsWordOf ["0", "1", "true", "false"]

/-- An integer in the range of versions. -/
def IsVersion (value : Json) : Prop :=
  ∃ version : Int, 1 ≤ version ∧ version ≤ 4294967295 ∧ value = .number (.integer version)

/-! ## Readers of forms -/

theorem asString?_isSome_iff {value : Json} : value.asString?.isSome = true ↔ value.IsString := by
  cases value <;> simp [asString?, IsString]

theorem asBool?_isSome_iff {value : Json} : value.asBool?.isSome = true ↔ value.IsBoolean := by
  cases value <;> simp [asBool?, IsBoolean]

theorem asString?_eq_some_iff {value : Json} {text : String} :
    value.asString? = some text ↔ value = .string text := by
  cases value <;> simp [asString?]

theorem asObject?_eq_some_iff {value : Json} {members : List (String × Json)} :
    value.asObject? = some members ↔ value = .object members := by
  cases value <;> simp [asObject?]

/-- Items that are all read as strings are the strings that were read. -/
theorem mapM_asString?_eq_some_iff {items : List Json} {texts : List String} :
    items.mapM asString? = some texts ↔ items = texts.map .string := by
  simp only [mapM_eq_some_iff, asString?_eq_some_iff]
  rw [← List.forall₂_map_right_iff, List.forall₂_eq_eq_eq]

private theorem isSome_mapM_asString?_iff {items : List Json} :
    (items.mapM asString?).isSome = true ↔ (Json.array items).IsStringList := by
  rw [Option.isSome_iff_exists]
  simp [mapM_asString?_eq_some_iff, IsStringList, ofStrings]

theorem strings?_isSome_iff {value : Json} : value.strings?.isSome = true ↔ value.IsStrings := by
  cases value with
  | array items =>
      rw [strings?, isSome_mapM_asString?_iff]
      simp [IsStrings, IsString]
  | _ => simp [strings?, IsStrings, IsString, IsStringList, ofStrings]

theorem commaList?_isSome_iff {value : Json} :
    value.commaList?.isSome = true ↔ value.IsStrings := by
  cases value with
  | array items =>
      rw [commaList?, isSome_mapM_asString?_iff]
      simp [IsStrings, IsString]
  | _ => simp [commaList?, IsStrings, IsString, IsStringList, ofStrings]

private theorem stringMembers?_isSome_iff {members : List (String × Json)} :
    (stringMembers? members).isSome = true ↔ ∀ member ∈ members, member.2.IsString := by
  simp only [stringMembers?, isSome_mapM_iff, Option.isSome_map, asString?_isSome_iff]

theorem tokenNames?_isSome_iff {value : Json} :
    value.tokenNames?.isSome = true ↔ value.IsStrings ∨ value.IsStringMap := by
  cases value with
  | object members =>
      rw [tokenNames?, Option.isSome_map, stringMembers?_isSome_iff]
      simp [IsStrings, IsString, IsStringList, ofStrings, IsStringMap]
  | _ =>
      rw [tokenNames?, Option.isSome_map, strings?_isSome_iff]
      · simp [IsStringMap]
      · simp

theorem allowedTokens?_isSome_iff {value : Json} :
    value.allowedTokens?.isSome = true ↔ value.IsStrings ∨ value.IsStringMap := by
  cases value with
  | object members =>
      rw [allowedTokens?, Option.isSome_map, stringMembers?_isSome_iff]
      simp [IsStrings, IsString, IsStringList, ofStrings, IsStringMap]
  | array items =>
      rw [allowedTokens?, Option.isSome_map, mapM_option_map, Option.isSome_map,
        isSome_mapM_asString?_iff]
      simp [IsStrings, IsString, IsStringMap]
  | _ => simp [allowedTokens?, IsStrings, IsString, IsStringList, ofStrings, IsStringMap]

theorem flag?_isSome_iff {value : Json} : value.flag?.isSome = true ↔ value.IsFlag := by
  cases value with
  | string text =>
      simp only [flag?, IsFlag, IsBoolean, IsWordOf]
      split
      · rename_i holds
        rcases holds with rfl | rfl <;> simp
      · split <;> simp_all
  | _ => simp [flag?, IsFlag, IsBoolean, IsWordOf]

theorem keyword?_eq_some_iff {α : Type} [Keyword α] {value : Json} {word : α} :
    Record.keyword? value = some word ↔ value = .string (Keyword.word word) := by
  rw [Record.keyword?, Option.bind_eq_some_iff]
  simp only [asString?_eq_some_iff, Keyword.ofWord?_eq_some_iff]
  constructor
  · intro read
    obtain ⟨text, rfl, rfl⟩ := read
    rfl
  · intro same
    cases same
    exact ⟨_, rfl, rfl⟩

/-- A closed vocabulary is read from exactly its words. -/
theorem keyword?_isSome_iff (α : Type) [Keyword α] {value : Json} :
    (Record.keyword? value : Option α).isSome = true ↔
      value.IsWordOf ((Keyword.all (α := α)).map Keyword.word) := by
  rw [Option.isSome_iff_exists]
  constructor
  · intro read
    obtain ⟨word, read⟩ := read
    exact ⟨Keyword.word word, List.mem_map_of_mem (Keyword.complete word),
      keyword?_eq_some_iff.mp read⟩
  · intro listed
    obtain ⟨text, listed, rfl⟩ := listed
    obtain ⟨word, -, rfl⟩ := List.mem_map.mp listed
    exact ⟨word, keyword?_eq_some_iff.mpr rfl⟩

end Json

end NodeDescriptor
