import NodeDescriptor.Attribute.Check
import NodeDescriptor.Proofs.DataType.Parsing
import NodeDescriptor.Proofs.Legality.Faultless

/-!
# Legal attributes

What an attribute object has to look like, member by member, and that its check finds no error
exactly in the objects that look so. A type is named by its spelling, and a set of alternatives
by the list of theirs; this needs that reading a type is the inverse of spelling it.
-/

set_option autoImplicit false

namespace NodeDescriptor

open Member (AbsentOr Present)

/-! ## Names of types -/

/-- A value names an attribute type: it is the spelling of one data type, or a list of the
spellings of at least one, all different. -/
inductive Json.NamesType : Json → AttributeType → Prop where
  | one (type : DataType) : NamesType (.string type.text) (.one type)
  | anyOf {types : List DataType} (some : types ≠ []) (distinct : types.Nodup) :
      NamesType (.array (types.map fun type => .string type.text)) (.anyOf types distinct)

namespace Json

private theorem namesType_string_iff {text : String} {type : AttributeType} :
    (Json.string text).NamesType type ↔
      ∃ single : DataType, single.text = text ∧ type = .one single := by
  constructor
  · intro named
    cases named with
    | one single => exact ⟨single, rfl, rfl⟩
  · intro named
    obtain ⟨single, rfl, rfl⟩ := named
    exact .one single

theorem namesType_array_iff {items : List Json} {type : AttributeType} :
    (Json.array items).NamesType type ↔
      ∃ (types : List DataType) (distinct : types.Nodup), types ≠ [] ∧
        items = types.map (fun single => .string single.text) ∧ type = .anyOf types distinct := by
  constructor
  · generalize shape : Json.array items = value
    intro named
    cases named with
    | one single => cases shape
    | @anyOf types some distinct =>
        cases shape
        exact ⟨types, distinct, some, rfl, rfl⟩
  · intro named
    obtain ⟨types, distinct, some, rfl, rfl⟩ := named
    exact .anyOf some distinct

end Json

namespace Attribute

theorem typeOfItem_eq_ok_iff {before : List DataType} {item : Json} {type : DataType} :
    typeOfItem before item = .ok type ↔ item = .string type.text ∧ type ∉ before := by
  unfold typeOfItem
  cases item with
  | string text =>
      simp only [Json.asString?]
      cases read : DataType.parse text with
      | error unknown =>
          have noType := (DataType.parse_eq_error_iff.mp read).2 type
          simp [noType.symm]
      | ok other =>
          obtain rfl := DataType.parse_eq_ok_iff.mp read
          by_cases repeated : other ∈ before
          · simp only [repeated, if_true, reduceCtorEq, Json.string.injEq, false_iff, not_and,
              not_not]
            intro same
            exact DataType.text_injective same ▸ repeated
          · simp only [repeated, if_false, Except.ok.injEq, Json.string.injEq]
            constructor
            · intro same
              cases same
              exact ⟨rfl, repeated⟩
            · intro same
              obtain ⟨same, -⟩ := same
              exact DataType.text_injective same
  | _ => simp [Json.asString?]

private theorem checkTypeItems_spelled {before types : List DataType}
    (distinct : (before ++ types).Nodup)
    (position : Nat) :
    checkTypeItems position before (types.map fun type => .string type.text) =
      .clean (before ++ types) := by
  induction types generalizing before position with
  | nil => simp [checkTypeItems]
  | cons type rest ih =>
      have fresh : type ∉ before := fun member =>
        (List.nodup_append.mp distinct).2.2 type member type List.mem_cons_self rfl
      have read := typeOfItem_eq_ok_iff.mpr ⟨rfl, fresh⟩
      have regrouped : before ++ type :: rest = (before ++ [type]) ++ rest := by simp
      rw [List.map_cons, checkTypeItems, read]
      simp only
      rw [regrouped] at distinct ⊢
      exact ih distinct (position + 1)

private theorem spelled_of_checkTypeItems {position : Nat} {before : List DataType}
    {items : List Json}
    (none : (checkTypeItems position before items).findings = []) (distinct : before.Nodup) :
    ∃ types : List DataType, (before ++ types).Nodup ∧
      items = types.map fun type => .string type.text := by
  induction items generalizing position before with
  | nil => exact ⟨[], by simpa using distinct, rfl⟩
  | cons item rest ih =>
      rw [checkTypeItems] at none
      split at none
      · rename_i type read
        obtain ⟨rfl, fresh⟩ := typeOfItem_eq_ok_iff.mp read
        have extended : (before ++ [type]).Nodup := by
          rw [List.nodup_append]
          refine ⟨distinct, by simp, ?_⟩
          intro other member single equal same
          cases same
          exact fresh (List.mem_singleton.mp equal ▸ member)
        obtain ⟨types, all, rfl⟩ := ih none extended
        exact ⟨type :: types, by simpa using all, rfl⟩
      · cases none

theorem typeOfItem_error_grave {before : List DataType} {item : Json} {problem : Problem}
    (refused : typeOfItem before item = .error problem) :
    problem.kind ≠ .redundantScheduling := by
  unfold typeOfItem at refused
  split at refused
  · cases refused
    simp [Problem.kind]
  · split at refused
    · cases refused
      simp [Problem.kind]
    · split at refused <;> cases refused
      simp [Problem.kind]

private theorem faultless_checkTypeItems {position : Nat} {before : List DataType}
    {items : List Json} :
    Faultless (checkTypeItems position before items).findings ↔
      (checkTypeItems position before items).findings = [] := by
  induction items generalizing position before with
  | nil => simp [checkTypeItems]
  | cons item rest ih =>
      rw [checkTypeItems]
      split
      · exact ih
      · rename_i problem refused
        simp [typeOfItem_error_grave refused]

private theorem ofTypes?_eq_some_iff {types : List DataType} {type : AttributeType} :
    AttributeType.ofTypes? types = some type ↔
      ∃ distinct : types.Nodup, type = .anyOf types distinct := by
  unfold AttributeType.ofTypes?
  constructor
  · intro made
    split at made
    · rename_i distinct
      cases made
      exact ⟨distinct, rfl⟩
    · cases made
  · intro distinct
    obtain ⟨distinct, rfl⟩ := distinct
    rw [dif_pos distinct]

/-- What is read as a type is the type that is named. -/
theorem value_checkType_eq_some_iff {value : Json} {type : AttributeType} :
    (checkType value).value = some type ↔ value.NamesType type := by
  unfold checkType
  split
  · rename_i text
    rw [Json.namesType_string_iff]
    cases read : DataType.parse text with
    | ok single =>
        obtain rfl := DataType.parse_eq_ok_iff.mp read
        simp only [Checked.value_clean, Option.some.injEq]
        constructor
        · intro same
          cases same
          exact ⟨single, rfl, rfl⟩
        · intro same
          obtain ⟨other, same, rfl⟩ := same
          rw [DataType.text_injective same]
    | error unknown =>
        have noType := (DataType.parse_eq_error_iff.mp read).2
        simp [noType]
  · rename_i item rest
    rw [Json.namesType_array_iff]
    simp only
    constructor
    · intro read
      split at read
      · rename_i empty
        have none := List.isEmpty_iff.mp empty
        obtain ⟨types, distinct, spelled⟩ := spelled_of_checkTypeItems none List.nodup_nil
        rw [spelled, checkTypeItems_spelled distinct, Checked.value_clean] at read
        obtain ⟨-, rfl⟩ := ofTypes?_eq_some_iff.mp read
        refine ⟨types, distinct, ?_, spelled, rfl⟩
        intro same
        cases same
        cases spelled
      · cases read
    · intro spelled
      obtain ⟨types, distinct, -, spelled, rfl⟩ := spelled
      rw [spelled, checkTypeItems_spelled (by simpa using distinct)]
      exact ofTypes?_eq_some_iff.mpr ⟨distinct, rfl⟩
  · rename_i notString notItems
    have unnamed : ¬value.NamesType type := by
      intro named
      cases named with
      | one single => exact notString _ rfl
      | @anyOf types some distinct =>
          cases types with
          | nil => exact some rfl
          | cons first others => exact notItems _ _ rfl
    simpa using unnamed

/-- A type is read without an error exactly when there is one. -/
theorem faultless_checkType {value : Json} :
    Faultless (checkType value).findings ↔ ∃ type, value.NamesType type := by
  simp only [← value_checkType_eq_some_iff]
  unfold checkType
  split
  · rename_i text
    cases read : DataType.parse text with
    | ok single => simp
    | error unknown => simp [Problem.kind]
  · rename_i item rest
    simp only [faultless_checkTypeItems]
    constructor
    · intro none
      obtain ⟨types, distinct, spelled⟩ := spelled_of_checkTypeItems none List.nodup_nil
      rw [spelled, checkTypeItems_spelled distinct]
      exact ⟨.anyOf types distinct, ofTypes?_eq_some_iff.mpr ⟨distinct, rfl⟩⟩
    · intro read
      obtain ⟨type, read⟩ := read
      split at read
      · rename_i empty
        exact List.isEmpty_iff.mp empty
      · cases read
  · simp [Problem.kind]

/-! ## Values -/

/-- A value has the shape of the values of at least one alternative. -/
def FitsType (type : AttributeType) (value : Json) : Prop :=
  ∃ alternative ∈ type.types, alternative.shape.accepts value = true

/-- A bound has the shape of the bounds of at least one alternative. -/
def FitsBound (type : AttributeType) (bound : Json) : Prop :=
  ∃ alternative ∈ type.types, alternative.shape.ofBound.accepts bound = true

theorem acceptsValue_iff {type : AttributeType} {value : Json} :
    type.acceptsValue value = true ↔ FitsType type value := by
  simp [AttributeType.acceptsValue, AttributeType.valueShapes, FitsType]

theorem acceptsBound_iff {type : AttributeType} {bound : Json} :
    type.acceptsBound bound = true ↔ FitsBound type bound := by
  simp [AttributeType.acceptsBound, AttributeType.boundShapes, FitsBound]

private theorem faultless_checkDefault {type : AttributeType} {value : Json} :
    Faultless (checkDefault (some type) value).findings ↔ FitsType type value := by
  rw [← acceptsValue_iff]
  cases fits : type.acceptsValue value <;> simp [checkDefault, fits, Problem.kind]

private theorem faultless_checkBound {type : AttributeType} {bound : Json} :
    Faultless (checkBound (some type) bound).findings ↔ FitsBound type bound := by
  rw [← acceptsBound_iff]
  cases fits : type.acceptsBound bound <;> simp [checkBound, fits, Problem.kind]

/-! ## Metadata -/

/-- The words of the flags that metadata may carry. -/
def flagWords : List String :=
  ["allowMultiInputs", "hidden", "internal", "literalOnly", "outputOnly"]

/-- An object whose members under keys with a meaning have the form that goes with the key. -/
def IsMetadata (value : Json) : Prop :=
  ∃ members, value = .object members ∧
    (∀ tokens, ("allowedTokens", tokens) ∈ members → tokens.IsStrings ∨ tokens.IsStringMap) ∧
    ∀ key ∈ flagWords, ∀ flag, (key, flag) ∈ members → flag.IsFlag

theorem metadataFlag_ofWord?_isSome_iff {key : String} :
    (Keyword.ofWord? key : Option MetadataFlag).isSome = true ↔ key ∈ flagWords := by
  have words : flagWords = (Keyword.all (α := MetadataFlag)).map Keyword.word := rfl
  rw [words, Option.isSome_iff_exists, List.mem_map]
  simp only [Keyword.ofWord?_eq_some_iff]
  constructor
  · intro spelled
    obtain ⟨flag, spelled⟩ := spelled
    exact ⟨flag, Keyword.complete flag, spelled⟩
  · intro spelled
    obtain ⟨flag, -, spelled⟩ := spelled
    exact ⟨flag, spelled⟩

private theorem metadataProblem?_eq_none_iff {key : String} {value : Json} :
    metadataProblem? key value = none ↔
      (key = "allowedTokens" → value.IsStrings ∨ value.IsStringMap) ∧
        (key ∈ flagWords → value.IsFlag) := by
  rw [← Json.allowedTokens?_isSome_iff, ← Json.flag?_isSome_iff, ← metadataFlag_ofWord?_isSome_iff,
    metadataProblem?, Metadata.allowedTokensKey]
  split
  · rename_i same
    subst same
    have noFlag : (Keyword.ofWord? "allowedTokens" : Option MetadataFlag) = none := by decide
    simp [noFlag, Option.isSome_iff_ne_none]
  · rename_i other
    split <;> simp_all [Option.isSome_iff_ne_none]

theorem metadataProblem?_grave {key : String} {value : Json} {problem : Problem}
    (found : metadataProblem? key value = some problem) : problem.kind ≠ .redundantScheduling := by
  unfold metadataProblem? at found
  repeat' split at found
  all_goals cases found
  all_goals simp [Problem.kind]

theorem faultless_checkMetadata {value : Json} :
    Faultless (checkMetadata value).findings ↔ IsMetadata value := by
  cases value with
  | object members =>
      have each : Faultless (checkMetadata (.object members)).findings ↔
          ∀ member ∈ members, isCommentKey member.1 = false →
            metadataProblem? member.1 member.2 = none := by
        simp only [checkMetadata, Faultless.filterMap_iff, Member.mem_withoutComments, and_imp]
        refine forall₃_congr fun member _ _ => ?_
        cases found : metadataProblem? member.1 member.2 with
        | none => simp
        | some problem => simp [metadataProblem?_grave found]
      rw [each]
      simp only [metadataProblem?_eq_none_iff, IsMetadata]
      constructor
      · intro all
        refine ⟨members, rfl, fun tokens member => ?_, fun key listed flag member => ?_⟩
        · have real : isCommentKey "allowedTokens" = false := by decide
          exact (all _ member real).1 rfl
        · have real : isCommentKey key = false := by
            have reals : ∀ word ∈ flagWords, isCommentKey word = false := by decide
            exact reals key listed
          exact (all _ member real).2 listed
      · intro legal entry member _
        obtain ⟨_, shape, tokens, flags⟩ := legal
        obtain ⟨key, value⟩ := entry
        cases shape
        exact ⟨fun same => tokens value (same ▸ member),
          fun listed => flags key listed value member⟩
  | _ => simp [checkMetadata, IsMetadata, Problem.kind]

/-! ## Attributes -/

/-- The members of an attribute object are as they should be. -/
structure Legal (members : List (String × Json)) : Prop where
  description : Present members "description" Json.IsStrings
  /-- There is a type, and the default and the bounds fit it. -/
  typed : ∃ type : AttributeType, Present members "type" (fun value => value.NamesType type) ∧
    AbsentOr members "default" (FitsType type) ∧ AbsentOr members "minimum" (FitsBound type) ∧
    AbsentOr members "maximum" (FitsBound type)
  optional : AbsentOr members "optional" Json.IsBoolean
  unvalidated : AbsentOr members "unvalidated" Json.IsBoolean
  deprecated : AbsentOr members "deprecated" Json.IsStrings
  uiName : AbsentOr members "uiName" Json.IsString
  memoryType : AbsentOr members "memoryType" (Json.IsWordOf ["cpu", "cuda", "any"])
  metadata : AbsentOr members "metadata" IsMetadata

private theorem faultless_description {value : Json} :
    Faultless (checkDescription value).findings ↔ value.IsStrings := by
  rw [checkDescription, Checked.findings_map, Member.strings, Member.faultless_form,
    Json.strings?_isSome_iff]

private theorem faultless_typed {members : List (String × Json)} :
    (Faultless (Reading.ofMembers members).type.findings ∧
      Faultless (Reading.ofMembers members).default.findings ∧
      Faultless (Reading.ofMembers members).minimum.findings ∧
      Faultless (Reading.ofMembers members).maximum.findings) ↔
    ∃ type : AttributeType, Present members "type" (fun value => value.NamesType type) ∧
      AbsentOr members "default" (FitsType type) ∧ AbsentOr members "minimum" (FitsBound type) ∧
      AbsentOr members "maximum" (FitsBound type) := by
  have known : ∀ type : AttributeType, Present members "type" (fun value => value.NamesType type) →
      (Member.required members "type" checkType).value = some type := by
    intro type named
    obtain ⟨value, found, named⟩ := named
    rw [Member.value_required found]
    exact value_checkType_eq_some_iff.mpr named
  simp only [Reading.ofMembers, Member.faultless_required, Member.faultless_optional,
    faultless_checkType]
  constructor
  · intro typed
    obtain ⟨⟨value, found, type, named⟩, values⟩ := typed
    have present : Present members "type" (fun value => value.NamesType type) :=
      ⟨value, found, named⟩
    simp only [known type present, faultless_checkDefault, faultless_checkBound] at values
    exact ⟨type, present, values⟩
  · intro typed
    obtain ⟨type, present, values⟩ := typed
    obtain ⟨value, found, named⟩ := present
    refine ⟨⟨value, found, type, named⟩, ?_⟩
    simp only [known type ⟨value, found, named⟩, faultless_checkDefault, faultless_checkBound]
    exact values

private theorem faultless_reading {members : List (String × Json)} :
    Faultless (Reading.ofMembers members).findings ↔ Legal members := by
  have words : (["cpu", "cuda", "any"] : List String) =
      (Keyword.all (α := MemoryType)).map Keyword.word := rfl
  have single : Faultless (Reading.ofMembers members).findings ↔
      Present members "description" Json.IsStrings ∧
      (Faultless (Reading.ofMembers members).type.findings ∧
        Faultless (Reading.ofMembers members).default.findings ∧
        Faultless (Reading.ofMembers members).minimum.findings ∧
        Faultless (Reading.ofMembers members).maximum.findings) ∧
      AbsentOr members "optional" Json.IsBoolean ∧ AbsentOr members "unvalidated" Json.IsBoolean ∧
      AbsentOr members "deprecated" Json.IsStrings ∧ AbsentOr members "uiName" Json.IsString ∧
      AbsentOr members "memoryType" (Json.IsWordOf ["cpu", "cuda", "any"]) ∧
      AbsentOr members "metadata" IsMetadata := by
    simp only [Reading.findings, Faultless.append_iff, and_assoc]
    simp only [Reading.ofMembers, Member.faultless_required, Member.faultless_optional,
      faultless_description, Member.boolean, Member.strings, Member.string, checkMemoryType,
      Member.faultless_form, Json.asBool?_isSome_iff, Json.strings?_isSome_iff,
      Json.asString?_isSome_iff, Json.keyword?_isSome_iff MemoryType, faultless_checkMetadata,
      words]
  rw [single, faultless_typed]
  constructor
  · intro legal
    obtain ⟨description, typed, optional, unvalidated, deprecated, uiName, memoryType,
      metadata⟩ := legal
    exact ⟨description, typed, optional, unvalidated, deprecated, uiName, memoryType, metadata⟩
  · intro legal
    obtain ⟨description, typed, optional, unvalidated, deprecated, uiName, memoryType,
      metadata⟩ := legal
    exact ⟨description, typed, optional, unvalidated, deprecated, uiName, memoryType, metadata⟩

end Attribute

/-- An attribute object as it should be. -/
def Json.IsAttribute (value : Json) : Prop :=
  ∃ members, value = .object members ∧ Attribute.Legal members

/-- An attribute is read without an error exactly when it is legal. -/
theorem Attribute.faultless_check {name : String} {value : Json} :
    Faultless (check name value).findings ↔ value.IsAttribute := by
  cases value with
  | object members => simp [check, faultless_reading, Json.IsAttribute]
  | _ => simp [check, Json.IsAttribute, Problem.kind]

namespace Attribute

/-! ## Attributes that are made -/

private theorem isSome_attribute? {members : List (String × Json)} (legal : Legal members)
    (name : String) : ((Reading.ofMembers members).attribute? name).isSome = true := by
  obtain ⟨lines, found, strings⟩ := legal.description
  obtain ⟨type, ⟨spelled, present, named⟩, -⟩ := legal.typed
  obtain ⟨texts, read⟩ := Option.isSome_iff_exists.mp (Json.strings?_isSome_iff.mpr strings)
  have description : (Reading.ofMembers members).description.value =
      some (Text.joined "\n" texts) := by
    rw [Reading.ofMembers, Member.value_required found, checkDescription, Checked.value_map,
      Member.strings, Member.value_form, read, Option.map_some]
  have typed : (Reading.ofMembers members).type.value = some type := by
    rw [Reading.ofMembers, Member.value_required present]
    exact value_checkType_eq_some_iff.mpr named
  simp [Reading.attribute?, description, typed]

/-- A legal object makes an attribute, and nothing else does. -/
theorem isSome_value_check_iff {name : String} {value : Json} :
    (check name value).value.isSome = true ↔ value.IsAttribute := by
  rw [← @faultless_check name, ← Checked.hasErrors_eq_false_iff]
  cases value with
  | object members =>
      simp only [check, Checked.hasErrors]
      cases errors : (Reading.ofMembers members).findings.any Finding.isError with
      | true => simp
      | false =>
          have legal : Legal members := faultless_reading.mp fun finding found => by
            simpa using List.any_eq_false.mp errors finding found
          simp [isSome_attribute? legal name]
  | _ => simp [check, Checked.hasErrors, Checked.refused, Finding.isError, Problem.kind,
      ProblemKind.severity]

private theorem name_of_attribute? {reading : Reading} {name : String} {attr : Attribute}
    (made : reading.attribute? name = some attr) : attr.name = name := by
  obtain ⟨description, -, made⟩ := Option.bind_eq_some_iff.mp made
  obtain ⟨type, -, made⟩ := Option.bind_eq_some_iff.mp made
  cases made
  rfl

theorem name_of_check {name : String} {value : Json} {attr : Attribute}
    (made : (check name value).value = some attr) : attr.name = name := by
  cases value with
  | object members =>
      simp only [check] at made
      split at made
      · cases made
      · exact name_of_attribute? made
  | _ => cases made

end Attribute

end NodeDescriptor
