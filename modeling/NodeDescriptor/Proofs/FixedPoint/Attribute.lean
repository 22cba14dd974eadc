import NodeDescriptor.Proofs.FixedPoint.Fields
import NodeDescriptor.Proofs.RoundTrip.Parts
import NodeDescriptor.Proofs.WellFormed.Attribute

/-!
# Attributes are checked once

A well-formed attribute is what the check makes of the object that the attribute is written as, and
nothing is found. Every attribute that a check makes is well formed, so checking what was made
changes nothing.
-/

set_option autoImplicit false

namespace NodeDescriptor.Attribute

variable {attr : Attribute} {metadata : Metadata}

/-! ## Types -/

private theorem namesType_toJson {type : AttributeType} (some : type.types ≠ []) :
    type.toJson.NamesType type := by
  cases type with
  | one single => exact .one single
  | anyOf types distinct =>
      have spelled : AttributeType.toJson (.anyOf types distinct) =
          .array (types.map fun type => .string type.text) := by
        rw [AttributeType.toJson, Json.ofStrings, List.map_map]
        rfl
      rw [spelled]
      exact .anyOf some distinct

private theorem checkType_toJson {type : AttributeType} (some : type.types ≠ []) :
    checkType type.toJson = .clean (.some type) := by
  have named := namesType_toJson some
  refine Checked.eq_clean (value_checkType_eq_some_iff.mpr named) ?_
  exact Grave.eq_nil_of_faultless grave_checkType (faultless_checkType.mpr ⟨type, named⟩)

/-! ## Values -/

private theorem checkDefault_eq_clean {type : AttributeType} {value : Json}
    (fits : type.acceptsValue value = true) :
    checkDefault (some type) value = .clean (some value) := by
  simp only [checkDefault, fits, if_true]
  rfl

private theorem checkBound_eq_clean {type : AttributeType} {bound : Json}
    (fits : type.acceptsBound bound = true) :
    checkBound (some type) bound = .clean (some bound) := by
  simp only [checkBound, fits, if_true]
  rfl

/-! ## Metadata -/

private theorem isMetadata_toJson (readable : metadata.Readable) : IsMetadata metadata.toJson := by
  have given {key : String} {value : Json} (listed : (key, value) ∈ metadata.entries) :
      metadata.get? key = some value ∧ key ∈ metadata.keys :=
    ⟨Dict.get?_eq_some_iff.mpr listed, List.mem_map_of_mem (f := Prod.fst) listed⟩
  refine ⟨metadata.entries, metadata.toJson_eq, fun tokens listed => ?_,
    fun key meant flag listed => ?_⟩
  · obtain ⟨found, present⟩ := given listed
    have read := readable.allowedTokens present
    rw [Metadata.allowedTokens?, Metadata.allowedTokensKey, found, Option.bind_some] at read
    exact Json.allowedTokens?_isSome_iff.mp read
  · obtain ⟨word, spelled⟩ := Option.isSome_iff_exists.mp
      (metadataFlag_ofWord?_isSome_iff.mpr meant)
    rw [Keyword.ofWord?_eq_some_iff] at spelled
    subst spelled
    obtain ⟨found, present⟩ := given listed
    have read := readable.flags word present
    rw [found, Option.bind_some] at read
    exact Json.flag?_isSome_iff.mp (Option.isSome_of_eq_some read)

theorem checkMetadata_toJson (readable : metadata.Readable) :
    checkMetadata metadata.toJson = .clean (some metadata) := by
  have answers : (checkMetadata metadata.toJson).value = some metadata := by
    have kept := Member.withoutComments_eq_self readable.uncommented
    simp only [Metadata.toJson_eq, checkMetadata, kept, Dict.ofList_entries]
  refine Checked.eq_clean answers (Grave.eq_nil_of_faultless grave_checkMetadata ?_)
  exact faultless_checkMetadata.mpr (isMetadata_toJson readable)

/-! ## Attributes -/

/-- The reading of an attribute that was written: what it says, and nothing found. -/
def reading (attr : Attribute) : Reading where
  description := .clean (some attr.description)
  type := .clean (some attr.type)
  default := .clean attr.default
  minimum := .clean attr.minimum
  maximum := .clean attr.maximum
  optional := .clean (some attr.optional)
  unvalidated := .clean (some attr.unvalidated)
  deprecated := .clean (Record.someList attr.deprecated)
  uiName := .clean attr.uiName
  memoryType := .clean attr.memoryType
  metadata := .clean (Record.someDict attr.metadata)

private theorem ofMembers_written (formed : attr.WellFormed) :
    Reading.ofMembers (Record.members attr.written) = attr.reading := by
  let stored := Record.members attr.written
  have description : Member.required stored "description" checkDescription =
      .clean (some attr.description) :=
    Member.required_of_lookup (.string attr.description) (lookup_written (by simp [written])) rfl
  have type : Member.required stored "type" checkType = .clean (some attr.type) :=
    Member.required_of_lookup attr.type.toJson (lookup_written (by simp [written]))
      (checkType_toJson formed.someType)
  have default : Member.optional stored "default" (checkDefault (some attr.type)) =
      .clean (attr.default.map id) :=
    Member.optional_of_lookup id (lookup_written (by simp [written])) fun value given =>
      checkDefault_eq_clean (formed.default value given)
  have minimum : Member.optional stored "minimum" (checkBound (some attr.type)) =
      .clean (attr.minimum.map id) :=
    Member.optional_of_lookup id (lookup_written (by simp [written])) fun bound given =>
      checkBound_eq_clean (formed.minimum bound given)
  have maximum : Member.optional stored "maximum" (checkBound (some attr.type)) =
      .clean (attr.maximum.map id) :=
    Member.optional_of_lookup id (lookup_written (by simp [written])) fun bound given =>
      checkBound_eq_clean (formed.maximum bound given)
  have optional : Member.optional stored "optional" Member.boolean = .clean (some attr.optional) :=
    Member.optional_of_given (.bool attr.optional) (lookup_written (by simp [written])) rfl
  have unvalidated : Member.optional stored "unvalidated" Member.boolean =
      .clean (some attr.unvalidated) :=
    Member.optional_of_given (.bool attr.unvalidated) (lookup_written (by simp [written])) rfl
  have deprecated : Member.optional stored "deprecated" Member.strings =
      .clean ((Record.someList attr.deprecated).map id) :=
    Member.optional_list .string (lookup_written (by simp [written]))
      (Member.strings_eq_clean attr.deprecated)
  have uiName : Member.optional stored "uiName" Member.string = .clean (attr.uiName.map id) :=
    Member.optional_of_lookup .string (lookup_written (by simp [written])) fun _ _ => rfl
  have memoryType : Member.optional stored "memoryType" checkMemoryType =
      .clean (attr.memoryType.map id) :=
    Member.optional_of_lookup Record.ofKeyword (lookup_written (by simp [written])) fun given _ =>
      Member.keyword_eq_clean given
  have metadata : Member.optional stored "metadata" checkMetadata =
      .clean ((Record.someDict attr.metadata).map id) :=
    Member.optional_dict id (lookup_written (by simp [written]))
      (checkMetadata_toJson formed.metadata)
  -- The type has to be rewritten first, for the default and the bounds are compared with it.
  change Reading.ofMembers stored = attr.reading
  simp only [Reading.ofMembers, type, Checked.value_clean, description, default, minimum, maximum,
    optional, unvalidated, deprecated, uiName, memoryType, metadata, reading, Option.map_id_apply]

/-- Checking what a well-formed attribute is written as gives the attribute again. -/
theorem check_toJson (formed : attr.WellFormed) :
    check attr.name attr.toJson = .clean (some attr) := by
  rw [toJson_eq_written, check, ofMembers_written formed]
  simp [reading, Reading.findings, Reading.attribute?, Checked.clean]

/-- Whatever a check makes is made again, with nothing found, when the object it is written as is
checked under the same name. The place of the object makes no difference. -/
theorem check_made_again {name : String} {path : FieldPath} {value : Json}
    (made : ((check name value).inside path).value = some attr) (place : FieldPath) :
    (check name attr.toJson).inside place = .clean (some attr) := by
  rw [Checked.value_inside] at made
  obtain rfl : attr.name = name := name_of_check made
  rw [check_toJson (wellFormed_of_check made)]
  rfl

/-- An attribute object that is not in the form in which attributes are written. -/
def looseInput : Json :=
  .object [("type", .ofStrings ["any"]), ("description", .ofStrings ["A.", "B."]),
    ("deprecated", .string "Use b."), ("maximum", .null), ("default", .null), ("minimum", .null),
    ("uiName", .string "A"), ("memoryType", .string "cpu"),
    ("metadata", .object [("zeta", .null), ("$note", .null), ("hidden", .string "1"),
      ("alpha", .ofNat 1)]),
    ("optional", .bool false), ("unknown", .null)]

def looseAttribute : Attribute :=
  { ofType "a" (.anyOf [.any] (by decide)) with
    description := "A.\nB."
    default := some .null
    deprecated := ["Use b."]
    memoryType := some .cpu
    minimum := some .null
    maximum := some .null
    metadata := .ofList [("zeta", .null), ("hidden", .string "1"), ("alpha", .ofNat 1)]
    uiName := some "A" }

theorem looseInput_made_again :
    ((check "a" looseInput).inside (.entry "a")).value = some looseAttribute ∧
      looseAttribute.toJson ≠ looseInput ∧
      (check "a" looseAttribute.toJson).inside .root = .clean (some looseAttribute) := by
  have made : ((check "a" looseInput).inside (.entry "a")).value = some looseAttribute := by
    decide +kernel
  exact ⟨made, by decide +kernel, check_made_again made .root⟩

end NodeDescriptor.Attribute
