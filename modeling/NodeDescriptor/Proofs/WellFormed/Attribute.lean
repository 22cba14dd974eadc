import NodeDescriptor.Proofs.Attribute.Verdict
import NodeDescriptor.Proofs.Comments

/-!
# Well-formed attributes

The type of attributes admits values that no check makes: a default that does not fit, an empty
set of types, metadata whose flags have no truth value. What a check makes is well formed. The
parts are read one by one, and a part that is wrong comes with an error, so that no attribute is
made at all.
-/

set_option autoImplicit false

namespace NodeDescriptor

variable {α : Type}

theorem Dict.mem_of_get?_ofList {entries : List (String × α)} {key : String} {value : α}
    (found : (ofList entries).get? key = some value) : (key, value) ∈ entries :=
  mem_of_mem_ofList (get?_eq_some_iff.mp found)

/-- Metadata of an attribute without comments, of which the keys with a meaning can be read. -/
structure Metadata.Readable (metadata : Metadata) : Prop where
  uncommented : ∀ key ∈ metadata.keys, isCommentKey key = false
  allowedTokens : allowedTokensKey ∈ metadata.keys → metadata.allowedTokens?.isSome = true
  /-- A flag that is given has a truth value, and it is read as that. -/
  flags : ∀ flag : MetadataFlag, Keyword.word flag ∈ metadata.keys →
    (metadata.get? (Keyword.word flag)).bind Json.flag? = some (metadata.flag flag)

namespace Attribute

/-- The parts of an attribute fit together. -/
structure WellFormed (attr : Attribute) : Prop where
  someType : attr.type.types ≠ []
  distinctTypes : attr.type.types.Nodup
  listedTypes : ∀ type ∈ attr.type.types, type ∈ DataType.vocabulary
  default : ∀ value, attr.default = some value → attr.type.acceptsValue value = true
  minimum : ∀ bound, attr.minimum = some bound → attr.type.acceptsBound bound = true
  maximum : ∀ bound, attr.maximum = some bound → attr.type.acceptsBound bound = true
  metadata : attr.metadata.Readable

/-! ## Types -/

private theorem types_of_namesType {value : Json} {type : AttributeType}
    (named : value.NamesType type) :
    type.types ≠ [] ∧ type.types.Nodup := by
  cases named with
  | one single => exact ⟨List.cons_ne_nil single [], List.nodup_singleton single⟩
  | anyOf some distinct => exact ⟨some, distinct⟩

/-- The type that is read is the one that the default and the bounds have to fit. -/
theorem typed_of_legal {members : List (String × Json)} {type : AttributeType}
    (legal : Legal members) (read : (Reading.ofMembers members).type.value = some type) :
    (type.types ≠ [] ∧ type.types.Nodup) ∧
      (∀ value, members.lookup "default" = some value → type.acceptsValue value = true) ∧
      (∀ bound, members.lookup "minimum" = some bound → type.acceptsBound bound = true) ∧
      ∀ bound, members.lookup "maximum" = some bound → type.acceptsBound bound = true := by
  obtain ⟨other, ⟨spelled, present, named⟩, default, minimum, maximum⟩ := legal.typed
  have same : other = type := by
    have otherRead := value_checkType_eq_some_iff.mpr named
    rw [Reading.ofMembers, Member.value_required present, otherRead] at read
    exact Option.some.inj read
  subst same
  refine ⟨types_of_namesType named, fun value found => ?_, fun bound found => ?_,
    fun bound found => ?_⟩
  · exact acceptsValue_iff.mpr (default value found)
  · exact acceptsBound_iff.mpr (minimum bound found)
  · exact acceptsBound_iff.mpr (maximum bound found)

/-! ## Metadata -/

private theorem flag_of_isFlag {metadata : Metadata} {flag : MetadataFlag} {value : Json}
    (found : metadata.get? (Keyword.word flag) = some value) (legal : value.IsFlag) :
    (metadata.get? (Keyword.word flag)).bind Json.flag? = some (metadata.flag flag) := by
  obtain ⟨truth, read⟩ := Option.isSome_iff_exists.mp (Json.flag?_isSome_iff.mpr legal)
  rw [Metadata.flag, found, Option.bind_some, read, Option.getD_some]

private theorem word_mem_flagWords (flag : MetadataFlag) : Keyword.word flag ∈ flagWords :=
  metadataFlag_ofWord?_isSome_iff.mp (by rw [Keyword.ofWord?_word]; rfl)

private theorem readable_of_checkMetadata {value : Json} {metadata : Metadata}
    (legal : IsMetadata value)
    (made : (checkMetadata value).value = some metadata) : metadata.Readable := by
  obtain ⟨members, rfl, tokens, flags⟩ := legal
  cases made
  have written {key : String} (listed : key ∈ (Dict.ofList (Member.withoutComments members)).keys) :
      ∃ value, (Dict.ofList (Member.withoutComments members)).get? key = some value ∧
        (key, value) ∈ members := by
    obtain ⟨value, found⟩ := Option.isSome_iff_exists.mp (Dict.contains_iff.mpr listed)
    exact ⟨value, found, (Member.mem_withoutComments.mp (Dict.mem_of_get?_ofList found)).1⟩
  refine ⟨fun key => Member.uncommented_of_mem_keys, fun listed => ?_, fun flag listed => ?_⟩
  · obtain ⟨value, found, inMembers⟩ := written listed
    rw [Metadata.allowedTokens?, found, Option.bind_some]
    exact Json.allowedTokens?_isSome_iff.mpr (tokens value inMembers)
  · obtain ⟨value, found, inMembers⟩ := written listed
    exact flag_of_isFlag found (flags _ (word_mem_flagWords flag) value inMembers)

/-! ## Attributes that are made -/

theorem reading_of_check {name : String} {value : Json} {attr : Attribute}
    (made : (check name value).value = some attr) :
    ∃ members, value = .object members ∧ Legal members ∧
      (Reading.ofMembers members).attribute? name = some attr := by
  obtain ⟨members, rfl, legal⟩ := isSome_value_check_iff.mp (Option.isSome_of_eq_some made)
  rw [check] at made
  split at made
  · cases made
  · exact ⟨members, rfl, legal, made⟩

theorem attribute?_eq_some {reading : Reading} {name : String} {attr : Attribute}
    (made : reading.attribute? name = some attr) :
    ∃ description type, reading.description.value = some description ∧
      reading.type.value = some type ∧
      attr = {
        name, description, type
        default := reading.default.value
        optional := reading.optional.value.getD false
        deprecated := reading.deprecated.value.getD []
        memoryType := reading.memoryType.value
        minimum := reading.minimum.value
        maximum := reading.maximum.value
        metadata := reading.metadata.value.getD .empty
        uiName := reading.uiName.value
        unvalidated := reading.unvalidated.value.getD false } := by
  obtain ⟨description, described, made⟩ := Option.bind_eq_some_iff.mp made
  obtain ⟨type, typed, made⟩ := Option.bind_eq_some_iff.mp made
  exact ⟨description, type, described, typed, (Option.some.inj made).symm⟩

/-- Whatever a check makes is well formed. -/
theorem wellFormed_of_check {name : String} {value : Json} {attr : Attribute}
    (made : (check name value).value = some attr) : attr.WellFormed := by
  obtain ⟨members, rfl, legal, made⟩ := reading_of_check made
  obtain ⟨description, type, -, typed, rfl⟩ := attribute?_eq_some made
  obtain ⟨⟨some, distinct⟩, default, minimum, maximum⟩ := typed_of_legal legal typed
  have metadata : ((Reading.ofMembers members).metadata.value.getD .empty).Readable := by
    rw [Reading.ofMembers, Member.value_optional]
    cases found : members.lookup "metadata" with
    | none => exact ⟨by simp [Dict.keys], by simp [Dict.keys], by simp [Dict.keys]⟩
    | some value =>
        obtain ⟨inner, rfl, legalInner⟩ := legal.metadata value found
        exact readable_of_checkMetadata ⟨inner, rfl, legalInner⟩ rfl
  exact {
    someType := some
    distinctTypes := distinct
    listedTypes := fun type _ => DataType.mem_vocabulary type
    -- Defaults and bounds are kept as they are given, whether they fit or not.
    default := fun value read =>
      default value ((Member.value_optional_self fun _ => rfl).symm.trans read)
    minimum := fun bound read =>
      minimum bound ((Member.value_optional_self fun _ => rfl).symm.trans read)
    maximum := fun bound read =>
      maximum bound ((Member.value_optional_self fun _ => rfl).symm.trans read)
    metadata }

end Attribute

end NodeDescriptor
