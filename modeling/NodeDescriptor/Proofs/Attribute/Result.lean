import NodeDescriptor.Proofs.WellFormed.Attribute

/-!
# What an attribute object says

The attribute that a legal object stands for, said field by field and without the readers: which
member a field comes from, what is left as it is given, and what stands in for a member that is not
there. The object says it in one way only, and the check answers what it says.
-/

set_option autoImplicit false

namespace NodeDescriptor

/-! ## Members -/

/-- A value gives lines of text: one string, or a list of them. -/
inductive Json.Lines : Json → List String → Prop where
  | one (text : String) : Lines (.string text) [text]
  | many (texts : List String) : Lines (.ofStrings texts) texts

private theorem Json.strings?_eq_some_iff {value : Json} {lines : List String} :
    value.strings? = some lines ↔ value.Lines lines := by
  constructor
  · intro read
    cases value with
    | string text =>
        cases read
        exact .one text
    | array items =>
        obtain rfl := mapM_asString?_eq_some_iff.mp read
        exact .many lines
    | _ => cases read
  · intro given
    cases given with
    | one text => rfl
    | many texts => exact mapM_asString?_eq_some_iff.mpr rfl

namespace Member

variable {α : Type} {members : List (String × Json)} {key : String}

/-- The member under a key means a result, or there is no such member and the result is the
default. -/
inductive ReadAs (members : List (String × Json)) (key : String) (means : Json → α → Prop)
    (default : α) : α → Prop where
  | absent (none : members.lookup key = none) : ReadAs members key means default default
  | present {value : Json} {result : α} (found : members.lookup key = some value)
      (meant : means value result) : ReadAs members key means default result

theorem Present.unique {means : Json → α → Prop} {left right : α}
    (functional : ∀ value left right, means value left → means value right → left = right)
    (one : Present members key fun value => means value left)
    (other : Present members key fun value => means value right) : left = right := by
  obtain ⟨value, found, meant⟩ := one
  obtain ⟨same, foundSame, meantSame⟩ := other
  cases found.symm.trans foundSame
  exact functional value left right meant meantSame

theorem ReadAs.unique {means : Json → α → Prop} {default left right : α}
    (functional : ∀ value left right, means value left → means value right → left = right)
    (one : ReadAs members key means default left)
    (other : ReadAs members key means default right) : left = right := by
  cases one with
  | absent none =>
      cases other with
      | absent => rfl
      | present found => cases none.symm.trans found
  | present found meant =>
      cases other with
      | absent none => cases none.symm.trans found
      | present foundSame meantSame =>
          exact Present.unique functional ⟨_, found, meant⟩ ⟨_, foundSame, meantSame⟩

private theorem readAs_optional {means : Json → α → Prop} {default : α}
    {check : Json → Checked (Option α)}
    (reads : ∀ value result, (check value).value = some result → means value result)
    (legal : AbsentOr members key fun value => (check value).value.isSome = true) :
    ReadAs members key means default ((optional members key check).value.getD default) := by
  rw [value_optional]
  cases found : members.lookup key with
  | none => exact .absent found
  | some value =>
      -- An illegal member would be read as the default too, as if it were not there.
      obtain ⟨result, read⟩ := Option.isSome_iff_exists.mp (legal value found)
      rw [Option.bind_some, read, Option.getD_some]
      exact .present found (reads value result read)

private theorem readAs_optional_form {means : Json → α → Prop} {default : α}
    {form? : Json → Option α}
    {expected : String} (reads : ∀ value result, form? value = some result → means value result)
    (legal : AbsentOr members key fun value => (form? value).isSome = true) :
    ReadAs members key means default
      ((optional members key (form form? expected)).value.getD default) := by
  apply readAs_optional
  · simpa only [value_form] using reads
  · simpa only [value_form] using legal

private theorem lookup_eq_map_optional {form? : Json → Option α} {spell : α → Json}
    {expected : String}
    (reads : ∀ value result, form? value = some result → value = spell result)
    (legal : AbsentOr members key fun value => (form? value).isSome = true) :
    members.lookup key = (optional members key (form form? expected)).value.map spell := by
  rw [value_optional]
  cases found : members.lookup key with
  | none => rfl
  | some value =>
      obtain ⟨result, read⟩ := Option.isSome_iff_exists.mp (legal value found)
      rw [Option.bind_some, value_form, read, Option.map_some, reads value result read]

end Member

/-! ## Attributes -/

/-- An object whose members other than comments are metadata, the last one under each key. -/
def Json.MeansMetadata (value : Json) (metadata : Metadata) : Prop :=
  ∃ members, value = .object members ∧ metadata = Dict.ofList (Member.withoutComments members)

/-- The attribute under a name that the members of an object describe. -/
structure Attribute.DescribedBy (members : List (String × Json)) (name : String)
    (attr : Attribute) : Prop where
  name : attr.name = name
  /-- The lines of the description are joined to one text. -/
  description : ∃ lines, Member.Present members "description" (fun value => value.Lines lines) ∧
    attr.description = Text.joined "\n" lines
  type : Member.Present members "type" fun value => value.NamesType attr.type
  default : members.lookup "default" = attr.default
  minimum : members.lookup "minimum" = attr.minimum
  maximum : members.lookup "maximum" = attr.maximum
  optional : Member.ReadAs members "optional" (fun value truth => value = .bool truth) false
    attr.optional
  unvalidated : Member.ReadAs members "unvalidated" (fun value truth => value = .bool truth) false
    attr.unvalidated
  deprecated : Member.ReadAs members "deprecated" Json.Lines [] attr.deprecated
  uiName : members.lookup "uiName" = attr.uiName.map .string
  memoryType : members.lookup "memoryType" = attr.memoryType.map Record.ofKeyword
  metadata : Member.ReadAs members "metadata" Json.MeansMetadata .empty attr.metadata

namespace Attribute

private theorem lines_functional (value : Json) (left right : List String) (one : value.Lines left)
    (other : value.Lines right) : left = right := by
  rw [← Json.strings?_eq_some_iff] at one other
  exact Option.some.inj (one.symm.trans other)

private theorem namesType_functional (value : Json) (left right : AttributeType)
    (one : value.NamesType left) (other : value.NamesType right) : left = right := by
  rw [← value_checkType_eq_some_iff] at one other
  exact Option.some.inj (one.symm.trans other)

/-- An object describes at most one attribute under a name. -/
theorem DescribedBy.unique {members : List (String × Json)} {name : String}
    {left right : Attribute} (one : left.DescribedBy members name)
    (other : right.DescribedBy members name) : left = right := by
  have boolean (value : Json) (left right : Bool) (one : value = .bool left)
      (other : value = .bool right) : left = right := by
    cases one.symm.trans other
    rfl
  have object (value : Json) (left right : Metadata) (one : value.MeansMetadata left)
      (other : value.MeansMetadata right) : left = right := by
    obtain ⟨members, rfl, rfl⟩ := one
    obtain ⟨_, same, rfl⟩ := other
    cases same
    rfl
  have spelled : left.memoryType = right.memoryType := by
    apply Option.map_injective (f := Record.ofKeyword)
    · intro one other same
      exact Keyword.word_injective (Json.string.inj same)
    · exact one.memoryType.symm.trans other.memoryType
  have described : left.description = right.description := by
    obtain ⟨lines, given, joined⟩ := one.description
    obtain ⟨_, givenSame, joinedSame⟩ := other.description
    cases Member.Present.unique lines_functional given givenSame
    rw [joined, joinedSame]
  have truth := one.optional.unique boolean other.optional
  have checked := one.unvalidated.unique boolean other.unvalidated
  have notes := one.deprecated.unique lines_functional other.deprecated
  have kept := one.metadata.unique object other.metadata
  have named := Member.Present.unique namesType_functional one.type other.type
  have titled : left.uiName = right.uiName := by
    apply Option.map_injective (f := Json.string)
    · intro one other same
      exact Json.string.inj same
    · exact one.uiName.symm.trans other.uiName
  cases left
  cases right
  simp only [Attribute.mk.injEq]
  exact ⟨one.name.trans other.name.symm, described, named,
    one.default.symm.trans other.default, truth, notes, spelled,
    one.minimum.symm.trans other.minimum, one.maximum.symm.trans other.maximum, kept, titled,
    checked⟩

/-- What the check of a legal object makes is what the object describes. -/
theorem describedBy_of_reading {members : List (String × Json)} (legal : Legal members)
    {name : String} {attr : Attribute}
    (made : (Reading.ofMembers members).attribute? name = some attr) :
    attr.DescribedBy members name := by
  obtain ⟨description, type, described, typed, rfl⟩ := attribute?_eq_some made
  have boolean (value : Json) (truth : Bool) (read : value.asBool? = some truth) :
      value = .bool truth := by
    cases value <;> cases read
    rfl
  have object (value : Json) (metadata : Metadata)
      (read : (checkMetadata value).value = some metadata) : value.MeansMetadata metadata := by
    cases value <;> cases read
    exact ⟨_, rfl, rfl⟩
  constructor
  case name => rfl
  case description =>
    obtain ⟨value, found, -⟩ := legal.description
    rw [Reading.ofMembers, Member.value_required found, checkDescription, Checked.value_map,
      Option.map_eq_some_iff] at described
    obtain ⟨texts, read, joined⟩ := described
    rw [Member.strings, Member.value_form, Json.strings?_eq_some_iff] at read
    exact ⟨texts, ⟨value, found, read⟩, joined.symm⟩
  case type =>
    obtain ⟨-, ⟨value, found, -⟩, -⟩ := legal.typed
    rw [Reading.ofMembers, Member.value_required found] at typed
    exact ⟨value, found, value_checkType_eq_some_iff.mp typed⟩
  case default => exact (Member.value_optional_self fun _ => rfl).symm
  case minimum => exact (Member.value_optional_self fun _ => rfl).symm
  case maximum => exact (Member.value_optional_self fun _ => rfl).symm
  case optional =>
    exact Member.readAs_optional_form boolean fun value found =>
      Json.asBool?_isSome_iff.mpr (legal.optional value found)
  case unvalidated =>
    exact Member.readAs_optional_form boolean fun value found =>
      Json.asBool?_isSome_iff.mpr (legal.unvalidated value found)
  case deprecated =>
    exact Member.readAs_optional_form (fun _ _ => Json.strings?_eq_some_iff.mp) fun value found =>
      Json.strings?_isSome_iff.mpr (legal.deprecated value found)
  case uiName =>
    exact Member.lookup_eq_map_optional (fun _ _ => Json.asString?_eq_some_iff.mp)
      fun value found => Json.asString?_isSome_iff.mpr (legal.uiName value found)
  case memoryType =>
    exact Member.lookup_eq_map_optional (fun _ _ => Json.keyword?_eq_some_iff.mp)
      fun value found => (Json.keyword?_isSome_iff MemoryType).mpr (legal.memoryType value found)
  case metadata =>
    apply Member.readAs_optional object
    intro value found
    obtain ⟨given, rfl, -⟩ := legal.metadata value found
    rfl

/-- For every name, path and value: an attribute is made exactly of an object that is as it should
be, and what is made is the attribute that the object describes. -/
theorem check_exact (name : String) (path : FieldPath) (value : Json) :
    (((check name value).inside path).value.isSome = true ↔ value.IsAttribute) ∧
      ∀ attr, ((check name value).inside path).value = some attr ↔
        ∃ members, value = .object members ∧ Legal members ∧ attr.DescribedBy members name := by
  rw [Checked.value_inside]
  refine ⟨isSome_value_check_iff, fun attr => ?_⟩
  constructor
  · intro made
    obtain ⟨members, rfl, legal, read⟩ := reading_of_check made
    exact ⟨members, rfl, legal, describedBy_of_reading legal read⟩
  · intro described
    obtain ⟨members, rfl, legal, described⟩ := described
    -- Some attribute is made of a legal object, and the object describes no other.
    obtain ⟨made, check⟩ := Option.isSome_iff_exists.mp
      ((@isSome_value_check_iff name _).mpr ⟨members, rfl, legal⟩)
    obtain ⟨_, same, -, read⟩ := reading_of_check check
    cases same
    rw [check, described.unique (describedBy_of_reading legal read)]

end Attribute

end NodeDescriptor
