import NodeDescriptor.Attribute.Basic
import NodeDescriptor.Node.TestCase
import NodeDescriptor.Proofs.RoundTrip.Values

/-!
# Attributes and tests that were written

An attribute or a test case is loaded as it was written, up to raw values that are null: they come
back as no values.
-/

set_option autoImplicit false

namespace NodeDescriptor

namespace Json

theorem string_ne_null (text : String) : Json.string text ≠ .null := by
  intro same
  cases same

theorem ofKeyword_ne_null {α : Type} [Keyword α] (word : α) : Record.ofKeyword word ≠ .null :=
  string_ne_null (Keyword.word word)

end Json

namespace Attribute

/-- The attribute without values that are null. -/
def withoutNulls (attr : Attribute) : Attribute :=
  { attr with
    default := Record.unlessNull attr.default
    minimum := Record.unlessNull attr.minimum
    maximum := Record.unlessNull attr.maximum }

/-- No value is null. -/
structure NullFree (attr : Attribute) : Prop where
  default : attr.default ≠ some .null
  minimum : attr.minimum ≠ some .null
  maximum : attr.maximum ≠ some .null

theorem withoutNulls_eq_self_iff {attr : Attribute} : attr.withoutNulls = attr ↔ attr.NullFree := by
  constructor
  · intro same
    exact ⟨Record.unlessNull_eq_self_iff.mp (congrArg Attribute.default same),
      Record.unlessNull_eq_self_iff.mp (congrArg Attribute.minimum same),
      Record.unlessNull_eq_self_iff.mp (congrArg Attribute.maximum same)⟩
  · intro nullFree
    obtain ⟨default, minimum, maximum⟩ := nullFree
    rw [withoutNulls, Record.unlessNull_eq_self_iff.mpr default,
      Record.unlessNull_eq_self_iff.mpr minimum, Record.unlessNull_eq_self_iff.mpr maximum]

def written (attr : Attribute) : List (String × Option Json) :=
  [("name", some (.string attr.name)), ("description", some (.string attr.description)),
    ("type", some attr.type.toJson), ("default", attr.default.map id),
    ("optional", some (.bool attr.optional)),
    ("deprecated", Record.listValue attr.deprecated .string),
    ("memoryType", attr.memoryType.map Record.ofKeyword), ("minimum", attr.minimum.map id),
    ("maximum", attr.maximum.map id), ("metadata", Record.dictValue attr.metadata id),
    ("uiName", attr.uiName.map .string), ("unvalidated", some (.bool attr.unvalidated))]

theorem toJson_eq_written (attr : Attribute) :
    attr.toJson = .object (Record.members attr.written) := by
  simp only [toJson, written, Record.members_cons, Record.members_nil, Record.field?_some,
    Record.field?_map, Record.field?_listValue, Record.field?_dictValue, List.append_assoc,
    List.cons_append, List.nil_append, List.append_nil]

theorem nodup_written (attr : Attribute) : (attr.written.map Prod.fst).Nodup := by
  have distinct : fields.Nodup := by decide
  exact distinct

theorem lookup_written {attr : Attribute} {name : String} {value? : Option Json}
    (listed : (name, value?) ∈ attr.written) :
    (Record.members attr.written).lookup name = value? :=
  Record.lookup_members attr.nodup_written listed

theorem ofJson?_toJson (attr : Attribute) : ofJson? attr.toJson = some attr.withoutNulls := by
  let stored := Record.members attr.written
  have name : Record.required? stored "name" Json.asString? = some attr.name :=
    Record.required?_of_lookup (.string attr.name) (lookup_written (by simp [written])) rfl
  have description : Record.required? stored "description" Json.asString? =
      some attr.description :=
    Record.required?_of_lookup (.string attr.description) (lookup_written (by simp [written])) rfl
  have type : Record.required? stored "type" AttributeType.ofJson? = some attr.type :=
    Record.required?_of_lookup attr.type.toJson (lookup_written (by simp [written]))
      (AttributeType.ofJson?_toJson attr.type)
  have default : Record.optional? stored "default" some = some (Record.unlessNull attr.default) :=
    Record.optional?_raw (lookup_written (by simp [written]))
  have optional : Record.withDefault? stored "optional" false Json.asBool? = some attr.optional :=
    Record.withDefault?_of_lookup (.bool attr.optional) (lookup_written (by simp [written])) rfl
  have deprecated : Record.withDefault? stored "deprecated" [] (Record.list? Json.asString?) =
      some (attr.deprecated.map id) :=
    Record.withDefault?_list .string (lookup_written (by simp [written])) fun _ _ => rfl
  have memoryType : Record.optional? stored "memoryType" Record.keyword? =
      some (attr.memoryType.map id) :=
    Record.optional?_of_lookup Record.ofKeyword (lookup_written (by simp [written]))
      Record.keyword?_ofKeyword Json.ofKeyword_ne_null
  have minimum : Record.optional? stored "minimum" some = some (Record.unlessNull attr.minimum) :=
    Record.optional?_raw (lookup_written (by simp [written]))
  have maximum : Record.optional? stored "maximum" some = some (Record.unlessNull attr.maximum) :=
    Record.optional?_raw (lookup_written (by simp [written]))
  have metadata : Record.withDefault? stored "metadata" .empty Metadata.ofJson? =
      some (attr.metadata.mapValues id) :=
    Record.withDefault?_dict id (lookup_written (by simp [written])) fun _ _ => rfl
  have uiName : Record.optional? stored "uiName" Json.asString? = some (attr.uiName.map id) :=
    Record.optional?_of_lookup .string (lookup_written (by simp [written])) (fun _ => rfl)
      Json.string_ne_null
  have unvalidated : Record.withDefault? stored "unvalidated" false Json.asBool? =
      some attr.unvalidated :=
    Record.withDefault?_of_lookup (.bool attr.unvalidated) (lookup_written (by simp [written])) rfl
  rw [ofJson?, toJson_eq_written]
  refine Record.bind_of_loaded (Record.open?_members attr.nodup_written fields) ?_
  refine Record.bind_of_loaded name (Record.bind_of_loaded description ?_)
  refine Record.bind_of_loaded type (Record.bind_of_loaded default ?_)
  refine Record.bind_of_loaded optional (Record.bind_of_loaded deprecated ?_)
  refine Record.bind_of_loaded memoryType (Record.bind_of_loaded minimum ?_)
  refine Record.bind_of_loaded maximum (Record.bind_of_loaded metadata ?_)
  refine Record.bind_of_loaded uiName (Record.bind_of_loaded unvalidated ?_)
  simp [withoutNulls]

end Attribute

namespace TestCase

/-- The test case without a setup that is null. -/
def withoutNulls (test : TestCase) : TestCase := { test with setup := Record.unlessNull test.setup }

/-- The setup is not null. -/
def NullFree (test : TestCase) : Prop := test.setup ≠ some .null

theorem withoutNulls_eq_self_iff {test : TestCase} : test.withoutNulls = test ↔ test.NullFree := by
  constructor
  · intro same
    exact Record.unlessNull_eq_self_iff.mp (congrArg TestCase.setup same)
  · intro setup
    rw [withoutNulls, Record.unlessNull_eq_self_iff.mpr setup]

def written (test : TestCase) : List (String × Option Json) :=
  [("description", test.description.map .string), ("inputs", Record.dictValue test.inputs id),
    ("outputs", Record.dictValue test.outputs id), ("state", Record.dictValue test.state id),
    ("stateSet", Record.dictValue test.stateSet id), ("setup", test.setup.map id)]

theorem toJson_eq_written (test : TestCase) :
    test.toJson = .object (Record.members test.written) := by
  simp only [toJson, written, Record.members_cons, Record.members_nil, Record.field?_map,
    Record.field?_dictValue, List.append_assoc, List.append_nil]

theorem nodup_written (test : TestCase) : (test.written.map Prod.fst).Nodup := by
  have distinct : fields.Nodup := by decide
  exact distinct

theorem lookup_written {test : TestCase} {name : String} {value? : Option Json}
    (listed : (name, value?) ∈ test.written) :
    (Record.members test.written).lookup name = value? :=
  Record.lookup_members test.nodup_written listed

private theorem load_values {test : TestCase} {name : String} {values : Dict Json}
    (listed : (name, Record.dictValue values id) ∈ test.written) :
    Record.withDefault? (Record.members test.written) name .empty (Record.dict? some) =
      some (values.mapValues id) :=
  Record.withDefault?_dict id (lookup_written listed) fun _ _ => rfl

theorem ofJson?_toJson (test : TestCase) : ofJson? test.toJson = some test.withoutNulls := by
  let stored := Record.members test.written
  have description : Record.optional? stored "description" Json.asString? =
      some (test.description.map id) :=
    Record.optional?_of_lookup .string (lookup_written (by simp [written])) (fun _ => rfl)
      Json.string_ne_null
  have inputs : Record.withDefault? stored "inputs" .empty (Record.dict? some) =
      some (test.inputs.mapValues id) := load_values (by simp [written])
  have outputs : Record.withDefault? stored "outputs" .empty (Record.dict? some) =
      some (test.outputs.mapValues id) := load_values (by simp [written])
  have state : Record.withDefault? stored "state" .empty (Record.dict? some) =
      some (test.state.mapValues id) := load_values (by simp [written])
  have stateSet : Record.withDefault? stored "stateSet" .empty (Record.dict? some) =
      some (test.stateSet.mapValues id) := load_values (by simp [written])
  have setup : Record.optional? stored "setup" some = some (Record.unlessNull test.setup) :=
    Record.optional?_raw (lookup_written (by simp [written]))
  rw [ofJson?, toJson_eq_written]
  refine Record.bind_of_loaded (Record.open?_members test.nodup_written fields) ?_
  refine Record.bind_of_loaded description (Record.bind_of_loaded inputs ?_)
  refine Record.bind_of_loaded outputs (Record.bind_of_loaded state ?_)
  refine Record.bind_of_loaded stateSet (Record.bind_of_loaded setup ?_)
  simp [withoutNulls]

end TestCase

end NodeDescriptor
