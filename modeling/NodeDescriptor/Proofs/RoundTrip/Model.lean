import NodeDescriptor.Model
import NodeDescriptor.Proofs.RoundTrip.Parts

/-!
# Models that were written

A model is loaded from what it is written as. Nothing is lost but raw values of attributes and
setups of tests that are null, and the order of all keys is kept.
-/

set_option autoImplicit false

namespace NodeDescriptor

namespace Node

/-- The node without raw values that are null. -/
def withoutNulls (node : Node) : Node :=
  { node with
    inputs := node.inputs.mapValues Attribute.withoutNulls
    outputs := node.outputs.mapValues Attribute.withoutNulls
    state := node.state.mapValues Attribute.withoutNulls
    tests := node.tests.map TestCase.withoutNulls }

/-- No value of an attribute and no setup of a test is null. -/
structure NullFree (node : Node) : Prop where
  attributes : ∀ part, ∀ entry ∈ (node.attributes part).entries, entry.2.NullFree
  tests : ∀ test ∈ node.tests, test.NullFree

theorem withoutNulls_eq_self_iff {node : Node} : node.withoutNulls = node ↔ node.NullFree := by
  have kept {dict : Dict Attribute} : dict.mapValues Attribute.withoutNulls = dict ↔
      ∀ entry ∈ dict.entries, entry.2.NullFree := by
    simp only [Dict.mapValues_eq_self_iff, Attribute.withoutNulls_eq_self_iff]
  have keptTests : node.tests.map TestCase.withoutNulls = node.tests ↔
      ∀ test ∈ node.tests, test.NullFree := by
    simp only [map_eq_self_iff, TestCase.withoutNulls_eq_self_iff]
  constructor
  · intro same
    refine ⟨fun part => ?_, keptTests.mp (congrArg Node.tests same)⟩
    cases part with
    | inputs => exact kept.mp (congrArg Node.inputs same)
    | outputs => exact kept.mp (congrArg Node.outputs same)
    | state => exact kept.mp (congrArg Node.state same)
  · intro nullFree
    obtain ⟨attributes, tests⟩ := nullFree
    have inputs : node.inputs.mapValues Attribute.withoutNulls = node.inputs :=
      kept.mpr (attributes .inputs)
    have outputs : node.outputs.mapValues Attribute.withoutNulls = node.outputs :=
      kept.mpr (attributes .outputs)
    have state : node.state.mapValues Attribute.withoutNulls = node.state :=
      kept.mpr (attributes .state)
    rw [withoutNulls, inputs, outputs, state, keptTests.mpr tests]

def written (node : Node) : List (String × Option Json) :=
  [("name", some (.string node.name)), ("comment", node.comment.map .string),
    ("description", some (.ofStrings node.description)), ("icon", node.icon.map Icon.toJson),
    ("version", some (.ofNat node.version.toNat)),
    ("language", some (Record.ofKeyword node.language)),
    ("memoryType", node.memoryType.map Record.ofKeyword),
    ("exclude", Record.listValue node.exclude Record.ofKeyword),
    ("categories", some (.ofStrings node.categories)),
    ("categoryDefinitions", Record.dictValue node.categoryDefinitions .string),
    ("cudaPointers", node.cudaPointers.map Record.ofKeyword),
    ("metadata", some (Metadata.toJson node.metadata)),
    ("scheduling", Record.listValue node.scheduling Record.ofKeyword),
    ("singleton", some (.bool node.singleton)), ("tags", Record.listValue node.tags .string),
    ("tokens", Record.dictValue node.tokens .string), ("uiName", some (.string node.uiName)),
    ("inputs", Record.dictValue node.inputs Attribute.toJson),
    ("outputs", Record.dictValue node.outputs Attribute.toJson),
    ("state", Record.dictValue node.state Attribute.toJson),
    ("tests", Record.listValue node.tests TestCase.toJson)]

theorem toJson_eq_written (node : Node) :
    node.toJson = .object (Record.members node.written) := by
  simp only [toJson, written, Record.members_cons, Record.members_nil, Record.field?_some,
    Record.field?_map, Record.field?_listValue, Record.field?_dictValue, List.append_assoc,
    List.cons_append, List.nil_append, List.append_nil]

theorem nodup_written (node : Node) : (node.written.map Prod.fst).Nodup := by
  have distinct : fields.Nodup := by decide
  exact distinct

theorem lookup_written {node : Node} {name : String} {value? : Option Json}
    (listed : (name, value?) ∈ node.written) :
    (Record.members node.written).lookup name = value? :=
  Record.lookup_members node.nodup_written listed

private theorem loadVersion?_ofNat (version : UInt32) :
    loadVersion? (.ofNat version.toNat) = some version := by
  have small : version.toNat < UInt32.size := version.toNat_lt_size
  simp [loadVersion?, Json.ofNat, Json.asNat?, Json.asInt?, Int.toNat?, Option.filter, small]

private theorem load_strings (texts : List String) :
    Record.list? Json.asString? (.ofStrings texts) = some texts := by
  have loaded : Record.list? Json.asString? (.array (texts.map .string)) = some (texts.map id) :=
    Record.list?_array fun _ _ => rfl
  rw [Json.ofStrings, loaded, List.map_id]

/-- The attributes of a section are loaded without their nulls. -/
theorem load_attributes {node : Node} {name : String} {attributes : Dict Attribute}
    (listed : (name, Record.dictValue attributes Attribute.toJson) ∈ node.written) :
    Record.withDefault? (Record.members node.written) name .empty
      (Record.dict? Attribute.ofJson?) = some (attributes.mapValues Attribute.withoutNulls) :=
  Record.withDefault?_dict Attribute.toJson (lookup_written listed) fun entry _ =>
    Attribute.ofJson?_toJson entry.2

private theorem load_words {α : Type} [Keyword α] {node : Node} {name : String} {words : List α}
    (listed : (name, Record.listValue words Record.ofKeyword) ∈ node.written) :
    Record.withDefault? (Record.members node.written) name [] (Record.list? Record.keyword?) =
      some words := by
  have loaded : Record.withDefault? (Record.members node.written) name []
      (Record.list? Record.keyword?) = some (words.map id) :=
    Record.withDefault?_list Record.ofKeyword (lookup_written listed) fun word _ =>
      Record.keyword?_ofKeyword word
  rw [loaded, List.map_id]

private theorem load_word {α : Type} [Keyword α] {node : Node} {name : String} {word : Option α}
    (listed : (name, word.map Record.ofKeyword) ∈ node.written) :
    Record.optional? (Record.members node.written) name Record.keyword? = some word := by
  have loaded : Record.optional? (Record.members node.written) name Record.keyword? =
      some (word.map id) :=
    Record.optional?_of_lookup Record.ofKeyword (lookup_written listed) Record.keyword?_ofKeyword
      Json.ofKeyword_ne_null
  rw [loaded, Option.map_id]
  rfl

private theorem load_names {node : Node} {name : String} {names : Dict String}
    (listed : (name, Record.dictValue names .string) ∈ node.written) :
    Record.withDefault? (Record.members node.written) name .empty (Record.dict? Json.asString?) =
      some names := by
  have loaded : Record.withDefault? (Record.members node.written) name .empty
      (Record.dict? Json.asString?) = some (names.mapValues id) :=
    Record.withDefault?_dict .string (lookup_written listed) fun _ _ => rfl
  rw [loaded, Dict.mapValues_id]

theorem ofJson?_toJson (node : Node) : ofJson? node.toJson = some node.withoutNulls := by
  let stored := Record.members node.written
  have name : Record.required? stored "name" Json.asString? = some node.name :=
    Record.required?_of_lookup (.string node.name) (lookup_written (by simp [written])) rfl
  have comment : Record.optional? stored "comment" Json.asString? = some (node.comment.map id) :=
    Record.optional?_of_lookup .string (lookup_written (by simp [written])) (fun _ => rfl)
      Json.string_ne_null
  have description : Record.required? stored "description" (Record.list? Json.asString?) =
      some node.description :=
    Record.required?_of_lookup (.ofStrings node.description) (lookup_written (by simp [written]))
      (load_strings node.description)
  have icon : Record.optional? stored "icon" Icon.ofJson? = some (node.icon.map id) :=
    Record.optional?_of_lookup Icon.toJson (lookup_written (by simp [written]))
      Icon.ofJson?_toJson Icon.toJson_ne_null
  have version : Record.required? stored "version" loadVersion? = some node.version :=
    Record.required?_of_lookup (.ofNat node.version.toNat) (lookup_written (by simp [written]))
      (loadVersion?_ofNat node.version)
  have language : Record.required? stored "language" Record.keyword? = some node.language :=
    Record.required?_of_lookup (Record.ofKeyword node.language)
      (lookup_written (by simp [written])) (Record.keyword?_ofKeyword node.language)
  have memoryType : Record.optional? stored "memoryType" Record.keyword? = some node.memoryType :=
    load_word (by simp [written])
  have exclude : Record.withDefault? stored "exclude" [] (Record.list? Record.keyword?) =
      some node.exclude := load_words (by simp [written])
  have categories : Record.required? stored "categories" (Record.list? Json.asString?) =
      some node.categories :=
    Record.required?_of_lookup (.ofStrings node.categories) (lookup_written (by simp [written]))
      (load_strings node.categories)
  have categoryDefinitions : Record.withDefault? stored "categoryDefinitions" .empty
      (Record.dict? Json.asString?) = some node.categoryDefinitions :=
    load_names (by simp [written])
  have cudaPointers : Record.optional? stored "cudaPointers" Record.keyword? =
      some node.cudaPointers := load_word (by simp [written])
  have metadata : Record.required? stored "metadata" Metadata.ofJson? =
      some (node.metadata.mapValues id) :=
    Record.required?_of_lookup (Metadata.toJson node.metadata) (lookup_written (by simp [written]))
      (Record.dict?_ofDict fun _ _ => rfl)
  have scheduling : Record.withDefault? stored "scheduling" [] (Record.list? Record.keyword?) =
      some node.scheduling := load_words (by simp [written])
  have singleton : Record.required? stored "singleton" Json.asBool? = some node.singleton :=
    Record.required?_of_lookup (.bool node.singleton) (lookup_written (by simp [written])) rfl
  have tags : Record.withDefault? stored "tags" [] (Record.list? Json.asString?) =
      some (node.tags.map id) :=
    Record.withDefault?_list .string (lookup_written (by simp [written])) fun _ _ => rfl
  have tokens : Record.withDefault? stored "tokens" .empty (Record.dict? Json.asString?) =
      some node.tokens := load_names (by simp [written])
  have uiName : Record.required? stored "uiName" Json.asString? = some node.uiName :=
    Record.required?_of_lookup (.string node.uiName) (lookup_written (by simp [written])) rfl
  have inputs : Record.withDefault? stored "inputs" .empty (Record.dict? Attribute.ofJson?) =
      some (node.inputs.mapValues Attribute.withoutNulls) := load_attributes (by simp [written])
  have outputs : Record.withDefault? stored "outputs" .empty (Record.dict? Attribute.ofJson?) =
      some (node.outputs.mapValues Attribute.withoutNulls) := load_attributes (by simp [written])
  have state : Record.withDefault? stored "state" .empty (Record.dict? Attribute.ofJson?) =
      some (node.state.mapValues Attribute.withoutNulls) := load_attributes (by simp [written])
  have tests : Record.withDefault? stored "tests" [] (Record.list? TestCase.ofJson?) =
      some (node.tests.map TestCase.withoutNulls) :=
    Record.withDefault?_list TestCase.toJson (lookup_written (by simp [written])) fun test _ =>
      TestCase.ofJson?_toJson test
  rw [ofJson?, toJson_eq_written]
  refine Record.bind_of_loaded (Record.open?_members node.nodup_written fields) ?_
  refine Record.bind_of_loaded name (Record.bind_of_loaded comment ?_)
  refine Record.bind_of_loaded description (Record.bind_of_loaded icon ?_)
  refine Record.bind_of_loaded version (Record.bind_of_loaded language ?_)
  refine Record.bind_of_loaded memoryType (Record.bind_of_loaded exclude ?_)
  refine Record.bind_of_loaded categories (Record.bind_of_loaded categoryDefinitions ?_)
  refine Record.bind_of_loaded cudaPointers (Record.bind_of_loaded metadata ?_)
  refine Record.bind_of_loaded scheduling (Record.bind_of_loaded singleton ?_)
  refine Record.bind_of_loaded tags (Record.bind_of_loaded tokens ?_)
  refine Record.bind_of_loaded uiName (Record.bind_of_loaded inputs ?_)
  refine Record.bind_of_loaded outputs (Record.bind_of_loaded state ?_)
  refine Record.bind_of_loaded tests ?_
  simp [withoutNulls]

end Node

namespace Model

/-- The model without raw values that are null. -/
def withoutNulls (model : Model) : Model :=
  { model with nodes := model.nodes.mapValues Node.withoutNulls }

/-- No raw value of any node is null. -/
def NullFree (model : Model) : Prop := ∀ entry ∈ model.nodes.entries, entry.2.NullFree

theorem withoutNulls_eq_self_iff {model : Model} : model.withoutNulls = model ↔ model.NullFree := by
  have kept : model.nodes.mapValues Node.withoutNulls = model.nodes ↔ model.NullFree := by
    simp only [Dict.mapValues_eq_self_iff, Node.withoutNulls_eq_self_iff, NullFree]
  rw [← kept]
  constructor
  · exact congrArg Model.nodes
  · intro same
    rw [withoutNulls, same]

def written (model : Model) : List (String × Option Json) :=
  [("version", some (.string model.version)),
    ("nodes", some (Record.ofDict Node.toJson model.nodes))]

theorem nodup_written (model : Model) : (model.written.map Prod.fst).Nodup := by
  have distinct : fields.Nodup := by decide
  exact distinct

theorem ofJson?_toJson (model : Model) : ofJson? model.toJson = some model.withoutNulls := by
  have shape : model.toJson = .object (Record.members model.written) := rfl
  have version : Record.required? (Record.members model.written) "version" Json.asString? =
      some model.version :=
    Record.required?_of_lookup (.string model.version)
      (Record.lookup_members model.nodup_written (by simp [written])) rfl
  have nodes : Record.required? (Record.members model.written) "nodes"
      (Record.dict? Node.ofJson?) = some (model.nodes.mapValues Node.withoutNulls) :=
    Record.required?_of_lookup (Record.ofDict Node.toJson model.nodes)
      (Record.lookup_members model.nodup_written (by simp [written]))
      (Record.dict?_ofDict fun entry _ => Node.ofJson?_toJson entry.2)
  rw [ofJson?, shape]
  refine Record.bind_of_loaded (Record.open?_members model.nodup_written fields) ?_
  refine Record.bind_of_loaded version (Record.bind_of_loaded nodes ?_)
  rfl

/-- Loading what a model is written as gives the model without its nulls, and so the model itself
exactly when there are none. -/
theorem ofJson?_toJson_eq (model : Model) :
    ofJson? model.toJson = some model.withoutNulls ∧
      (ofJson? model.toJson = some model ↔ model.NullFree) := by
  refine ⟨ofJson?_toJson model, ?_⟩
  rw [ofJson?_toJson, Option.some.injEq, withoutNulls_eq_self_iff]

end Model

end NodeDescriptor
