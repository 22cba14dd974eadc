import NodeDescriptor.Attribute.Basic
import NodeDescriptor.Icon.Basic
import NodeDescriptor.Node.Scheduling
import NodeDescriptor.Node.TestCase
import NodeDescriptor.Node.Vocabulary
import NodeDescriptor.Section

/-!
# Nodes

A node is the normalized form of one entry of a descriptor document: every shorthand is
expanded, every type is read. A node starts out with nothing but its name, and the checks of
an entry fill it in. In JSON, fields that say nothing are left out where they may be.
-/

set_option autoImplicit false

namespace NodeDescriptor

/-- The definition of one node. -/
structure Node where
  name : String
  comment : Option String
  /-- The lines of the description. -/
  description : List String
  icon : Option Icon
  version : UInt32
  language : Language
  memoryType : Option MemoryType
  /-- The artifacts that are not made for the node. -/
  exclude : List Artifact
  categories : List String
  /-- What the categories mean, where that is said. -/
  categoryDefinitions : Dict String
  cudaPointers : Option CudaPointers
  metadata : Metadata
  scheduling : List SchedulingFlag
  singleton : Bool
  tags : List String
  /-- Tokens and the names under which they are shown. -/
  tokens : Dict String
  uiName : String
  inputs : Dict Attribute
  outputs : Dict Attribute
  state : Dict Attribute
  tests : List TestCase
  deriving DecidableEq

namespace Node

/-- The node of which nothing is known but the name. -/
def ofName (name : String) : Node where
  name
  comment := none
  description := []
  icon := none
  version := 1
  language := .cpp
  memoryType := none
  exclude := []
  categories := []
  categoryDefinitions := .empty
  cudaPointers := none
  metadata := .empty
  scheduling := []
  singleton := false
  tags := []
  tokens := .empty
  uiName := ""
  inputs := .empty
  outputs := .empty
  state := .empty
  tests := []

def attributes (node : Node) : Section → Dict Attribute
  | .inputs => node.inputs
  | .outputs => node.outputs
  | .state => node.state

/-- The node with other attributes in a section. -/
def withAttributes (node : Node) (part : Section) (attributes : Dict Attribute) : Node :=
  match part with
  | .inputs => { node with inputs := attributes }
  | .outputs => { node with outputs := attributes }
  | .state => { node with state := attributes }

/-- The node with an attribute added to a section under its own name. -/
def withAttribute (node : Node) (part : Section) (attr : Attribute) : Node :=
  node.withAttributes part ((node.attributes part).insert attr.name attr)

/-- The attribute of this name in a section. -/
def attribute? (node : Node) (part : Section) (name : String) : Option Attribute :=
  (node.attributes part).get? name

/-- The author named in the metadata. -/
def author? (node : Node) : Option String := (node.metadata.get? "author").bind Json.asString?

/-- A metadata value as text: the items of a list are written one by one, with commas between. -/
def viewText : Json → String
  | .string text => text
  | .array items => Text.joined "," (items.map fun item => item.asString?.getD item.compact)
  | value => value.compact

/-- The metadata as texts, with the name, the tags and the singleton flag folded in. -/
def metadataView (node : Node) : Dict String :=
  let named := (node.metadata.mapValues viewText).insert "uiName" node.uiName
  let tagged := if node.tags.isEmpty then named else named.insert "tags" (Text.joined "," node.tags)
  if node.singleton then tagged.insert "singleton" "1" else tagged

/-! ## JSON -/

/-- The fields of a node, in the order in which they are written. -/
def fields : List String :=
  ["name", "comment", "description", "icon", "version", "language", "memoryType", "exclude",
    "categories", "categoryDefinitions", "cudaPointers", "metadata", "scheduling", "singleton",
    "tags", "tokens", "uiName", "inputs", "outputs", "state", "tests"]

def toJson (node : Node) : Json :=
  .object (
    [("name", .string node.name)] ++
    Record.field? "comment" node.comment .string ++
    [("description", .ofStrings node.description)] ++
    Record.field? "icon" node.icon Icon.toJson ++
    [("version", .ofNat node.version.toNat), ("language", Record.ofKeyword node.language)] ++
    Record.field? "memoryType" node.memoryType Record.ofKeyword ++
    Record.listField "exclude" node.exclude Record.ofKeyword ++
    [("categories", .ofStrings node.categories)] ++
    Record.dictField "categoryDefinitions" node.categoryDefinitions .string ++
    Record.field? "cudaPointers" node.cudaPointers Record.ofKeyword ++
    [("metadata", Metadata.toJson node.metadata)] ++
    Record.listField "scheduling" node.scheduling Record.ofKeyword ++
    [("singleton", .bool node.singleton)] ++
    Record.listField "tags" node.tags .string ++
    Record.dictField "tokens" node.tokens .string ++
    [("uiName", .string node.uiName)] ++
    Record.dictField "inputs" node.inputs Attribute.toJson ++
    Record.dictField "outputs" node.outputs Attribute.toJson ++
    Record.dictField "state" node.state Attribute.toJson ++
    Record.listField "tests" node.tests TestCase.toJson)

def loadVersion? (value : Json) : Option UInt32 :=
  (value.asNat?.filter (· < UInt32.size)).map UInt32.ofNat

def ofJson? (value : Json) : Option Node := do
  let members ← Record.open? fields value
  let strings := Record.list? Json.asString?
  let names := Record.dict? Json.asString?
  let attributes := fun name =>
    Record.withDefault? members name .empty (Record.dict? Attribute.ofJson?)
  return {
    name := ← Record.required? members "name" Json.asString?
    comment := ← Record.optional? members "comment" Json.asString?
    description := ← Record.required? members "description" strings
    icon := ← Record.optional? members "icon" Icon.ofJson?
    version := ← Record.required? members "version" loadVersion?
    language := ← Record.required? members "language" Record.keyword?
    memoryType := ← Record.optional? members "memoryType" Record.keyword?
    exclude := ← Record.withDefault? members "exclude" [] (Record.list? Record.keyword?)
    categories := ← Record.required? members "categories" strings
    categoryDefinitions := ← Record.withDefault? members "categoryDefinitions" .empty names
    cudaPointers := ← Record.optional? members "cudaPointers" Record.keyword?
    metadata := ← Record.required? members "metadata" Metadata.ofJson?
    scheduling := ← Record.withDefault? members "scheduling" [] (Record.list? Record.keyword?)
    singleton := ← Record.required? members "singleton" Json.asBool?
    tags := ← Record.withDefault? members "tags" [] strings
    tokens := ← Record.withDefault? members "tokens" .empty names
    uiName := ← Record.required? members "uiName" Json.asString?
    inputs := ← attributes "inputs"
    outputs := ← attributes "outputs"
    state := ← attributes "state"
    tests := ← Record.withDefault? members "tests" [] (Record.list? TestCase.ofJson?) }

/-- The parts of a node that are looked at in a text. -/
def layout : Layout :=
  .ofFields fields
    [("icon", Icon.layout), ("inputs", .dict Attribute.layout), ("outputs", .dict Attribute.layout),
      ("state", .dict Attribute.layout), ("tests", .list TestCase.layout)]

end Node

end NodeDescriptor
