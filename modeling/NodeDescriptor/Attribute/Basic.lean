import NodeDescriptor.Attribute.Metadata
import NodeDescriptor.Attribute.Type
import NodeDescriptor.MemoryType
import NodeDescriptor.Text.DisplayName

/-!
# Attributes

An attribute is one input, output or state value of a node. Its default and bounds are JSON
values; that they fit the type is settled by the check that makes the attribute, not by the
type of attributes, since attributes are also loaded without a check.
-/

set_option autoImplicit false

namespace NodeDescriptor

/-- An input, output or state value of a node. -/
structure Attribute where
  /-- The name within the section. -/
  name : String
  description : String
  type : AttributeType
  default : Option Json
  optional : Bool
  /-- Notes on why the attribute should no longer be used; none when it may be. -/
  deprecated : List String
  memoryType : Option MemoryType
  minimum : Option Json
  maximum : Option Json
  metadata : Metadata
  /-- The name shown to a reader, when it is not derived from the attribute's name. -/
  uiName : Option String
  unvalidated : Bool
  deriving DecidableEq

namespace Attribute

/-- An attribute of which only the name and the type are known. -/
def ofType (name : String) (type : AttributeType) : Attribute where
  name
  description := ""
  type
  default := none
  optional := false
  deprecated := []
  memoryType := none
  minimum := none
  maximum := none
  metadata := .empty
  uiName := none
  unvalidated := false

def isDeprecated (attr : Attribute) : Bool := !attr.deprecated.isEmpty

def displayName (attr : Attribute) : String :=
  attr.uiName.getD (Text.displayName attr.name)

/-! ## JSON -/

/-- The fields of an attribute, in the order in which they are written. -/
def fields : List String :=
  ["name", "description", "type", "default", "optional", "deprecated", "memoryType", "minimum",
    "maximum", "metadata", "uiName", "unvalidated"]

def toJson (attr : Attribute) : Json :=
  .object (
    [("name", .string attr.name),
      ("description", .string attr.description),
      ("type", attr.type.toJson)] ++
    Record.field? "default" attr.default id ++
    [("optional", .bool attr.optional)] ++
    Record.listField "deprecated" attr.deprecated .string ++
    Record.field? "memoryType" attr.memoryType Record.ofKeyword ++
    Record.field? "minimum" attr.minimum id ++
    Record.field? "maximum" attr.maximum id ++
    Record.dictField "metadata" attr.metadata id ++
    Record.field? "uiName" attr.uiName .string ++
    [("unvalidated", .bool attr.unvalidated)])

def ofJson? (value : Json) : Option Attribute := do
  let members ← Record.open? fields value
  return {
    name := ← Record.required? members "name" Json.asString?
    description := ← Record.required? members "description" Json.asString?
    type := ← Record.required? members "type" AttributeType.ofJson?
    default := ← Record.optional? members "default" some
    optional := ← Record.withDefault? members "optional" false Json.asBool?
    deprecated := ← Record.withDefault? members "deprecated" [] (Record.list? Json.asString?)
    memoryType := ← Record.optional? members "memoryType" Record.keyword?
    minimum := ← Record.optional? members "minimum" some
    maximum := ← Record.optional? members "maximum" some
    metadata := ← Record.withDefault? members "metadata" .empty Metadata.ofJson?
    uiName := ← Record.optional? members "uiName" Json.asString?
    unvalidated := ← Record.withDefault? members "unvalidated" false Json.asBool? }

/-- The parts of an attribute that are looked at in a text. -/
def layout : Layout := .ofFields fields []

end Attribute

end NodeDescriptor
