import NodeDescriptor.Json.Reader
import NodeDescriptor.Node.Basic

/-!
# Models

A model is what a document amounts to: its nodes under their names, in the order of the
document. It is the form in which nodes are handed on, so it can be written as JSON text and
read back.
-/

set_option autoImplicit false

namespace NodeDescriptor

/-- The nodes of a document. -/
structure Model where
  /-- The version of the format. -/
  version : String
  nodes : Dict Node
  deriving DecidableEq

namespace Model

/-- The version of the format that is written. -/
def formatVersion : String := "1.0.0"

def empty : Model := ⟨formatVersion, .empty⟩

instance : Inhabited Model := ⟨empty⟩

/-- Add a node under its name. -/
def insert (model : Model) (node : Node) : Model :=
  { model with nodes := model.nodes.insert node.name node }

def toJson (model : Model) : Json :=
  .object [("version", .string model.version), ("nodes", Record.ofDict Node.toJson model.nodes)]

def fields : List String := ["version", "nodes"]

def ofJson? (value : Json) : Option Model := do
  let members ← Record.open? fields value
  return {
    version := ← Record.required? members "version" Json.asString?
    nodes := ← Record.required? members "nodes" (Record.dict? Node.ofJson?) }

def layout : Layout := .ofFields fields [("nodes", .dict Node.layout)]

/-- Read a model from JSON text, of which only the fields of records have to be values. The
text as it is written has to load, so that no record repeats a field in it; dictionaries may
repeat keys. -/
def read? (text : String) : Option Model :=
  (Json.parseParts? layout text).bind fun value =>
    (ofJson? value).bind fun _ => ofJson? value.merged

end Model

end NodeDescriptor
