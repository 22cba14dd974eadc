import NodeDescriptor.Json.Basic
import NodeDescriptor.Json.Layout
import NodeDescriptor.Keyword

/-!
# Records in JSON

How values of the domain are written as JSON objects and loaded from them. A record is loaded
from an object in which no field of the record is repeated; members that are no fields of it
are ignored. `required?` demands a field, `withDefault?` replaces an absent one, and
`optional?` also takes `null` as absence. Fields that have nothing to say are not written.
-/

set_option autoImplicit false

namespace NodeDescriptor.Record

variable {α : Type}

/-! ## Loading -/

/-- The members of an object in which none of the fields is repeated. -/
def open? (fields : List String) (value : Json) : Option (List (String × Json)) :=
  value.asObject?.filter fun members =>
    fields.all fun field => (Entries.keys members).count field ≤ 1

/-- Load a field that must be there. -/
def required? (members : List (String × Json)) (field : String) (load : Json → Option α) :
    Option α :=
  (members.lookup field).bind load

/-- Load a field that has a default. -/
def withDefault? (members : List (String × Json)) (field : String) (default : α)
    (load : Json → Option α) : Option α :=
  match members.lookup field with
  | none => some default
  | some value => load value

/-- Load a field that may be absent or `null`. -/
def optional? (members : List (String × Json)) (field : String) (load : Json → Option α) :
    Option (Option α) :=
  match members.lookup field with
  | none | some .null => some none
  | some value => (load value).map some

/-- Load a list, item by item. -/
def list? (load : Json → Option α) (value : Json) : Option (List α) :=
  value.asArray?.bind fun items => items.mapM load

/-- Load a dictionary, member by member. -/
def dict? (load : Json → Option α) (value : Json) : Option (Dict α) :=
  value.asObject?.bind fun members =>
    (members.mapM fun member => (load member.2).map fun loaded => (member.1, loaded)).map
      Dict.ofList

/-- Load a word of a closed vocabulary. -/
def keyword? [Keyword α] (value : Json) : Option α :=
  value.asString?.bind Keyword.ofWord?

/-! ## Writing -/

/-- The member of a field that is there. -/
def field? (name : String) (value : Option α) (write : α → Json) : List (String × Json) :=
  match value with
  | none => []
  | some value => [(name, write value)]

/-- The member of a list that is not empty. -/
def listField (name : String) (values : List α) (write : α → Json) : List (String × Json) :=
  if values.isEmpty then [] else [(name, .array (values.map write))]

/-- A dictionary as an object. -/
def ofDict (write : α → Json) (dict : Dict α) : Json :=
  .object (dict.entries.map fun entry => (entry.1, write entry.2))

/-- The member of a dictionary that is not empty. -/
def dictField (name : String) (dict : Dict α) (write : α → Json) : List (String × Json) :=
  if dict.isEmpty then [] else [(name, ofDict write dict)]

/-- A word of a closed vocabulary as a string. -/
def ofKeyword [Keyword α] (value : α) : Json := .string (Keyword.word value)

end NodeDescriptor.Record
