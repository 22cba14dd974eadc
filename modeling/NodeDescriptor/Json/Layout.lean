/-!
# Layouts of JSON values

When a text is read for a certain kind of value, not all of it is looked at: of a record only
the members under the names of its fields matter. A `Layout` says which parts those are.
-/

set_option autoImplicit false

namespace NodeDescriptor

/-- The parts of a value that are looked at. -/
inductive Layout where
  /-- Everything. -/
  | whole
  /-- The members under the names of the fields. -/
  | record (fields : List (String × Layout))
  /-- The same parts of every member. -/
  | dict (entry : Layout)
  /-- The same parts of every item. -/
  | list (item : Layout)

namespace Layout

/-- The parts of an item of an array. -/
def item : Layout → Layout
  | .list item => item
  | _ => .whole

/-- The parts of the member under a key, if it is looked at. -/
def member? (layout : Layout) (key : String) : Option Layout :=
  match layout with
  | .record fields => fields.lookup key
  | .dict entry => some entry
  | _ => some .whole

/-- A record with these fields, which are looked at as a whole but for those in `inner`. -/
def ofFields (fields : List String) (inner : List (String × Layout)) : Layout :=
  .record (fields.map fun field => (field, (inner.lookup field).getD .whole))

end Layout

end NodeDescriptor
