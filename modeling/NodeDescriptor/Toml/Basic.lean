import NodeDescriptor.Json.Basic

/-!
# TOML values

A TOML document is a table. A table remembers how it came to be, because that decides what may
still be added to it: a table in braces is closed, a table under a header is not extended by
dotted keys, and only a table that merely lies on the way to another header may get a header
of its own later.

`Toml.insert?`, `Toml.openTable?` and `Toml.openListItem?` are the three ways in which a document
grows; each fails where the document would say something twice.
-/

set_option autoImplicit false

namespace NodeDescriptor

/-- How a table came to be. -/
inductive TomlOrigin where
  /-- By a header of its own, or as the whole document. -/
  | header
  /-- On the way to a table with a header. -/
  | implied
  /-- On the way to a value under a dotted key. -/
  | dotted
  /-- In braces. -/
  | inline
  deriving DecidableEq

/-- A TOML value. -/
inductive Toml where
  | string (text : String)
  | integer (value : Int)
  /-- A floating-point number, which is absent for the infinities and for what is no number. -/
  | float (value : Option Binary64)
  | bool (value : Bool)
  | dateTime (text : String)
  | array (items : List Toml)
  | table (origin : TomlOrigin) (members : List (String × Toml))
  /-- A list of tables, each under a header of its own. -/
  | tables (items : List (List (String × Toml)))

namespace Toml

/-! ## Growing documents -/

/-- Members of a table. -/
abbrev Members := List (String × Toml)

/-- Whether a table of this origin may be entered, by a dotted key or by a header. -/
def mayEnter (origin : TomlOrigin) (byDots : Bool) : Bool :=
  match origin with
  | .header => !byDots
  | .implied | .dotted => true
  | .inline => false

/-- Apply `change` to the last item of a list. -/
def changeLast? {α : Type} (change : α → Option α) : List α → Option (List α)
  | [] => none
  | [last] => (change last).map fun changed => [changed]
  | item :: rest => (changeLast? change rest).map fun changed => item :: changed

/-- Change the table at the end of a path. Tables that are missing on the way are made, and a
list of tables stands for its last item. `change` is given the origin and the members. -/
def changeAt? (byDots : Bool) (change : TomlOrigin → Members → Option Members)
    (origin : TomlOrigin) (members : Members) : List String → Option Members
  | [] => change origin members
  | key :: path =>
      match members.lookup key with
      | none =>
          let made := if byDots then .dotted else .implied
          (changeAt? byDots change made [] path).map fun inner =>
            Entries.put members key (.table made inner)
      | some (.table origin inner) =>
          if mayEnter origin byDots then
            (changeAt? byDots change origin inner path).map fun inner =>
              Entries.put members key (.table origin inner)
          else none
      | some (.tables items) =>
          (changeLast? (fun inner => changeAt? byDots change .header inner path) items).map
            fun items => Entries.put members key (.tables items)
      | some _ => none

/-- Add a value under a dotted key to the table of an origin. Only tables made by dotted keys
take more values that way. -/
def insert? (origin : TomlOrigin) (members : Members) (path : List String) (key : String)
    (value : Toml) : Option Members :=
  changeAt? true
    (fun origin members =>
      if (origin = .dotted) ↔ path ≠ [] then
        if (members.lookup key).isSome then none else some (members ++ [(key, value)])
      else none)
    origin members path

/-- Give a table its header. -/
def openTable? (document : Members) (path : List String) (key : String) : Option Members :=
  changeAt? false
    (fun _ members =>
      match members.lookup key with
      | none => some (members ++ [(key, .table .header [])])
      | some (.table .implied inner) => some (Entries.put members key (.table .header inner))
      | some _ => none)
    .header document path

/-- Begin the next item of a list of tables. -/
def openListItem? (document : Members) (path : List String) (key : String) : Option Members :=
  changeAt? false
    (fun _ members =>
      match members.lookup key with
      | none => some (members ++ [(key, .tables [[]])])
      | some (.tables items) => some (Entries.put members key (.tables (items ++ [[]])))
      | some _ => none)
    .header document path

/-- Add a value to the table under a header, where a list of tables stands for its last item. -/
def insertUnder? (document : Members) (header path : List String) (key : String) (value : Toml) :
    Option Members :=
  changeAt? false (fun origin members => insert? origin members path key value) .header document
    header

/-! ## As JSON -/

mutual

/-- The value as JSON. A date or time becomes an object, and a number that JSON does not have
becomes `null`. -/
def toJson : Toml → Json
  | .string text => .string text
  | .integer value => .number (.integer value)
  | .float (some value) => .number (.float value)
  | .float none => .null
  | .bool value => .bool value
  | .dateTime text => .object [("dateTime", .string text)]
  | .array items => .array (itemsJson items)
  | .table _ members => .object (membersJson members)
  | .tables items => .array (tablesJson items)

def itemsJson : List Toml → List Json
  | [] => []
  | item :: rest => item.toJson :: itemsJson rest

def membersJson : List (String × Toml) → List (String × Json)
  | [] => []
  | (key, value) :: rest => (key, value.toJson) :: membersJson rest

def tablesJson : List (List (String × Toml)) → List Json
  | [] => []
  | members :: rest => .object (membersJson members) :: tablesJson rest

end

end Toml

end NodeDescriptor
