import NodeDescriptor.Json.Layout
import NodeDescriptor.Json.Literal

/-!
# Raw JSON

A JSON text as a tree whose leaves are not read yet. Numbers are literals of any size, and a
string is absent when an escape in it stands for no character, so a raw tree exists for every
text that follows the grammar, however deeply it is nested.

`RawJson.value?` reads the leaves. It is given a `Layout`, which tells what parts of the tree
are looked at: only these have to be values of JSON and to keep within the nesting limit. The
members that a record does not have are passed over, whatever they hold.
-/

set_option autoImplicit false

namespace NodeDescriptor

/-- A JSON text as a tree. -/
inductive RawJson where
  | null
  | bool (value : Bool)
  | number (literal : DecimalLiteral)
  /-- A string, which is absent when it is no sequence of characters. -/
  | string (text : Option String)
  | array (items : List RawJson)
  | object (members : List (Option String × RawJson))

namespace RawJson

mutual

/-- The parts of the tree that are looked at, as a value with at most `levels` brackets open
at a time. -/
def value? (levels : Nat) (layout : Layout) : RawJson → Option Json
  | .null => some .null
  | .bool value => some (.bool value)
  | .number literal => (Number.ofLiteral? literal).map .number
  | .string text => text.map .string
  | .array items =>
      if levels = 0 then none else (itemValues? (levels - 1) layout.item items).map .array
  | .object members =>
      if levels = 0 then none else (memberValues? (levels - 1) layout members).map .object

/-- The items of an array as values. -/
def itemValues? (levels : Nat) (layout : Layout) : List RawJson → Option (List Json)
  | [] => some []
  | item :: rest => do
      let value ← item.value? levels layout
      let values ← itemValues? levels layout rest
      some (value :: values)

/-- The members of an object that are looked at, as values. -/
def memberValues? (levels : Nat) (layout : Layout) :
    List (Option String × RawJson) → Option (List (String × Json))
  | [] => some []
  | (key, member) :: rest => do
      let key ← key
      match layout.member? key with
      | none => memberValues? levels layout rest
      | some inner => do
          let value ← member.value? levels inner
          let values ← memberValues? levels layout rest
          some ((key, value) :: values)

end

end RawJson

end NodeDescriptor
