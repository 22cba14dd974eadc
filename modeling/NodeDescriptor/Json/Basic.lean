import NodeDescriptor.Decimal.Binary64
import NodeDescriptor.Dict

/-!
# JSON values

A JSON value as a tree. The members of an object are kept in the order in which they are
written, so the type admits repeated keys; `Json.merged` is the reading under which a repeated
key keeps its first place and has its last value. Numbers are integers or binary64 numbers,
and the two are never confused: `1` is an integer and `1.0` is not.

Equality is decidable and structural. `Json.depth` counts nested brackets.
-/

set_option autoImplicit false

namespace NodeDescriptor

/-- A JSON number. The readers make integers only from -2^63 to 2^64 - 1. -/
inductive Number where
  | integer (value : Int)
  | float (value : Binary64)
  deriving DecidableEq

/-- A JSON value. -/
inductive Json where
  | null
  | bool (value : Bool)
  | number (value : Number)
  | string (value : String)
  | array (items : List Json)
  | object (members : List (String × Json))

namespace Json

instance : Inhabited Json := ⟨.null⟩

/-! ## Views -/

/-- The text of a string value. -/
def asString? : Json → Option String
  | .string value => some value
  | _ => none

/-- The items of an array. -/
def asArray? : Json → Option (List Json)
  | .array items => some items
  | _ => none

/-- The members of an object. -/
def asObject? : Json → Option (List (String × Json))
  | .object members => some members
  | _ => none

/-- The truth value of a boolean. -/
def asBool? : Json → Option Bool
  | .bool value => some value
  | _ => none

/-- The value of an integer. -/
def asInt? : Json → Option Int
  | .number (.integer value) => some value
  | _ => none

/-- The value of an integer that is not negative. -/
def asNat? (value : Json) : Option Nat :=
  value.asInt?.bind Int.toNat?

/-- An integer value. -/
def ofNat (value : Nat) : Json := .number (.integer value)

/-- A list of strings. -/
def ofStrings (texts : List String) : Json := .array (texts.map .string)

/-! ## Nesting -/

mutual

/-- The number of brackets open at the deepest place of the value. -/
def depth : Json → Nat
  | .array items => depthOfItems items + 1
  | .object members => depthOfMembers members + 1
  | _ => 0

/-- The greatest depth among the items of an array. -/
def depthOfItems : List Json → Nat
  | [] => 0
  | item :: rest => max item.depth (depthOfItems rest)

/-- The greatest depth among the members of an object. -/
def depthOfMembers : List (String × Json) → Nat
  | [] => 0
  | (_, value) :: rest => max value.depth (depthOfMembers rest)

end

/-! ## Repeated keys -/

mutual

/-- The value in which no object repeats a key: of equal keys the first place and the last
value remain. -/
def merged : Json → Json
  | .array items => .array (mergedItems items)
  | .object members => .object (mergedMembers [] members)
  | value => value

/-- The items of an array, each merged. -/
def mergedItems : List Json → List Json
  | [] => []
  | item :: rest => item.merged :: mergedItems rest

/-- Members written one after another after those of `before`. -/
def mergedMembers (before : List (String × Json)) : List (String × Json) → List (String × Json)
  | [] => before
  | (key, value) :: rest => mergedMembers (Entries.put before key value.merged) rest

end

/-! ## Equality -/

mutual

/-- Equality of values is decidable. -/
def decideEq : (left right : Json) → Decidable (left = right)
  | .null, .null => isTrue rfl
  | .bool a, .bool b => if same : a = b then isTrue (by rw [same]) else isFalse (by simp [same])
  | .number a, .number b =>
      if same : a = b then isTrue (by rw [same]) else isFalse (by simp [same])
  | .string a, .string b =>
      if same : a = b then isTrue (by rw [same]) else isFalse (by simp [same])
  | .array a, .array b =>
      match decideEqItems a b with
      | isTrue same => isTrue (by rw [same])
      | isFalse different => isFalse (by simp [different])
  | .object a, .object b =>
      match decideEqMembers a b with
      | isTrue same => isTrue (by rw [same])
      | isFalse different => isFalse (by simp [different])
  | .null, .bool _ | .null, .number _ | .null, .string _ | .null, .array _ | .null, .object _
  | .bool _, .null | .bool _, .number _ | .bool _, .string _ | .bool _, .array _
  | .bool _, .object _ | .number _, .null | .number _, .bool _ | .number _, .string _
  | .number _, .array _ | .number _, .object _ | .string _, .null | .string _, .bool _
  | .string _, .number _ | .string _, .array _ | .string _, .object _ | .array _, .null
  | .array _, .bool _ | .array _, .number _ | .array _, .string _ | .array _, .object _
  | .object _, .null | .object _, .bool _ | .object _, .number _ | .object _, .string _
  | .object _, .array _ => isFalse (by simp)

/-- Equality of array items is decidable. -/
def decideEqItems : (left right : List Json) → Decidable (left = right)
  | [], [] => isTrue rfl
  | [], _ :: _ | _ :: _, [] => isFalse (by simp)
  | a :: as, b :: bs =>
      match decideEq a b, decideEqItems as bs with
      | isTrue head, isTrue tail => isTrue (by rw [head, tail])
      | isFalse different, _ => isFalse (by simp [different])
      | _, isFalse different => isFalse (by simp [different])

/-- Equality of object members is decidable. -/
def decideEqMembers : (left right : List (String × Json)) → Decidable (left = right)
  | [], [] => isTrue rfl
  | [], _ :: _ | _ :: _, [] => isFalse (by simp)
  | (key, a) :: as, (other, b) :: bs =>
      if keys : key = other then
        match decideEq a b, decideEqMembers as bs with
        | isTrue head, isTrue tail => isTrue (by rw [keys, head, tail])
        | isFalse different, _ => isFalse (by simp [different])
        | _, isFalse different => isFalse (by simp [different])
      else isFalse (by simp [keys])

end

instance : DecidableEq Json := decideEq

end Json

end NodeDescriptor
