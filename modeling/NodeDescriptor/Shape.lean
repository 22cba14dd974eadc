import NodeDescriptor.DataType.Basic
import NodeDescriptor.Json.Basic

/-!
# Value shapes

The shape of the JSON values that a default, a bound or a test value of a type may have: a
scalar, a tuple of a fixed number of scalars, a square matrix written by rows or as one flat
list, a list of a shape, or anything. A scalar is a number, a string or a boolean. A bound of a
list type limits each element, so it has the shape of an element.
-/

set_option autoImplicit false

namespace NodeDescriptor

/-- The shape of a JSON value. -/
inductive Shape where
  | scalar
  | tuple (size : Nat)
  | matrix (size : Nat)
  | list (element : Shape)
  | any
  deriving DecidableEq

/-- Whether a value is a number, a string or a boolean. -/
def Json.isScalar : Json → Bool
  | .number _ | .string _ | .bool _ => true
  | _ => false

namespace Shape

/-- Whether the items of an array form a tuple of this size. -/
def isTuple (size : Nat) (items : List Json) : Bool :=
  items.length == size && items.all Json.isScalar

/-- Whether a value is an array that forms a tuple of this size. -/
def isRow (size : Nat) : Json → Bool
  | .array items => isTuple size items
  | _ => false

/-- Whether a value has the shape. -/
def accepts : Shape → Json → Bool
  | .any, _ => true
  | .scalar, value => value.isScalar
  | .tuple size, value => isRow size value
  | .matrix size, .array items =>
      (items.length == size && items.all (isRow size)) || isTuple (size * size) items
  | .list element, .array items => items.all element.accepts
  | .matrix _, _ | .list _, _ => false

/-- The shape of a bound for values of this shape. -/
def ofBound : Shape → Shape
  | .list element => element
  | shape => shape

/-- What the elements of a list are called. -/
def elementName : Shape → String
  | .scalar => "scalars"
  | .tuple size => toString size ++ "-element lists"
  | .matrix size => toString size ++ "x" ++ toString size ++ " matrices"
  | .list _ => "lists"
  | .any => "values"

def describe : Shape → String
  | .scalar => "a scalar value"
  | .tuple size => "a list of exactly " ++ toString size ++ " values"
  | .matrix size => "a " ++ toString size ++ "x" ++ toString size ++ " matrix"
  | .list element => "a list of " ++ element.elementName
  | .any => "any value"

end Shape

def Role.shape : Role → Shape
  | .numeric role => if role.kind.isMatrix then .matrix role.arity else .tuple role.arity
  | .execute | .objectId | .timecode => .scalar

def Element.shape : Element → Shape
  | .base _ => .scalar
  | .tuple _ size _ => .tuple size
  | .role meaning => meaning.shape

def DataType.shape : DataType → Shape
  | .single element => element.shape
  | .list element _ => .list element.shape
  | .bundle | .target | .any | .group _ => .any

end NodeDescriptor
