import NodeDescriptor.Keyword

/-!
# Base types

The thirteen single-valued types that attributes are built from. All but three can be the
element of a list (`float[]`), and four can be the component of a tuple of two to four
(`float[3]`).
-/

set_option autoImplicit false

namespace NodeDescriptor

/-- A single-valued type. -/
inductive BaseType where
  | bool
  | double
  | int
  | int64
  | path
  | uchar
  | uint
  | uint64
  | token
  | half
  | float
  | integer
  | string
  deriving DecidableEq

namespace BaseType

instance : Keyword BaseType where
  all := [.bool, .double, .int, .int64, .path, .uchar, .uint, .uint64, .token, .half, .float,
    .integer, .string]
  word
    | .bool => "bool"
    | .double => "double"
    | .int => "int"
    | .int64 => "int64"
    | .path => "path"
    | .uchar => "uchar"
    | .uint => "uint"
    | .uint64 => "uint64"
    | .token => "token"
    | .half => "half"
    | .float => "float"
    | .integer => "integer"
    | .string => "string"
  complete value := by cases value <;> decide
  distinct := by decide

/-- Whether there is a list type with this element. -/
def isListable : BaseType → Bool
  | .path | .integer | .string => false
  | _ => true

/-- Whether there are tuple types with this component. -/
def isTupleable : BaseType → Bool
  | .double | .float | .half | .int => true
  | _ => false

end BaseType

/-- The sizes that a tuple type may have. -/
def tupleSizes : List Nat := [2, 3, 4]

end NodeDescriptor
