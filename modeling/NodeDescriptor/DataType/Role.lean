import NodeDescriptor.Keyword

/-!
# Role types

A role says what the numbers of an attribute mean: a color, a normal, a matrix. A numeric role
is written as its kind, for most kinds a precision letter, and an arity in brackets
(`colorf[3]`, `matrixd[4]`). Three more roles carry no number: `execute`, `objectId` and
`timecode`. `NumericRole` admits only the combinations that exist.
-/

set_option autoImplicit false

namespace NodeDescriptor

/-- The precision of a numeric role's components. -/
inductive Precision where
  | double
  | float
  | half
  deriving DecidableEq

namespace Precision

/-- Every precision. -/
def all : List Precision := [.double, .float, .half]

def letter : Precision → Char
  | .double => 'd'
  | .float => 'f'
  | .half => 'h'

/-- The precision with this letter. -/
def ofLetter? (c : Char) : Option Precision := all.find? fun precision => precision.letter = c

end Precision

/-- What the numbers of a role mean. -/
inductive RoleKind where
  | color
  | normal
  | vector
  | texCoord
  | quaternion
  | point
  | matrix
  | frame
  deriving DecidableEq

namespace RoleKind

instance : Keyword RoleKind where
  all := [.color, .normal, .vector, .texCoord, .quaternion, .point, .matrix, .frame]
  word
    | .color => "color"
    | .normal => "normal"
    | .vector => "vector"
    | .texCoord => "texcoord"
    | .quaternion => "quat"
    | .point => "point"
    | .matrix => "matrixd"
    | .frame => "frame"
  complete value := by cases value <;> decide
  distinct := by decide

/-- Whether the values are square matrices rather than tuples. -/
def isMatrix : RoleKind → Bool
  | .matrix | .frame => true
  | _ => false

/-- Whether a precision letter follows the kind. -/
def hasPrecision (kind : RoleKind) : Bool := !kind.isMatrix

/-- The arities that the kind is declared with. -/
def arities : RoleKind → List Nat
  | .color => [3, 4]
  | .normal | .vector | .point => [3]
  | .texCoord => [2, 3]
  | .quaternion | .frame => [4]
  | .matrix => [2, 3, 4]

/-- Whether the kind goes with a precision, or with none, and an arity. -/
def admits (kind : RoleKind) (precision : Option Precision) (arity : Nat) : Bool :=
  kind.hasPrecision == precision.isSome && kind.arities.contains arity

end RoleKind

/-- A numeric role; its kind admits its precision and arity. -/
structure NumericRole where
  kind : RoleKind
  precision : Option Precision
  arity : Nat
  legal : kind.admits precision arity = true
  deriving DecidableEq

namespace NumericRole

/-- The role with these parts, if there is one. -/
def ofParts? (kind : RoleKind) (precision : Option Precision) (arity : Nat) :
    Option NumericRole :=
  if legal : kind.admits precision arity = true then some ⟨kind, precision, arity, legal⟩
  else none

def text (role : NumericRole) : String :=
  Keyword.word role.kind ++ (role.precision.map fun precision => precision.letter.toString).getD ""
    ++ "[" ++ toString role.arity ++ "]"

end NumericRole

/-- A role type. -/
inductive Role where
  | numeric (role : NumericRole)
  | execute
  | objectId
  | timecode
  deriving DecidableEq

namespace Role

/-- Whether there is a list type with this element. -/
def isListable : Role → Bool
  | .execute => false
  | _ => true

def text : Role → String
  | .numeric role => role.text
  | .execute => "execute"
  | .objectId => "objectId"
  | .timecode => "timecode"

end Role

end NodeDescriptor
