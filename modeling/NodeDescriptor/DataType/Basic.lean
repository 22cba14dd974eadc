import NodeDescriptor.DataType.BaseType
import NodeDescriptor.DataType.Role
import NodeDescriptor.DataType.UnionGroup

/-!
# Attribute data types

An element is a base type, a tuple of a base type, or a role. A data type is one element
(`float[3]`), a list of an element (`float[3][]`), one of the markers `bundle`, `target` and
`any`, or a union group. `Element` and `DataType` admit only types that exist, so there is no
separate check of legality.

`DataType.concrete` lists the types that are not union groups in the order in which they are
documented. `DataType.sorted` arranges types by kind, then by their parts.
-/

set_option autoImplicit false

namespace NodeDescriptor

/-- A type that a list can in general be made of. -/
inductive Element where
  | base (type : BaseType)
  | tuple (type : BaseType) (size : Nat)
      (legal : type.isTupleable = true ∧ tupleSizes.contains size = true)
  | role (meaning : Role)
  deriving DecidableEq

namespace Element

/-- Whether there is a list type with this element. -/
def isListable : Element → Bool
  | .base type => type.isListable
  | .tuple _ _ _ => true
  | .role meaning => meaning.isListable

def text : Element → String
  | .base type => Keyword.word type
  | .tuple type size _ => Keyword.word type ++ "[" ++ toString size ++ "]"
  | .role meaning => meaning.text

/-- The tuple with these parts, if there is one. -/
def tuple? (type : BaseType) (size : Nat) : Option Element :=
  if legal : type.isTupleable = true ∧ tupleSizes.contains size = true then
    some (.tuple type size legal)
  else none

end Element

/-- The type of an attribute. -/
inductive DataType where
  | single (element : Element)
  | list (element : Element) (legal : element.isListable = true)
  | bundle
  | target
  | any
  | group (union : UnionGroup)
  deriving DecidableEq

namespace DataType

def text : DataType → String
  | .single element => element.text
  | .list element _ => element.text ++ "[]"
  | .bundle => "bundle"
  | .target => "target"
  | .any => "any"
  | .group union => union.text

/-- Whether the type is not a placeholder for several. -/
def isConcrete : DataType → Bool
  | .group _ => false
  | _ => true

/-- The list type with this element, if there is one. -/
def list? (element : Element) : Option DataType :=
  if legal : element.isListable = true then some (.list element legal) else none

/-! ## The vocabulary -/

/-- An element as a type, and the list type with this element if there is one. -/
def withList (element : Element) : List DataType :=
  .single element :: (list? element).toList

/-- The types built on a base type: itself, its list, then its tuples with their lists. The
type `token` is listed among the markers. -/
def ofBase (type : BaseType) : List DataType :=
  (withList (.base type)).filter (· ≠ .single (.base .token)) ++
    (tupleSizes.filterMap (Element.tuple? type)).flatMap withList

/-- Every role, the ones without a number first. -/
def roles : List Role :=
  [.execute, .objectId, .timecode] ++
    (Keyword.all (α := RoleKind)).flatMap fun kind =>
      let precisions := if kind.hasPrecision then Precision.all.map some else [none]
      precisions.flatMap fun precision =>
        kind.arities.filterMap fun arity =>
          (NumericRole.ofParts? kind precision arity).map Role.numeric

/-- Every type that is not a union group. -/
def concrete : List DataType :=
  [.bundle, .target, .any, .single (.base .token)] ++
    (Keyword.all (α := BaseType)).flatMap ofBase ++
    (roles.map Element.role).flatMap withList

/-- Every type. -/
def vocabulary : List DataType := concrete ++ UnionGroup.all.map .group

/-! ## Order -/

/-- The position of a value among the words of its type. -/
def wordIndex {α : Type} [Keyword α] [DecidableEq α] (value : α) : Nat :=
  (Keyword.all (α := α)).idxOf value

/-- The numbers by which roles are compared, one after another. -/
def roleKey : Role → List Nat
  | .numeric role =>
      [0, wordIndex role.kind,
        (role.precision.map fun precision => Precision.all.idxOf precision + 1).getD 0, role.arity]
  | .execute => [1]
  | .objectId => [2]
  | .timecode => [3]

/-- The numbers by which union groups are compared, one after another. -/
def groupKey : UnionGroup → List Nat
  | .formed family form => [0, wordIndex family, wordIndex form]
  | .whole family => [1, wordIndex family]
  | .matrices => [2]
  | .arrayElements => [3]
  | .arrays => [4]
  | .strings => [5]

/-- The numbers by which types are compared, one after another: base types, their lists, their
tuples, lists of tuples, roles, lists of roles, the markers with `token` last, union groups. -/
def sortKey : DataType → List Nat
  | .single (.base .token) => [9]
  | .single (.base type) => [0, wordIndex type]
  | .list (.base type) _ => [1, wordIndex type]
  | .single (.tuple type size _) => [2, wordIndex type, size]
  | .list (.tuple type size _) _ => [3, wordIndex type, size]
  | .single (.role meaning) => 4 :: roleKey meaning
  | .list (.role meaning) _ => 5 :: roleKey meaning
  | .bundle => [6]
  | .target => [7]
  | .any => [8]
  | .group union => 10 :: groupKey union

/-- Whether one key comes before another or equals it: the first difference decides, and a key
comes before its extensions. -/
def keyLe : List Nat → List Nat → Bool
  | [], _ => true
  | _ :: _, [] => false
  | a :: as, b :: bs => a < b || (a == b && keyLe as bs)

/-- The types in ascending order, repeats included. -/
def sorted (types : List DataType) : List DataType :=
  types.mergeSort fun a b => keyLe a.sortKey b.sortKey

end DataType

end NodeDescriptor
