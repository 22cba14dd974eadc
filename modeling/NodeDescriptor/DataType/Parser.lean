import NodeDescriptor.DataType.Basic
import NodeDescriptor.Decimal.Text
import NodeDescriptor.Text.Split

/-!
# Reading data types

Every production of the type grammar is a recognizer of its own: the markers, lists of tuples,
of base types and of roles, tuples, base types, roles, and union groups. `DataType.parse` first
looks for a marker and then for the brackets of a list, and tries only the productions that are
left. A text that none of them accepts is refused by name. `productions` lists all of them, in the
order in which they would be tried without such a distinction.
-/

set_option autoImplicit false

namespace NodeDescriptor

/-- The refusal of a text that is no type. -/
structure UnknownType where
  token : String
  deriving DecidableEq

def UnknownType.message (unknown : UnknownType) : String :=
  "unknown type token '" ++ unknown.token ++ "'"

namespace DataType

/-- Split `head[n]` with a single digit `n` and a head that is not empty. -/
def sized? (text : String) : Option (String × Nat) :=
  match text.toList.reverse with
  | ']' :: digit :: '[' :: front =>
      if front.isEmpty then none
      else (Digits.value? digit).map fun size => (String.ofList front.reverse, size)
  | _ => none

/-- The text before a final `[]`. -/
def listHead? (text : String) : Option String :=
  match text.toList.reverse with
  | ']' :: '[' :: front => some (String.ofList front.reverse)
  | _ => none

/-! ## Elements -/

/-- A tuple such as `float[3]`. -/
def tupleElement? (text : String) : Option Element :=
  (sized? text).bind fun (head, size) =>
    (Keyword.ofWord? head).bind fun type => Element.tuple? type size

/-- A base type such as `float`. -/
def baseElement? (text : String) : Option Element :=
  (Keyword.ofWord? text).map Element.base

/-- The kind and the precision that a numeric role begins with. -/
def rolePrefix? (head : String) : Option (RoleKind × Option Precision) :=
  match Keyword.ofWord? head with
  | some kind => some (kind, none)
  | none =>
      match head.toList.reverse with
      | [] => none
      | letter :: front =>
          (Precision.ofLetter? letter).bind fun precision =>
            (Keyword.ofWord? (String.ofList front.reverse)).map fun kind => (kind, some precision)

/-- A role such as `colorf[3]` or `timecode`. -/
def roleElement? (text : String) : Option Element :=
  if text = "execute" then some (.role .execute)
  else if text = "objectId" then some (.role .objectId)
  else if text = "timecode" then some (.role .timecode)
  else
    (sized? text).bind fun (head, arity) =>
      (rolePrefix? head).bind fun (kind, precision) =>
        (NumericRole.ofParts? kind precision arity).map fun role => .role (.numeric role)

/-! ## Types -/

/-- A type that is a word of its own. -/
def marker? (text : String) : Option DataType :=
  if text = "bundle" then some .bundle
  else if text = "target" then some .target
  else if text = "any" then some .any
  else if text = "token" then some (.single (.base .token))
  else none

/-- A list of an element that the recognizer accepts. -/
def listOf? (element? : String → Option Element) (text : String) : Option DataType :=
  (listHead? text).bind fun head => (element? head).bind list?

/-- A single element that the recognizer accepts. -/
def singleOf? (element? : String → Option Element) (text : String) : Option DataType :=
  (element? text).map .single

/-- A union group that is not a form of a family. -/
def namedGroup? (text : String) : Option UnionGroup :=
  if text = "integrals" then some (.whole .integral)
  else if text = "decimals" then some (.whole .decimal)
  else if text = "numerics" then some (.whole .numeric)
  else if text = "matrices" then some .matrices
  else if text = "array_elements" then some .arrayElements
  else if text = "arrays" then some .arrays
  else if text = "strings" then some .strings
  else none

/-- A family and a form with an underscore between them. -/
def familyGroup? (text : String) : Option UnionGroup :=
  (Text.splitFirst? '_' text.toList).bind fun (stem, form) =>
    (Keyword.ofWord? (String.ofList stem)).bind fun family =>
      (Keyword.ofWord? (String.ofList form)).map fun form => .formed family form

/-- A union group. -/
def group? (text : String) : Option DataType :=
  ((namedGroup? text).or (familyGroup? text)).map .group

/-! ## Reading -/

/-- The type that was read of a text, or the refusal of the text. -/
def accept (text : String) : Option DataType → Except UnknownType DataType
  | some type => .ok type
  | none => .error ⟨text⟩

/-- Read the text of a list, whose elements are named by the text before the brackets. The first
production that reads the element decides, also when there are no lists of it. -/
def parseList (text element : String) : Except UnknownType DataType :=
  match tupleElement? element with
  | some tuple => accept text (list? tuple)
  | none =>
      match baseElement? element with
      | some base => accept text (list? base)
      | none => accept text ((roleElement? element).bind list?)

/-- Read a type. A text that ends with an empty pair of brackets is read as a list and as nothing
else. -/
def parse (text : String) : Except UnknownType DataType :=
  match marker? text with
  | some marker => .ok marker
  | none =>
      match listHead? text with
      | some element => parseList text element
      | none =>
          match tupleElement? text with
          | some tuple => .ok (.single tuple)
          | none =>
              match baseElement? text with
              | some base => .ok (.single base)
              | none =>
                  match roleElement? text with
                  | some role => .ok (.single role)
                  | none => accept text (group? text)

/-! ## Trial -/

/-- The productions of the grammar besides the markers. -/
def productions : List (String → Option DataType) :=
  [listOf? tupleElement?, listOf? baseElement?, listOf? roleElement?, singleOf? tupleElement?,
    singleOf? baseElement?, singleOf? roleElement?, group?]

/-- The answer of the first recognizer that accepts the text. -/
def firstAccepted? (recognizers : List (String → Option DataType)) (text : String) :
    Option DataType :=
  recognizers.findSome? fun recognizer => recognizer text

end DataType

end NodeDescriptor
