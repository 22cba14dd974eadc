import NodeDescriptor.DataType.Parser
import NodeDescriptor.Distinct
import NodeDescriptor.Json.Record
import NodeDescriptor.Shape

/-!
# Attribute types

The type of an attribute is one data type or a set of alternatives, kept in the order in which
they are listed. A value fits if it has the shape of at least one alternative. In JSON one type
is a string and a set is a list of strings; on loading, repeats in a list collapse.
-/

set_option autoImplicit false

namespace NodeDescriptor

/-- One data type, or a set of alternatives in order. -/
inductive AttributeType where
  | one (type : DataType)
  | anyOf (types : List DataType) (distinct : types.Nodup)
  deriving DecidableEq

namespace AttributeType

def types : AttributeType → List DataType
  | .one type => [type]
  | .anyOf types _ => types

/-- The set of types, when there is no repeat among them. -/
def ofTypes? (types : List DataType) : Option AttributeType :=
  if distinct : types.Nodup then some (.anyOf types distinct) else none

/-- Whether the type is still open: several alternatives, or one that stands for several. -/
def isPolymorphic : AttributeType → Bool
  | .one type => !type.isConcrete
  | .anyOf types _ => 1 < types.length || types.any fun type => !type.isConcrete

/-! ## Values -/

def valueShapes (type : AttributeType) : List Shape := type.types.map DataType.shape

def boundShapes (type : AttributeType) : List Shape :=
  type.types.map fun alternative => alternative.shape.ofBound

/-- Whether a value fits at least one alternative. -/
def acceptsValue (type : AttributeType) (value : Json) : Bool :=
  type.valueShapes.any fun shape => shape.accepts value

/-- Whether a bound fits at least one alternative. -/
def acceptsBound (type : AttributeType) (bound : Json) : Bool :=
  type.boundShapes.any fun shape => shape.accepts bound

def describe (shapes : List Shape) : String :=
  Text.joined " or " ((Distinct.ofList shapes).map Shape.describe)

/-! ## Text -/

def text : AttributeType → String
  | .one type => type.text
  | .anyOf types _ => "[" ++ Text.joined ", " (types.map DataType.text) ++ "]"

def toJson : AttributeType → Json
  | .one type => .string type.text
  | .anyOf types _ => .ofStrings (types.map DataType.text)

def loadType? (value : Json) : Option DataType :=
  value.asString?.bind fun text => (DataType.parse text).toOption

def ofJson? : Json → Option AttributeType
  | .array items =>
      (items.mapM loadType?).map fun types =>
        .anyOf (Distinct.ofList types) (Distinct.nodup_ofList types)
  | value => (loadType? value).map .one

end AttributeType

end NodeDescriptor
