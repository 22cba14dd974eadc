import NodeDescriptor.Attribute.Basic
import NodeDescriptor.Diagnostic.Checked

/-!
# Checking attributes

`Attribute.check` reads an attribute from its JSON object. Every member is judged on its own,
and only the default and the bounds also look at the type, so one problem hides no other. The
findings come in a fixed order of the members, whatever their order in the object. Members
under other keys are ignored.
-/

set_option autoImplicit false

namespace NodeDescriptor

namespace Attribute

/-! ## The type -/

/-- The type in a list that an item stands for, given the types before it. -/
def typeOfItem (before : List DataType) (item : Json) : Except Problem DataType :=
  match item.asString? with
  | none => .error (.wrongShape "a type name string")
  | some text =>
      match DataType.parse text with
      | .error unknown => .error (.unknownType unknown.token)
      | .ok type => if type ∈ before then .error (.repeatedType type.text) else .ok type

/-- Read the items of a list of types from a position on, given the types before it. -/
def checkTypeItems (position : Nat) (before : List DataType) :
    List Json → Checked (List DataType)
  | [] => .clean before
  | item :: rest =>
      match typeOfItem before item with
      | .ok type => checkTypeItems (position + 1) (before ++ [type]) rest
      | .error problem =>
          let others := checkTypeItems (position + 1) before rest
          ⟨others.value, ⟨FieldPath.root.index position, problem⟩ :: others.findings⟩

/-- Read a type: one data type, or a list of at least one without repeats. -/
def checkType : Json → Checked (Option AttributeType)
  | .string text =>
      match DataType.parse text with
      | .ok type => .clean (some (.one type))
      | .error unknown => .refused (.unknownType unknown.token)
  | .array (item :: rest) =>
      let types := checkTypeItems 0 [] (item :: rest)
      ⟨if types.findings.isEmpty then AttributeType.ofTypes? types.value else none, types.findings⟩
  | _ => .refused (.wrongShape "a type name or a non-empty list of type names")

/-! ## Values -/

/-- Compare a default with the type, where the type is known. -/
def checkDefault (type : Option AttributeType) (value : Json) : Checked (Option Json) :=
  ⟨some value,
    match type with
    | none => []
    | some type =>
        if type.acceptsValue value then []
        else [.here (.defaultMisfit type.text (AttributeType.describe type.valueShapes))]⟩

/-- Compare a bound with the type, where the type is known. -/
def checkBound (type : Option AttributeType) (bound : Json) : Checked (Option Json) :=
  ⟨some bound,
    match type with
    | none => []
    | some type =>
        if type.acceptsBound bound then []
        else [.here (.boundMisfit type.text (AttributeType.describe type.boundShapes))]⟩

/-! ## Other members -/

/-- Read a description: a string, or the lines of one. -/
def checkDescription (value : Json) : Checked (Option String) :=
  (Member.strings value).map fun lines => lines.map (Text.joined "\n")

def checkMemoryType : Json → Checked (Option MemoryType) :=
  Member.form Record.keyword? "one of cpu, cuda, any"

/-- What a metadata value is expected to be, if it is not. -/
def metadataProblem? (key : String) (value : Json) : Option Problem :=
  if key = Metadata.allowedTokensKey then
    if value.allowedTokens?.isSome then none
    else some (.wrongShape "a comma-separated string, a list of strings or a string mapping")
  else if (Keyword.ofWord? key : Option MetadataFlag).isSome then
    if value.flag?.isSome then none
    else some (.wrongShape "\"1\", \"0\", \"true\", \"false\" or a boolean")
  else none

/-- Read metadata: an object, of which comments are dropped and the keys with a meaning are
judged. -/
def checkMetadata : Json → Checked (Option Metadata)
  | .object members =>
      let kept := Member.withoutComments members
      ⟨some (Dict.ofList kept),
        kept.filterMap fun member =>
          (metadataProblem? member.1 member.2).map fun problem => ⟨.entry member.1, problem⟩⟩
  | _ => .refused (.wrongShape "an object")

/-! ## Attributes -/

/-- What was read of each member of an attribute object. -/
structure Reading where
  description : Checked (Option String)
  type : Checked (Option AttributeType)
  default : Checked (Option Json)
  minimum : Checked (Option Json)
  maximum : Checked (Option Json)
  optional : Checked (Option Bool)
  unvalidated : Checked (Option Bool)
  deprecated : Checked (Option (List String))
  uiName : Checked (Option String)
  memoryType : Checked (Option MemoryType)
  metadata : Checked (Option Metadata)

namespace Reading

def ofMembers (members : List (String × Json)) : Reading :=
  let type := Member.required members "type" checkType
  { description := Member.required members "description" checkDescription
    type
    default := Member.optional members "default" (checkDefault type.value)
    minimum := Member.optional members "minimum" (checkBound type.value)
    maximum := Member.optional members "maximum" (checkBound type.value)
    optional := Member.optional members "optional" Member.boolean
    unvalidated := Member.optional members "unvalidated" Member.boolean
    deprecated := Member.optional members "deprecated" Member.strings
    uiName := Member.optional members "uiName" Member.string
    memoryType := Member.optional members "memoryType" checkMemoryType
    metadata := Member.optional members "metadata" checkMetadata }

def findings (reading : Reading) : List Finding :=
  reading.description.findings ++ reading.type.findings ++ reading.default.findings ++
    reading.minimum.findings ++ reading.maximum.findings ++ reading.optional.findings ++
    reading.unvalidated.findings ++ reading.deprecated.findings ++ reading.uiName.findings ++
    reading.memoryType.findings ++ reading.metadata.findings

/-- The attribute, when its description and its type could be read. -/
def attribute? (reading : Reading) (name : String) : Option Attribute := do
  return {
    name
    description := ← reading.description.value
    type := ← reading.type.value
    default := reading.default.value
    optional := reading.optional.value.getD false
    deprecated := reading.deprecated.value.getD []
    memoryType := reading.memoryType.value
    minimum := reading.minimum.value
    maximum := reading.maximum.value
    metadata := reading.metadata.value.getD .empty
    uiName := reading.uiName.value
    unvalidated := reading.unvalidated.value.getD false }

end Reading

/-- Read the attribute called `name`; there is none when anything is wrong with it. -/
def check (name : String) : Json → Checked (Option Attribute)
  | .object members =>
      let reading := Reading.ofMembers members
      ⟨if reading.findings.any Finding.isError then none else reading.attribute? name,
        reading.findings⟩
  | _ => .refused (.wrongShape "an attribute object")

end Attribute

end NodeDescriptor
