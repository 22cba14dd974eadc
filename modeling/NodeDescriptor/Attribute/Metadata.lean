import NodeDescriptor.Json.Record
import NodeDescriptor.Json.Writer
import NodeDescriptor.Keyword
import NodeDescriptor.Text.Split

/-!
# Metadata

Metadata is an open dictionary of JSON values. `Metadata.joined?` gives a value as one text,
with the items of a list separated by commas. A few keys have a meaning: `allowedTokens` lists
the tokens that an input takes, and five flags may be given as booleans or as text.
-/

set_option autoImplicit false

namespace NodeDescriptor

/-- Free-form metadata of an attribute or a node. -/
abbrev Metadata := Dict Json

/-- The flags that metadata may carry. -/
inductive MetadataFlag where
  | allowMultiInputs
  | hidden
  | internal
  | literalOnly
  | outputOnly
  deriving DecidableEq

instance : Keyword MetadataFlag where
  all := [.allowMultiInputs, .hidden, .internal, .literalOnly, .outputOnly]
  word
    | .allowMultiInputs => "allowMultiInputs"
    | .hidden => "hidden"
    | .internal => "internal"
    | .literalOnly => "literalOnly"
    | .outputOnly => "outputOnly"
  complete value := by cases value <;> decide
  distinct := by decide

/-! ## Values -/

namespace Json

/-- A string itself, and any other value in compact JSON. -/
def plainText : Json → String
  | .string text => text
  | value => value.compact

/-- The value as one text: the items of a list are separated by commas. -/
def joinedText : Json → String
  | .array items => Text.joined "," (items.map plainText)
  | value => value.plainText

/-- A truth value, given as a boolean or in words. -/
def flag? : Json → Option Bool
  | .bool value => some value
  | .string text =>
      if text = "1" ∨ text = "true" then some true
      else if text = "0" ∨ text = "false" then some false
      else none
  | _ => none

/-- The string members of an object none of whose members is anything else. -/
def stringMembers? (members : List (String × Json)) : Option (List (String × String)) :=
  members.mapM fun member => member.2.asString?.map fun text => (member.1, text)

/-- Token names, given as a comma-separated text, as a list of strings, or as an object from
tokens to names. -/
def allowedTokens? : Json → Option (Dict String)
  | .string text => some (Dict.ofList ((Text.commaParts text).map fun token => (token, token)))
  | .array items =>
      (items.mapM fun item => (asString? item).map fun token => (token, token)).map Dict.ofList
  | .object members => (stringMembers? members).map Dict.ofList
  | _ => none

end Json

/-! ## Reading -/

namespace Metadata

/-- The key of the tokens that an input takes. -/
def allowedTokensKey : String := "allowedTokens"

/-- The value of a key as one text. -/
def joined? (metadata : Metadata) (key : String) : Option String :=
  (metadata.get? key).map Json.joinedText

/-- The tokens that an input takes, with their names. -/
def allowedTokens? (metadata : Metadata) : Option (Dict String) :=
  (metadata.get? allowedTokensKey).bind Json.allowedTokens?

/-- Whether a flag is set; a flag that is absent or has no truth value is not. -/
def flag (metadata : Metadata) (name : MetadataFlag) : Bool :=
  ((metadata.get? (Keyword.word name)).bind Json.flag?).getD false

def toJson (metadata : Metadata) : Json := Record.ofDict id metadata

def ofJson? (value : Json) : Option Metadata := Record.dict? some value

end Metadata

end NodeDescriptor
