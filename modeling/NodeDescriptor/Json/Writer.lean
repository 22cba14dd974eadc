import NodeDescriptor.Decimal.Text
import NodeDescriptor.Json.Basic
import NodeDescriptor.Text.Hex
import NodeDescriptor.Text.Split

/-!
# Writing JSON

`Json.compact` writes a value without any space. `Json.pretty` puts every item and member on a
line of its own, indented by two spaces a level, with a space after the colon; empty arrays and
objects stay `[]` and `{}`. In strings only the quotation mark, the backslash and the
characters below U+0020 are escaped; all other characters stand for themselves.
-/

set_option autoImplicit false

namespace NodeDescriptor

namespace Json

/-! ## Scalars -/

/-- What is written for one character of a string. -/
def escaped (c : Char) : List Char :=
  match c with
  | '"' => ['\\', '"']
  | '\\' => ['\\', '\\']
  | '\x08' => ['\\', 'b']
  | '\t' => ['\\', 't']
  | '\n' => ['\\', 'n']
  | '\x0c' => ['\\', 'f']
  | '\r' => ['\\', 'r']
  | _ =>
      if c.toNat < 0x20 then
        ['\\', 'u', '0', '0', Hex.lowerDigit (c.toNat / 16), Hex.lowerDigit (c.toNat % 16)]
      else [c]

/-- A string with its quotation marks and escapes. -/
def quoted (text : String) : String :=
  String.ofList (('"' :: text.toList.flatMap escaped) ++ ['"'])

end Json

def Number.text : Number → String
  | .integer value => toString value
  | .float value => value.text

namespace Json

/-! ## Compact text -/

mutual

/-- The text of a value without any space. -/
def compact : Json → String
  | .null => "null"
  | .bool true => "true"
  | .bool false => "false"
  | .number value => value.text
  | .string value => quoted value
  | .array items => "[" ++ Text.joined "," (compactItems items) ++ "]"
  | .object members => "\x7b" ++ Text.joined "," (compactMembers members) ++ "\x7d"

/-- The texts of the items of an array. -/
def compactItems : List Json → List String
  | [] => []
  | item :: rest => item.compact :: compactItems rest

/-- The texts of the members of an object. -/
def compactMembers : List (String × Json) → List String
  | [] => []
  | (key, value) :: rest => (quoted key ++ ":" ++ value.compact) :: compactMembers rest

end

/-! ## Indented text -/

/-- A line break and the indentation of a level. -/
def lineBreak (level : Nat) : String :=
  String.ofList ('\n' :: List.replicate (2 * level) ' ')

/-- Lines between an opening and a closing bracket at a level. -/
def block (level : Nat) (opening closing : String) (lines : List String) : String :=
  if lines.isEmpty then opening ++ closing
  else
    opening ++ lineBreak (level + 1) ++ Text.joined ("," ++ lineBreak (level + 1)) lines ++
      lineBreak level ++ closing

mutual

/-- The indented text of a value that stands at a level. -/
def prettyAt (level : Nat) : Json → String
  | .null => "null"
  | .bool true => "true"
  | .bool false => "false"
  | .number value => value.text
  | .string value => quoted value
  | .array items => block level "[" "]" (prettyItems (level + 1) items)
  | .object members => block level "\x7b" "\x7d" (prettyMembers (level + 1) members)

/-- The indented texts of the items of an array. -/
def prettyItems (level : Nat) : List Json → List String
  | [] => []
  | item :: rest => item.prettyAt level :: prettyItems level rest

/-- The indented texts of the members of an object. -/
def prettyMembers (level : Nat) : List (String × Json) → List String
  | [] => []
  | (key, value) :: rest => (quoted key ++ ": " ++ value.prettyAt level) :: prettyMembers level rest

end

/-- The indented text of a value. -/
def pretty (value : Json) : String := value.prettyAt 0

end Json

end NodeDescriptor
