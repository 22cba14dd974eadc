import NodeDescriptor.Json.Raw
import NodeDescriptor.Json.Token

/-!
# Reading JSON

The strict grammar of RFC 8259. The reader keeps the open brackets on a stack and takes one
token at a time, so reading is a fold over the tokens. `RawJson.read?` gives the tree that a
text spells. `Json.parse?` also reads all its leaves, with at most `Json.nestingLimit` brackets
open at a time, and keeps repeated keys as they are written; `Json.read?` merges them.
`Json.parseParts?` reads only the parts that a layout looks at.
-/

set_option autoImplicit false

namespace NodeDescriptor

namespace RawJson

/-- The value that a word stands for. -/
def ofWord? (letters : List Char) : Option RawJson :=
  if letters = ['t', 'r', 'u', 'e'] then some (.bool true)
  else if letters = ['f', 'a', 'l', 's', 'e'] then some (.bool false)
  else if letters = ['n', 'u', 'l', 'l'] then some .null
  else (DecimalLiteral.ofJson? letters).map .number

/-- A bracket around the value that is being read: the items or members before it, last one
first, and in an object its key. -/
inductive Frame where
  | array (items : List RawJson)
  | object (members : List (Option String × RawJson)) (key : Option String)

/-- What the reader has just read and so what may follow. -/
inductive Reader where
  /-- A value must follow. -/
  | value (frames : List Frame)
  /-- An array has been opened: its first item or its end. -/
  | firstItem (frames : List Frame)
  /-- An item has been read: a comma or the end of the array. -/
  | afterItem (items : List RawJson) (frames : List Frame)
  /-- An object has been opened: its first key or its end. -/
  | firstKey (frames : List Frame)
  /-- A comma in an object: a key. -/
  | nextKey (members : List (Option String × RawJson)) (frames : List Frame)
  /-- A key has been read: a colon. -/
  | afterKey (members : List (Option String × RawJson)) (key : Option String)
      (frames : List Frame)
  /-- A member has been read: a comma or the end of the object. -/
  | afterMember (members : List (Option String × RawJson)) (frames : List Frame)
  /-- The whole value has been read: nothing. -/
  | done (value : RawJson)

namespace Reader

/-- A value is complete: it belongs to the innermost open bracket. -/
def complete (frames : List Frame) (result : RawJson) : Reader :=
  match frames with
  | [] => .done result
  | .array items :: outer => .afterItem (result :: items) outer
  | .object members key :: outer => .afterMember ((key, result) :: members) outer

/-- Read the first token of a value inside `frames`. -/
def begin (frames : List Frame) (token : Token) : Option Reader :=
  match token with
  | .openBracket => some (.firstItem frames)
  | .openBrace => some (.firstKey frames)
  | .string text => some (complete frames (.string text))
  | .word letters => (ofWord? letters).map (complete frames)
  | _ => none

/-- Read one token. -/
def step (reader : Reader) (token : Token) : Option Reader :=
  match reader, token with
  | .value frames, token => begin frames token
  | .firstItem frames, .closeBracket => some (complete frames (.array []))
  | .firstItem frames, token => begin (.array [] :: frames) token
  | .afterItem items frames, .comma => some (.value (.array items :: frames))
  | .afterItem items frames, .closeBracket => some (complete frames (.array items.reverse))
  | .firstKey frames, .closeBrace => some (complete frames (.object []))
  | .firstKey frames, .string key => some (.afterKey [] key frames)
  | .nextKey members frames, .string key => some (.afterKey members key frames)
  | .afterKey members key frames, .colon => some (.value (.object members key :: frames))
  | .afterMember members frames, .comma => some (.nextKey members frames)
  | .afterMember members frames, .closeBrace => some (complete frames (.object members.reverse))
  | _, _ => none

/-- The value, when all of it has been read. -/
def finish? : Reader → Option RawJson
  | .done result => some result
  | _ => none

end Reader

/-- The tree that a sequence of tokens spells. -/
def ofTokens? (tokens : List Token) : Option RawJson :=
  (tokens.foldlM Reader.step (.value [])).bind Reader.finish?

def read? (text : String) : Option RawJson := (Token.scan? text.toList).bind ofTokens?

end RawJson

namespace Json

/-- The most brackets that may be open at a time. -/
def nestingLimit : Nat := 127

/-- Read the parts of a JSON text that are looked at; repeated keys stay as they are written. -/
def parseParts? (layout : Layout) (text : String) : Option Json :=
  (RawJson.read? text).bind (RawJson.value? nestingLimit layout)

/-- Read a JSON text; repeated keys stay as they are written. -/
def parse? (text : String) : Option Json := parseParts? .whole text

/-- Read a JSON text; of a repeated key the first place and the last value remain. -/
def read? (text : String) : Option Json :=
  (parse? text).map merged

end Json

end NodeDescriptor
