import NodeDescriptor.Toml.Quoted
import NodeDescriptor.Toml.Scalar

/-!
# Reading TOML

The grammar of TOML 1.0 by recursive descent: every reader takes a text and answers what it has
read with the text after it. Brackets and dotted keys may go `Toml.nestingLimit` levels deep.
Loops are bounded by the length of the text, of which every turn takes at least one character.
-/

set_option autoImplicit false

namespace NodeDescriptor.Toml

/-! ## White space and comments -/

/-- The text without the blanks at its front. -/
def skipBlanks (text : List Char) : List Char := text.dropWhile isBlank

/-- The text without a comment at its front. -/
def skipComment : List Char → List Char
  | '#' :: rest => rest.dropWhile isTextCharacter
  | text => text

/-- What follows the end of a line, before which blanks and a comment may stand. -/
def afterLine? (text : List Char) : Option (List Char) :=
  match skipComment (skipBlanks text) with
  | [] => some []
  | rest => afterBreak? rest

/-- The text without the blanks, comments and line breaks at its front. -/
def skipFiller (inComment : Bool) : List Char → List Char
  | [] => []
  | '\n' :: rest => skipFiller false rest
  | '\r' :: '\n' :: rest => skipFiller false rest
  | c :: rest =>
      if inComment then if isTextCharacter c then skipFiller true rest else c :: rest
      else if c = '#' then skipFiller true rest
      else if isBlank c then skipFiller false rest
      else c :: rest

/-! ## Keys -/

/-- The most levels that brackets or a dotted key may go deep. -/
def nestingLimit : Nat := 79

/-- Whether a character can stand in a key without quotation marks. -/
def isKeyCharacter (c : Char) : Bool := c.isAlphanum || c == '_' || c == '-'

/-- Read one part of a key. -/
def keyPart? (text : List Char) : Option (String × List Char) :=
  match text with
  | '"' :: _ | '\'' :: _ => lineString? text
  | _ =>
      let (letters, rest) := text.span isKeyCharacter
      if letters.isEmpty then none else some (String.ofList letters, rest)

/-- Read a key of at most `levels` parts with points between them: the parts before the last
one, the last one, and the text after the blanks that follow it. -/
def key? (levels : Nat) (text : List Char) : Option (List String × String × List Char) :=
  match levels with
  | 0 => none
  | levels + 1 => do
      let (part, rest) ← keyPart? (skipBlanks text)
      match skipBlanks rest with
      | '.' :: more =>
          let (path, last, rest) ← key? levels more
          some (part :: path, last, rest)
      | rest => some ([], part, rest)

/-! ## Values -/

/-- Read a key and, after an equals sign, the value that follows. -/
def member? (value? : List Char → Option (Toml × List Char)) (text : List Char) :
    Option (List String × String × Toml × List Char) := do
  let (path, last, rest) ← key? nestingLimit text
  let (value, rest) ← value? (skipBlanks (← character? '=' rest))
  some (path, last, value, rest)

/-- Read the items of an array up to its end; `before` are the items so far, last one first. -/
def items? (value? : List Char → Option (Toml × List Char)) (turns : Nat) (before : List Toml)
    (text : List Char) : Option (List Toml × List Char) :=
  match turns with
  | 0 => none
  | turns + 1 =>
      match skipFiller false text with
      | ']' :: rest => some (before.reverse, rest)
      | text => do
          let (item, rest) ← value? text
          match skipFiller false rest with
          | ',' :: rest => items? value? turns (item :: before) rest
          | ']' :: rest => some ((item :: before).reverse, rest)
          | _ => none

/-- Read the members of a table in braces up to its end, given those so far. -/
def members? (value? : List Char → Option (Toml × List Char)) (turns : Nat) (before : Members)
    (text : List Char) : Option (Members × List Char) :=
  match turns with
  | 0 => none
  | turns + 1 => do
      let (path, last, value, rest) ← member? value? text
      let members ← insert? .inline before path last value
      match skipBlanks rest with
      | ',' :: rest => members? value? turns members rest
      | '\x7d' :: rest => some (members, rest)
      | _ => none

/-- Read a value with at most `levels` open brackets. -/
def value? (levels : Nat) (text : List Char) : Option (Toml × List Char) :=
  match levels, text with
  | 0, '[' :: _ | 0, '\x7b' :: _ => none
  | levels + 1, '[' :: rest =>
      (items? (value? levels) (rest.length + 1) [] rest).map fun (items, rest) =>
        (.array items, rest)
  | levels + 1, '\x7b' :: rest =>
      match skipBlanks rest with
      | '\x7d' :: rest => some (.table .inline [], rest)
      | rest =>
          (members? (value? levels) (rest.length + 1) [] rest).map fun (members, rest) =>
            (.table .inline members, rest)
  | _, '"' :: _ | _, '\'' :: _ => (anyString? text).map fun (text, rest) => (.string text, rest)
  | _, _ =>
      let (letters, rest) := scalarLetters text
      (ofLetters? letters).map fun value => (value, rest)

/-! ## Documents -/

/-- A document that has been read in part: its members, and the path of the header under which
values now fall. -/
structure Draft where
  members : Members
  header : List String

/-- Read the header of a table, after its opening bracket. -/
def tableHeader? (draft : Draft) (text : List Char) : Option (Draft × List Char) := do
  let (path, last, rest) ← key? nestingLimit text
  let members ← openTable? draft.members path last
  some (⟨members, path ++ [last]⟩, ← afterLine? (← character? ']' rest))

/-- Read the header of an item of a list of tables, after its opening brackets. -/
def listHeader? (draft : Draft) (text : List Char) : Option (Draft × List Char) := do
  let (path, last, rest) ← key? nestingLimit text
  let members ← openListItem? draft.members path last
  some (⟨members, path ++ [last]⟩, ← afterLine? (← character? ']' (← character? ']' rest)))

/-- Read a key and its value. -/
def assignment? (draft : Draft) (text : List Char) : Option (Draft × List Char) := do
  let (path, last, value, rest) ← member? (value? nestingLimit) text
  let members ← insertUnder? draft.members draft.header path last value
  some ({ draft with members }, ← afterLine? rest)

/-- Read one line, or the lines of one value. -/
def line? (draft : Draft) (text : List Char) : Option (Draft × List Char) :=
  match skipBlanks text with
  | '[' :: '[' :: rest => listHeader? draft rest
  | '[' :: rest => tableHeader? draft rest
  | '#' :: rest => (afterLine? ('#' :: rest)).map fun rest => (draft, rest)
  | rest =>
      match afterLine? rest with
      | some rest => some (draft, rest)
      | none => assignment? draft rest

/-- Read lines until the text ends. -/
def lines? (turns : Nat) (draft : Draft) (text : List Char) : Option Members :=
  match text, turns with
  | [], _ => some draft.members
  | _, 0 => none
  | text, turns + 1 => (line? draft text).bind fun (draft, rest) => lines? turns draft rest

/-- The text without a byte order mark at its front. -/
def withoutMark : List Char → List Char
  | '\uFEFF' :: rest => rest
  | text => text

def read? (text : String) : Option Toml :=
  let letters := withoutMark text.toList
  (lines? letters.length ⟨[], []⟩ letters).map fun members => .table .header members

end NodeDescriptor.Toml
