import NodeDescriptor.Text.Hex

/-!
# TOML strings

There are strings with escapes in quotation marks and strings without in apostrophes, and both
may run over several lines between tripled delimiters. A line break is a line feed, alone or
after a carriage return, and is read as a line feed; a break right after the opening delimiter
is dropped. A tripled delimiter may be preceded by up to two more of its characters, which then
belong to the string.
-/

set_option autoImplicit false

namespace NodeDescriptor.Toml

/-- Whether a character is a space or a tab. -/
def isBlank (c : Char) : Bool := c == ' ' || c == '\t'

/-- Whether a character may stand in a comment or a string as it is. -/
def isTextCharacter (c : Char) : Bool := c == '\t' || (0x20 ≤ c.toNat && c.toNat != 0x7F)

/-- What follows a line break. -/
def afterBreak? : List Char → Option (List Char)
  | '\n' :: rest => some rest
  | '\r' :: '\n' :: rest => some rest
  | _ => none

/-! ## Ends of strings -/

/-- The end of a string that runs over several lines, after one delimiting character: the
delimiting characters that belong to the string, and what follows it. -/
def afterTriple? (delimiter : Char) : List Char → Option (List Char × List Char)
  | a :: b :: c :: d :: rest =>
      if a = delimiter ∧ b = delimiter then
        if c = delimiter then
          if d = delimiter then some ([delimiter, delimiter], rest)
          else some ([delimiter], d :: rest)
        else some ([], c :: d :: rest)
      else none
  | [a, b, c] =>
      if a = delimiter ∧ b = delimiter then
        if c = delimiter then some ([delimiter], []) else some ([], [c])
      else none
  | [a, b] => if a = delimiter ∧ b = delimiter then some ([], []) else none
  | _ => none

/-! ## Strings without escapes -/

/-- Read the rest of a string without escapes; the characters before it are kept last first. -/
def literalRest? (multiline : Bool) (before : List Char) :
    List Char → Option (String × List Char)
  | [] => none
  | c :: rest =>
      if c = '\'' then
        if multiline then
          match afterTriple? '\'' rest with
          | some (extra, after) => some (String.ofList (before.reverse ++ extra), after)
          | none => literalRest? multiline (c :: before) rest
        else some (String.ofList before.reverse, rest)
      else if isTextCharacter c then literalRest? multiline (c :: before) rest
      else if multiline && c == '\n' then literalRest? multiline (c :: before) rest
      else if multiline && c == '\r' && rest.head? == some '\n' then
        literalRest? multiline before rest
      else none

/-! ## Strings with escapes -/

/-- What a string with escapes is in the middle of. -/
inductive QuotedMode where
  | plain
  | escape
  /-- Reading the `missing` remaining digits of a character's number. -/
  | code (value missing : Nat)
  /-- After a backslash at the end of a line: skipping blank space, in which a line break has
  been seen or not. -/
  | lineEnd (broken : Bool)

/-- The character that a backslash and this letter stand for. -/
def simpleEscape? (c : Char) : Option Char :=
  match c with
  | 'b' => some '\x08'
  | 't' => some '\t'
  | 'n' => some '\n'
  | 'f' => some '\x0c'
  | 'r' => some '\r'
  | '"' => some '"'
  | '\\' => some '\\'
  | _ => none

/-- The mode in which a character is read: the first character that is not blank ends the
skipping after a backslash at the end of a line. -/
def QuotedMode.before (mode : QuotedMode) (c : Char) : QuotedMode :=
  match mode with
  | .lineEnd true => if isBlank c || c == '\n' || c == '\r' then mode else .plain
  | _ => mode

/-- Read the rest of a string with escapes; the characters before it are kept last first. -/
def quotedRest? (multiline : Bool) (mode : QuotedMode) (before : List Char) :
    List Char → Option (String × List Char)
  | [] => none
  | c :: rest =>
      let startsBreak := c == '\r' && rest.head? == some '\n'
      match mode.before c with
      | .plain =>
          if c = '"' then
            if multiline then
              match afterTriple? '"' rest with
              | some (extra, after) => some (String.ofList (before.reverse ++ extra), after)
              | none => quotedRest? multiline .plain (c :: before) rest
            else some (String.ofList before.reverse, rest)
          else if c = '\\' then quotedRest? multiline .escape before rest
          else if isTextCharacter c || (multiline && c == '\n') then
            quotedRest? multiline .plain (c :: before) rest
          else if multiline && startsBreak then quotedRest? multiline .plain before rest
          else none
      | .escape =>
          if c = 'u' then quotedRest? multiline (.code 0 4) before rest
          else if c = 'U' then quotedRest? multiline (.code 0 8) before rest
          else
            match simpleEscape? c with
            | some meant => quotedRest? multiline .plain (meant :: before) rest
            | none =>
                if multiline && (isBlank c || startsBreak) then
                  quotedRest? multiline (.lineEnd false) before rest
                else if multiline && c == '\n' then
                  quotedRest? multiline (.lineEnd true) before rest
                else none
      | .code value missing =>
          match Hex.value? c with
          | none => none
          | some digit =>
              let next := value * 16 + digit
              if 1 < missing then quotedRest? multiline (.code next (missing - 1)) before rest
              else if next.isValidChar then
                quotedRest? multiline .plain (Char.ofNat next :: before) rest
              else none
      | .lineEnd broken =>
          if isBlank c || startsBreak then quotedRest? multiline (.lineEnd broken) before rest
          else if c = '\n' then quotedRest? multiline (.lineEnd true) before rest
          else none

/-! ## Whole strings -/

/-- Drop a line break at the front. -/
def withoutFirstBreak (text : List Char) : List Char := (afterBreak? text).getD text

/-- Read a string on one line. -/
def lineString? : List Char → Option (String × List Char)
  | '"' :: rest => quotedRest? false .plain [] rest
  | '\'' :: rest => literalRest? false [] rest
  | _ => none

/-- Read a string of any kind. -/
def anyString? (text : List Char) : Option (String × List Char) :=
  match text with
  | '"' :: '"' :: '"' :: rest => quotedRest? true .plain [] (withoutFirstBreak rest)
  | '\'' :: '\'' :: '\'' :: rest => literalRest? true [] (withoutFirstBreak rest)
  | _ => lineString? text

end NodeDescriptor.Toml
