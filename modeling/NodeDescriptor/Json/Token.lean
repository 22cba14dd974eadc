import NodeDescriptor.Text.Hex

/-!
# JSON tokens

A JSON text is cut into tokens by a scanner that looks at one character at a time. Between
tokens it skips space, tab, line feed and carriage return. A word is a longest run of letters,
digits, signs and points: numbers, `true`, `false` and `null` are words, and whether a word is
one of these is decided later. Inside a string every character below U+0020 is refused.

`Token.scan?` is the fold of `Scanner.step` over the text, so it ends on every text. A string
is scanned into pieces, characters and the 16-bit units that `\u` stands for, and is absent from
its token when a surrogate among the units is not half of a pair.
-/

set_option autoImplicit false

namespace NodeDescriptor

namespace RawJson

/-- A token of a JSON text. -/
inductive Token where
  | openBracket
  | closeBracket
  | openBrace
  | closeBrace
  | comma
  | colon
  | string (text : Option String)
  | word (letters : List Char)
  deriving DecidableEq

/-! ## Strings -/

/-- A piece of a string between its quotation marks. -/
inductive Piece where
  | plain (c : Char)
  /-- A 16-bit unit, given by its number. -/
  | unit (code : Nat)

namespace Piece

/-- Whether a unit is the first half of a surrogate pair. -/
def isHigh (code : Nat) : Bool := 0xD800 ≤ code && code ≤ 0xDBFF

/-- Whether a unit is the second half of a surrogate pair. -/
def isLow (code : Nat) : Bool := 0xDC00 ≤ code && code ≤ 0xDFFF

/-- The character that a surrogate pair stands for. -/
def pair (high low : Nat) : Char :=
  Char.ofNat (0x10000 + (high - 0xD800) * 0x400 + (low - 0xDC00))

/-- The characters that pieces stand for, after those of `before`, which are kept last first. -/
def charactersAfter? (before : List Char) : List Piece → Option (List Char)
  | [] => some before.reverse
  | .plain c :: rest => charactersAfter? (c :: before) rest
  | .unit high :: .unit low :: rest =>
      if isHigh high && isLow low then charactersAfter? (pair high low :: before) rest
      else if isHigh high || isLow high then none
      else charactersAfter? (Char.ofNat high :: before) (.unit low :: rest)
  | .unit code :: rest =>
      if isHigh code || isLow code then none
      else charactersAfter? (Char.ofNat code :: before) rest

/-- The characters that pieces stand for. -/
def characters? (pieces : List Piece) : Option (List Char) := charactersAfter? [] pieces

end Piece

/-! ## Scanning -/

/-- What the scanner is in the middle of. What has been read so far is kept last first. -/
inductive Scanner.Mode where
  | between
  | word (letters : List Char)
  | quoted (pieces : List Piece)
  | escape (pieces : List Piece)
  /-- Reading the `missing` remaining hexadecimal digits of a unit. -/
  | code (pieces : List Piece) (value : Nat) (missing : Nat)

/-- The scanner's state: its mode and the tokens found so far, last first. -/
structure Scanner where
  mode : Scanner.Mode
  found : List Token

namespace Scanner

/-- The scanner before the first character. -/
def start : Scanner := ⟨.between, []⟩

/-- Whether a character can stand in a word. -/
def isWordCharacter (c : Char) : Bool :=
  c.isAlphanum || c == '+' || c == '-' || c == '.'

/-- The character that a backslash and this letter stand for. -/
def simpleEscape? (c : Char) : Option Char :=
  match c with
  | '"' => some '"'
  | '\\' => some '\\'
  | '/' => some '/'
  | 'b' => some '\x08'
  | 'f' => some '\x0c'
  | 'n' => some '\n'
  | 'r' => some '\r'
  | 't' => some '\t'
  | _ => none

/-- The token of a string whose pieces have been read. -/
def stringToken (pieces : List Piece) : Token :=
  .string ((Piece.characters? pieces.reverse).map String.ofList)

/-- Begin whatever starts with this character. -/
def begin (found : List Token) (c : Char) : Option Scanner :=
  match c with
  | ' ' | '\t' | '\n' | '\r' => some ⟨.between, found⟩
  | '[' => some ⟨.between, .openBracket :: found⟩
  | ']' => some ⟨.between, .closeBracket :: found⟩
  | '{' => some ⟨.between, .openBrace :: found⟩
  | '}' => some ⟨.between, .closeBrace :: found⟩
  | ',' => some ⟨.between, .comma :: found⟩
  | ':' => some ⟨.between, .colon :: found⟩
  | '"' => some ⟨.quoted [], found⟩
  | _ => if isWordCharacter c then some ⟨.word [c], found⟩ else none

/-- Read one character. -/
def step (scanner : Scanner) (c : Char) : Option Scanner :=
  match scanner.mode with
  | .between => begin scanner.found c
  | .word letters =>
      if isWordCharacter c then some { scanner with mode := .word (c :: letters) }
      else begin (.word letters.reverse :: scanner.found) c
  | .quoted pieces =>
      if c = '"' then some ⟨.between, stringToken pieces :: scanner.found⟩
      else if c = '\\' then some { scanner with mode := .escape pieces }
      else if c.toNat < 0x20 then none
      else some { scanner with mode := .quoted (.plain c :: pieces) }
  | .escape pieces =>
      if c = 'u' then some { scanner with mode := .code pieces 0 4 }
      else
        (simpleEscape? c).map fun meant =>
          { scanner with mode := .quoted (.plain meant :: pieces) }
  | .code pieces value missing =>
      (Hex.value? c).map fun digit =>
        let next := value * 16 + digit
        if missing ≤ 1 then { scanner with mode := .quoted (.unit next :: pieces) }
        else { scanner with mode := .code pieces next (missing - 1) }

/-- The tokens at the end of the text, unless it ends inside a string. -/
def finish? (scanner : Scanner) : Option (List Token) :=
  match scanner.mode with
  | .between => some scanner.found.reverse
  | .word letters => some (.word letters.reverse :: scanner.found).reverse
  | _ => none

end Scanner

/-- The tokens of a text. -/
def Token.scan? (text : List Char) : Option (List Token) :=
  (text.foldlM Scanner.step Scanner.start).bind Scanner.finish?

end RawJson

end NodeDescriptor
