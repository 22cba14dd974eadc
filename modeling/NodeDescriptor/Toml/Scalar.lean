import NodeDescriptor.Decimal.Text
import NodeDescriptor.Text.Hex
import NodeDescriptor.Text.Split
import NodeDescriptor.Toml.Basic

/-!
# TOML scalars

Numbers, dates and words are recognized from the whole run of characters they are written
with. Underscores may stand between digits. Integers have 64 bits and a sign; decimal ones have
no needless leading zero. A floating-point number that is too large is refused, except that a
negative one becomes an infinity. Dates are checked against the calendar.
-/

set_option autoImplicit false

namespace NodeDescriptor.Toml

/-! ## Integers -/

/-- Whether a character is a digit in some base. -/
def isDigitOf (base : Nat) (c : Char) : Bool :=
  match Hex.value? c with
  | some value => value < base
  | none => false

/-- The digits of a run in which single underscores may stand between digits. -/
def ungrouped? (base : Nat) (letters : List Char) : Option (List Char) :=
  let groups := Text.splitAll '_' letters
  if groups.all fun group => !group.isEmpty && group.all (isDigitOf base) then some groups.flatten
  else none

/-- The number that digits stand for in some base. -/
def digitsValue (base : Nat) (digits : List Char) : Nat :=
  digits.foldl (fun total c => total * base + (Hex.value? c).getD 0) 0

/-- Split off an optional sign; whether the sign is a minus, and the rest. -/
def signed (letters : List Char) : Bool × List Char :=
  match letters with
  | '-' :: rest => (true, rest)
  | '+' :: rest => (false, rest)
  | _ => (false, letters)

/-- The digits of a decimal run without a needless leading zero. -/
def decimalDigits? (letters : List Char) : Option (List Char) :=
  (ungrouped? 10 letters).filter fun digits =>
    !(letters.head? == some '0' && 1 < letters.length) && !digits.isEmpty

/-- The magnitude that digits in some base are written for, with a sign. -/
def unsignedInteger? (letters : List Char) : Option Int :=
  match letters with
  | '0' :: 'x' :: digits => (ungrouped? 16 digits).map fun digits => digitsValue 16 digits
  | '0' :: 'o' :: digits => (ungrouped? 8 digits).map fun digits => digitsValue 8 digits
  | '0' :: 'b' :: digits => (ungrouped? 2 digits).map fun digits => digitsValue 2 digits
  | _ =>
      let (negative, rest) := signed letters
      (decimalDigits? rest).map fun digits =>
        let value : Int := digitsValue 10 digits
        if negative then -value else value

/-- Read an integer of 64 bits with a sign. -/
def integer? (letters : List Char) : Option Int :=
  (unsignedInteger? letters).filter fun value =>
    -9223372036854775808 ≤ value && value < 9223372036854775808

/-! ## Floating-point numbers -/

/-- The binary64 number nearest to `digits * 10^exponent`, unless it is too large. -/
def nearest? (negative : Bool) (digits : List Char) (exponent : Int) : Option Binary64 :=
  let value := Digits.toNat digits
  let leading : Int := (Digits.ofNat value).length + exponent
  if value = 0 ∨ leading < -400 then some (.zero negative)
  else if 400 < leading then none
  else if 0 ≤ exponent then Binary64.ofRatio? negative (value * powerOfTen exponent.toNat) 1
  else Binary64.ofRatio? negative value (powerOfTen (-exponent).toNat)

/-- Read an exponent with its optional sign. -/
def exponent? (letters : List Char) : Option Int :=
  let (negative, rest) := signed letters
  (ungrouped? 10 rest).map fun digits =>
    let value : Int := Digits.toNat digits
    if negative then -value else value

/-- Split a literal before the letter of its exponent, if it has one. -/
def splitExponent (letters : List Char) : List Char × Option (List Char) :=
  match letters.span fun c => c != 'e' && c != 'E' with
  | (mantissa, []) => (mantissa, none)
  | (mantissa, _ :: exponent) => (mantissa, some exponent)

/-- Read the digits, with their fraction and exponent, of a number that has at least one of
these two. -/
def floatParts? (letters : List Char) : Option (List Char × Int) := do
  let (mantissa, exponentLetters) := splitExponent letters
  let exponent ← match exponentLetters with
    | none => some 0
    | some exponent => exponent? exponent
  match Text.splitFirst? '.' mantissa with
  | some (whole, fraction) =>
      let fraction ← ungrouped? 10 fraction
      some ((← decimalDigits? whole) ++ fraction, exponent - fraction.length)
  | none => if exponentLetters.isNone then none else some (← decimalDigits? mantissa, exponent)

/-- Read a floating-point number. -/
def float? (letters : List Char) : Option Toml :=
  let (negative, rest) := signed letters
  if rest = ['i', 'n', 'f'] ∨ rest = ['n', 'a', 'n'] then some (.float none)
  else
    (floatParts? rest).bind fun (digits, exponent) =>
      match nearest? negative digits exponent with
      | some value => some (.float (some value))
      | none => if negative then some (.float none) else none

/-! ## Dates and times -/

/-- Split off a decimal number of exactly `count` digits. -/
def fixedNumber? (count : Nat) (letters : List Char) : Option (Nat × List Char) :=
  let digits := letters.take count
  if digits.length = count ∧ digits.all Digits.isDigit then
    some (Digits.toNat digits, letters.drop count)
  else none

/-- Split off one given character. -/
def character? (expected : Char) : List Char → Option (List Char)
  | c :: rest => if c = expected then some rest else none
  | [] => none

/-- The number of days of a month, which is zero if there is no such month. -/
def daysOfMonth (year month : Nat) : Nat :=
  let leap := year % 4 = 0 ∧ (year % 100 ≠ 0 ∨ year % 400 = 0)
  if month = 2 then if leap then 29 else 28
  else if month = 4 ∨ month = 6 ∨ month = 9 ∨ month = 11 then 30
  else if 1 ≤ month ∧ month ≤ 12 then 31
  else 0

/-- What follows a date. -/
def afterDate? (letters : List Char) : Option (List Char) := do
  let (year, rest) ← fixedNumber? 4 letters
  let (month, rest) ← fixedNumber? 2 (← character? '-' rest)
  let (day, rest) ← fixedNumber? 2 (← character? '-' rest)
  if 1 ≤ day ∧ day ≤ daysOfMonth year month then some rest else none

/-- What follows hours and minutes. -/
def afterMinutes? (letters : List Char) : Option (List Char) := do
  let (hour, rest) ← fixedNumber? 2 letters
  let (minute, rest) ← fixedNumber? 2 (← character? ':' rest)
  if hour < 24 ∧ minute < 60 then some rest else none

/-- What follows a time of day, with an optional fraction of a second. -/
def afterTime? (letters : List Char) : Option (List Char) := do
  let (second, rest) ← fixedNumber? 2 (← character? ':' (← afterMinutes? letters))
  if 60 < second then none
  else
    match rest with
    | '.' :: c :: rest => if Digits.isDigit c then some (rest.dropWhile Digits.isDigit) else none
    | _ => some rest

/-- Whether the letters are nothing or a distance from universal time. -/
def isOffset (letters : List Char) : Bool :=
  match letters with
  | [] | ['Z'] | ['z'] => true
  | sign :: rest => (sign == '+' || sign == '-') && (afterMinutes? rest).any List.isEmpty

/-- Whether the letters are a date, a time of day, or both with an optional offset. -/
def isDateTime (letters : List Char) : Bool :=
  match afterDate? letters with
  | some [] => true
  | some (separator :: rest) =>
      (separator == 'T' || separator == 't' || separator == ' ') && (afterTime? rest).any isOffset
  | none => (afterTime? letters).any List.isEmpty

/-! ## All scalars without quotation marks -/

/-- Whether a character can stand in such a scalar. -/
def isScalarCharacter (c : Char) : Bool :=
  c.isAlphanum || c == '_' || c == '+' || c == '-' || c == '.' || c == ':'

/-- Split off the letters of a scalar. A date and a time may have a single space between them. -/
def scalarLetters (text : List Char) : List Char × List Char :=
  let (letters, rest) := text.span isScalarCharacter
  match afterDate? letters, rest with
  | some [], ' ' :: c :: more =>
      if Digits.isDigit c then
        let (time, after) := (c :: more).span isScalarCharacter
        (letters ++ ' ' :: time, after)
      else (letters, rest)
  | _, _ => (letters, rest)

/-- The value that the letters of a scalar stand for. -/
def ofLetters? (letters : List Char) : Option Toml :=
  if letters = ['t', 'r', 'u', 'e'] then some (.bool true)
  else if letters = ['f', 'a', 'l', 's', 'e'] then some (.bool false)
  else if isDateTime letters then some (.dateTime (String.ofList letters))
  else ((integer? letters).map Toml.integer).or (float? letters)

end NodeDescriptor.Toml
