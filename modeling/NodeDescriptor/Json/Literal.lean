import NodeDescriptor.Decimal.Text
import NodeDescriptor.Json.Basic

/-!
# JSON number literals

The grammar of numbers in JSON and the number that a literal stands for. An integer literal
that fits in 64 bits, signed or unsigned, is an integer; every other one is a binary64 number,
and a literal that is too large for one is no number. `-0` is the negative zero.
-/

set_option autoImplicit false

namespace NodeDescriptor

namespace DecimalLiteral

/-- The digits of an exponent with its optional sign. -/
def exponent? (letters : List Char) : Option Int :=
  let (negative, digits) :=
    match letters with
    | '-' :: rest => (true, rest)
    | '+' :: rest => (false, rest)
    | _ => (false, letters)
  if digits.isEmpty || !digits.all Digits.isDigit then none
  else
    let value : Int := Digits.toNat digits
    some (if negative then -value else value)

/-- What may follow the digits before and after the point: nothing, or `e` and an exponent. -/
def exponentPart? (letters : List Char) : Option (Option Int) :=
  match letters with
  | [] => some none
  | c :: rest => if c = 'e' ∨ c = 'E' then (exponent? rest).map some else none

/-- Read a JSON number: an optional minus sign, digits without a needless leading zero, and
optionally a fraction and an exponent. -/
def ofJson? (letters : List Char) : Option DecimalLiteral :=
  let (negative, unsigned) :=
    match letters with
    | '-' :: rest => (true, rest)
    | _ => (false, letters)
  let (whole, rest) := unsigned.span Digits.isDigit
  if whole.isEmpty || (whole.head? == some '0' && 1 < whole.length) then none
  else
    match rest with
    | '.' :: afterPoint =>
        let (fraction, tail) := afterPoint.span Digits.isDigit
        if fraction.isEmpty then none
        else (exponentPart? tail).map fun exponent => ⟨negative, whole, some fraction, exponent⟩
    | _ => (exponentPart? rest).map fun exponent => ⟨negative, whole, none, exponent⟩

end DecimalLiteral

namespace Number

/-- The number that a literal stands for. -/
def ofLiteral? (literal : DecimalLiteral) : Option Number :=
  let float := literal.toBinary64?.map Number.float
  match literal.toInt? with
  | none => float
  | some value =>
      if literal.negative then
        if -9223372036854775808 ≤ value ∧ value < 0 then some (.integer value) else float
      else if value < 18446744073709551616 then some (.integer value)
      else float

end Number

end NodeDescriptor
