import NodeDescriptor.Decimal.Shortest

/-!
# Decimal text of binary64 numbers

Writing: the digits of `Binary64.shortest`, positional while the leading digit stands between
`10^-5` and `10^15`, always with a fraction (`1.0`, `0.00001`); otherwise one digit, the other
digits after a point, and an exponent with an explicit sign (`1e+16`, `1.5e-7`). Zero is `0.0`
or `-0.0`.

Reading: a literal is split into its digits before and after the point and its exponent. Its
significand is made of the leading digits as long as they fit in 64 bits; it is rounded to
binary64 and then scaled by a power of ten, itself rounded, so two roundings take place. A
result out of range is refused; one too small becomes zero.
-/

set_option autoImplicit false

namespace NodeDescriptor

/-! ## Digits -/

namespace Digits

/-- The value of a decimal digit. -/
def value? (c : Char) : Option Nat :=
  if '0' ≤ c ∧ c ≤ '9' then some (c.toNat - '0'.toNat) else none

/-- Whether a character is one of the ten decimal digits. -/
def isDigit (c : Char) : Bool := (value? c).isSome

/-- The number that a run of decimal digits stands for. -/
def toNat (digits : List Char) : Nat :=
  digits.foldl (fun total c => total * 10 + (value? c).getD 0) 0

/-- The decimal digits of a number, without leading zeros. -/
def ofNat (value : Nat) : List Char := Nat.toDigits 10 value

end Digits

/-! ## Writing -/

namespace Binary64

/-- The magnitude's text, given its significant digits and the power of ten of the first. -/
def layout (digits : List Char) (leading : Int) : List Char :=
  if -5 ≤ leading ∧ leading < 0 then
    ['0', '.'] ++ List.replicate (-leading - 1).toNat '0' ++ digits
  else if 0 ≤ leading ∧ leading < 16 then
    let places := leading.toNat + 1
    let whole := digits.take places ++ List.replicate (places - digits.length) '0'
    let fraction := digits.drop places
    whole ++ ['.'] ++ (if fraction.isEmpty then ['0'] else fraction)
  else
    let first := digits.take 1
    let rest := digits.drop 1
    let sign := if leading < 0 then '-' else '+'
    first ++ (if rest.isEmpty then [] else '.' :: rest) ++ ['e', sign] ++
      Digits.ofNat leading.natAbs

/-- Significant digits without trailing zeros, and the power of ten of the first one. -/
def normalized (decimal : DecimalNumber) : List Char × Int :=
  let written := Digits.ofNat decimal.digits
  let significant := (written.reverse.dropWhile (· == '0')).reverse
  (significant, decimal.exponent + written.length - 1)

def text (x : Binary64) : String :=
  let magnitude :=
    if x.isZero then ['0', '.', '0']
    else
      let (digits, leading) := normalized x.shortest
      layout digits leading
  String.ofList (if x.negative then '-' :: magnitude else magnitude)

/-! ## Reading -/

/-- The greatest power of ten that is a number of the format. -/
def greatestPower : Nat := 308

/-- `10^exponent`, rounded to binary64, when it is in range. -/
def powerOfTen? (exponent : Nat) : Option Binary64 :=
  if exponent ≤ greatestPower then ofNat? (powerOfTen exponent) else none

/-- Divide by `divisor` up to `times` times, stopping at zero. -/
def divideRepeatedly? (divisor : Binary64) : Nat → Binary64 → Option Binary64
  | 0, x => some x
  | times + 1, x =>
      if x.isZero then some x else (x.div? divisor).bind (divideRepeatedly? divisor times)

/-- Divide by `10^places`, by the greatest power as long as more places remain. -/
def scaleDown? (x : Binary64) (places : Nat) : Option Binary64 := do
  let rounds := (places - 1) / greatestPower
  let reduced ← divideRepeatedly? (← powerOfTen? greatestPower) rounds x
  reduced.div? (← powerOfTen? (places - rounds * greatestPower))

/-- Multiply by `10^places`; only zero can be scaled by more than `10^308`. -/
def scaleUp? (x : Binary64) (places : Nat) : Option Binary64 :=
  if places ≤ greatestPower then (powerOfTen? places).bind x.mul?
  else if x.isZero then some x
  else none

/-- Multiply by a power of ten of either sign. -/
def scale? (x : Binary64) (exponent : Int) : Option Binary64 :=
  if 0 ≤ exponent then x.scaleUp? exponent.toNat else x.scaleDown? (-exponent).toNat

end Binary64

/-! ## Literals -/

/-- The parts of a decimal literal. -/
structure DecimalLiteral where
  negative : Bool
  /-- The digits before the point. -/
  whole : List Char
  /-- The digits after the point, when there is one. -/
  fraction : Option (List Char)
  exponent : Option Int

namespace DecimalLiteral

/-- The greatest significand that is kept exactly, which is `2^64 - 1`. -/
def significandLimit : Nat := 18446744073709551615

/-- Append digits to `significand` while the result stays within the limit; also gives how
many digits were left over. -/
def keepDigits (significand : Nat) : List Char → Nat × Nat
  | [] => (significand, 0)
  | c :: rest =>
      let next := significand * 10 + (Digits.value? c).getD 0
      if next ≤ significandLimit then keepDigits next rest
      else (significand, rest.length + 1)

/-- The binary64 number that the literal is read as, unless it is out of range. -/
def toBinary64? (literal : DecimalLiteral) : Option Binary64 :=
  let fraction := literal.fraction.getD []
  let (wholePart, wholeLeft) := keepDigits 0 literal.whole
  let (significand, fractionLeft) := keepDigits wholePart fraction
  let exponent : Int :=
    (wholeLeft : Int) - ((fraction.length - fractionLeft : Nat) : Int) + literal.exponent.getD 0
  ((Binary64.ofNat? significand).bind (·.scale? exponent)).map (·.withSign literal.negative)

/-- The integer that the literal spells, when it has neither a fraction nor an exponent. -/
def toInt? (literal : DecimalLiteral) : Option Int :=
  match literal.fraction, literal.exponent with
  | none, none =>
      let value : Int := Digits.toNat literal.whole
      some (if literal.negative then -value else value)
  | _, _ => none

end DecimalLiteral

end NodeDescriptor
