import NodeDescriptor.Decimal.Power

/-!
# Finite binary64 numbers

A finite IEEE 754 binary64 number is a sign and a magnitude. The magnitude is the number's
position on the ladder of non-negative values, smallest first, so every position below the
first infinite one is a number and no further invariant is needed. A position `p` with block
`p / 2^52` and offset `p % 2^52` stands for `offset · 2^-1074` in block 0 and for
`(2^52 + offset) · 2^(block - 1075)` above.

All rounding goes through `Binary64.ofRatio?`, which rounds an exact quotient to the nearest
number, a tie to the even one, and answers `none` when the result is out of range. No machine
floating point takes part, so the functions here compute in proofs as they do in a program.
-/

set_option autoImplicit false

namespace NodeDescriptor

/-- The number of magnitudes in a block, which is `2^52`. -/
def blockSize : Nat := 4503599627370496

/-- A finite binary64 number; both zeros are represented. -/
structure Binary64 where
  negative : Bool
  /-- The position among the non-negative numbers. -/
  position : Fin (2047 * blockSize)
  deriving DecidableEq

namespace Binary64

/-- The integer factor of the magnitude. -/
def significand (x : Binary64) : Nat :=
  let offset := x.position.val % blockSize
  if x.position.val / blockSize = 0 then offset else blockSize + offset

/-- The power of two that `significand` is scaled by. -/
def exponent (x : Binary64) : Int :=
  (max 1 (x.position.val / blockSize) : Nat) - 1075

/-- Zero, of either sign. -/
def zero (negative : Bool) : Binary64 := ⟨negative, ⟨0, by decide⟩⟩

/-- Whether this is one of the two zeros. -/
def isZero (x : Binary64) : Bool := x.position.val == 0

/-- The magnitude as a fraction with a positive denominator. -/
def magnitude (x : Binary64) : Nat × Nat :=
  if 0 ≤ x.exponent then (x.significand * powerOfTwo x.exponent.toNat, 1)
  else (x.significand, powerOfTwo (-x.exponent).toNat)

/-- Round `numerator / denominator` to the nearest integer, a tie to the even one. -/
def roundQuotient (numerator denominator : Nat) : Nat :=
  let whole := numerator / denominator
  let rest := numerator % denominator
  if denominator < 2 * rest then whole + 1
  else if 2 * rest = denominator then whole + whole % 2
  else whole

/-- The greatest `k` with `2^k ≤ numerator / denominator`, for a positive fraction. -/
def floorLog2 (numerator denominator : Nat) : Int :=
  let guess : Int := (Nat.log2 numerator : Int) - Nat.log2 denominator
  let reached : Bool :=
    if 0 ≤ guess then denominator * powerOfTwo guess.toNat ≤ numerator
    else denominator ≤ numerator * powerOfTwo (-guess).toNat
  if reached then guess else guess - 1

/-- The number nearest to `numerator / denominator`, a tie going to the even significand;
`none` when the rounded value is too large for the format. -/
def ofRatio? (negative : Bool) (numerator denominator : Nat) : Option Binary64 :=
  if numerator = 0 then some (zero negative)
  else
    let unit : Int := max (-1074) (floorLog2 numerator denominator - 52)
    let significand :=
      if 0 ≤ unit then roundQuotient numerator (denominator * powerOfTwo unit.toNat)
      else roundQuotient (numerator * powerOfTwo (-unit).toNat) denominator
    let position := (unit + 1074).toNat * blockSize + significand
    if inRange : position < 2047 * blockSize then some ⟨negative, ⟨position, inRange⟩⟩ else none

/-- The number nearest to a natural number. -/
def ofNat? (value : Nat) : Option Binary64 := ofRatio? false value 1

/-- The product, rounded to nearest. -/
def mul? (x y : Binary64) : Option Binary64 :=
  ofRatio? (x.negative != y.negative) (x.magnitude.1 * y.magnitude.1)
    (x.magnitude.2 * y.magnitude.2)

/-- The quotient by a number other than zero, rounded to nearest. -/
def div? (x y : Binary64) : Option Binary64 :=
  ofRatio? (x.negative != y.negative) (x.magnitude.1 * y.magnitude.2)
    (x.magnitude.2 * y.magnitude.1)

/-- The same magnitude with the given sign. -/
def withSign (x : Binary64) (negative : Bool) : Binary64 := { x with negative }

end Binary64

end NodeDescriptor
