/-!
# Powers

The powers of two and of ten that binary and decimal numbers are scaled by.
-/

set_option autoImplicit false

namespace NodeDescriptor

/-- Two to the power of `exponent`. -/
def powerOfTwo (exponent : Nat) : Nat := Nat.pow 2 exponent

/-- Ten to the power of `exponent`. -/
def powerOfTen (exponent : Nat) : Nat := Nat.pow 10 exponent

end NodeDescriptor
