/-!
# Hexadecimal digits

Reading takes digits of either case; writing produces the case that is asked for.
-/

set_option autoImplicit false

namespace NodeDescriptor.Hex

/-- The value of a hexadecimal digit. -/
def value? (c : Char) : Option Nat :=
  if '0' ≤ c ∧ c ≤ '9' then some (c.toNat - '0'.toNat)
  else if 'a' ≤ c ∧ c ≤ 'f' then some (c.toNat - 'a'.toNat + 10)
  else if 'A' ≤ c ∧ c ≤ 'F' then some (c.toNat - 'A'.toNat + 10)
  else none

/-- The digit for a value below sixteen, with letters counted from `letter`. -/
def digitFrom (letter : Char) (value : Nat) : Char :=
  if value < 10 then Char.ofNat ('0'.toNat + value) else Char.ofNat (letter.toNat + value - 10)

/-- The digit for a value below sixteen, in lower case. -/
def lowerDigit (value : Nat) : Char := digitFrom 'a' value

/-- The digit for a value below sixteen, in upper case. -/
def upperDigit (value : Nat) : Char := digitFrom 'A' value

/-- A byte as two digits in upper case. -/
def ofByte (byte : UInt8) : List Char :=
  [upperDigit (byte.toNat / 16), upperDigit (byte.toNat % 16)]

/-- The byte with these two digits. -/
def byte (high low : Nat) : UInt8 := UInt8.ofNat (high * 16 + low)

theorem value?_upperDigit : ∀ value < 16, value? (upperDigit value) = some value := by decide

end NodeDescriptor.Hex
