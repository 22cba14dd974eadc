/-!
# White space

The characters with the White_Space property, and trimming: `trimmed` drops them from both
ends of a text and leaves the inside alone.
-/

set_option autoImplicit false

namespace NodeDescriptor.Text

/-- Whether a character has the White_Space property. -/
def isBlank (c : Char) : Bool :=
  let code := c.toNat
  (0x0009 ≤ code && code ≤ 0x000D) || code == 0x0020 || code == 0x0085 || code == 0x00A0 ||
    code == 0x1680 || (0x2000 ≤ code && code ≤ 0x200A) || code == 0x2028 || code == 0x2029 ||
    code == 0x202F || code == 0x205F || code == 0x3000

/-- The text without the white space at its front. -/
def trimmedFront (text : List Char) : List Char := text.dropWhile isBlank

/-- The text without the white space at either end. -/
def trimmed (text : List Char) : List Char :=
  (trimmedFront (trimmedFront text).reverse).reverse

end NodeDescriptor.Text
