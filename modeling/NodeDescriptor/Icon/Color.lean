import NodeDescriptor.Json.Record
import NodeDescriptor.Json.Writer
import NodeDescriptor.Text.Hex

/-!
# Colors

A color has a red, a green, a blue and an alpha channel of eight bits each. It is written as
`#AABBGGRR`, with the channels in reverse order and in hexadecimal digits, or as the list
`[r, g, b, a]` of integers. Reading takes both spellings and explains what is wrong with any
other value; the digits may be in either case.
-/

set_option autoImplicit false

namespace NodeDescriptor

/-- A color with transparency. -/
structure Color where
  red : UInt8
  green : UInt8
  blue : UInt8
  alpha : UInt8
  deriving DecidableEq

/-- Why a value is no color. -/
inductive ColorProblem where
  | noHash (text : String)
  | notEightDigits (text : String)
  | notFourItems
  | badComponent (item : Json)
  | noSpelling
  deriving DecidableEq

def ColorProblem.message : ColorProblem → String
  | .noHash text => "hex color '" ++ text ++ "' must start with '#'"
  | .notEightDigits text =>
      "hex color '" ++ text ++ "' must be '#' followed by exactly 8 hex digits"
  | .notFourItems => "color list must hold exactly 4 integers"
  | .badComponent item => "color component " ++ item.compact ++ " is not an integer in 0..=255"
  | .noSpelling => "color must be a '#AABBGGRR' string or an [r, g, b, a] list"

namespace Color

/-- Opaque white. -/
def white : Color := ⟨255, 255, 255, 255⟩

/-- Entirely transparent. -/
def transparent : Color := ⟨0, 0, 0, 0⟩

/-- The color as `#` and eight digits. -/
def hex (color : Color) : String :=
  String.ofList ('#' :: ([color.alpha, color.blue, color.green, color.red].flatMap Hex.ofByte))

/-- The color with these eight digit values. -/
def ofDigits? : List Nat → Option Color
  | [a, a', b, b', g, g', r, r'] =>
      some ⟨Hex.byte r r', Hex.byte g g', Hex.byte b b', Hex.byte a a'⟩
  | _ => none

/-- Read `#` and eight digits. -/
def ofHex (text : String) : Except ColorProblem Color :=
  match text.toList with
  | '#' :: digits =>
      match (digits.mapM Hex.value?).bind ofDigits? with
      | some color => .ok color
      | none => .error (.notEightDigits text)
  | _ => .error (.noHash text)

/-- Read one channel. -/
def channel (item : Json) : Except ColorProblem UInt8 :=
  match item.asNat?.filter (· < 256) with
  | some value => .ok (UInt8.ofNat value)
  | none => .error (.badComponent item)

/-- Read a list of four channels. -/
def ofComponents : Json → Except ColorProblem Color
  | .array [red, green, blue, alpha] =>
      return ⟨← channel red, ← channel green, ← channel blue, ← channel alpha⟩
  | _ => .error .notFourItems

/-- Read a color in either spelling. -/
def ofJson : Json → Except ColorProblem Color
  | .string text => ofHex text
  | .array items => ofComponents (.array items)
  | _ => .error .noSpelling

def toJson (color : Color) : Json := .string color.hex

end Color

end NodeDescriptor
