import NodeDescriptor.Icon.Color

/-!
# Icons

An icon is the path of an image and three colors. A descriptor may leave colors out; those are
then taken from the colors that icons have by default.
-/

set_option autoImplicit false

namespace NodeDescriptor

/-- The three colors of an icon. -/
structure IconColors where
  color : Color
  background : Color
  border : Color
  deriving DecidableEq

/-- An image with three colors. -/
structure Icon where
  path : String
  colors : IconColors
  deriving DecidableEq

namespace IconColors

/-- White on a transparent ground. -/
def standard : IconColors := ⟨.white, .transparent, .transparent⟩

instance : Inhabited IconColors := ⟨standard⟩

def members (colors : IconColors) : List (String × Json) :=
  [("color", colors.color.toJson), ("backgroundColor", colors.background.toJson),
    ("borderColor", colors.border.toJson)]

def toJson (colors : IconColors) : Json := .object colors.members

def loadColor? (value : Json) : Option Color := (Color.ofJson value).toOption

def ofJson? (value : Json) : Option IconColors := do
  let members ← Record.open? ["color", "backgroundColor", "borderColor"] value
  return {
    color := ← Record.withDefault? members "color" standard.color loadColor?
    background := ← Record.withDefault? members "backgroundColor" standard.background loadColor?
    border := ← Record.withDefault? members "borderColor" standard.border loadColor? }

end IconColors

namespace Icon

def toJson (icon : Icon) : Json := .object (("path", .string icon.path) :: icon.colors.members)

def fields : List String := ["path", "color", "backgroundColor", "borderColor"]

/-- Load an icon, of which nothing may be left out. -/
def ofJson? (value : Json) : Option Icon := do
  let members ← Record.open? fields value
  let color := fun name => Record.required? members name IconColors.loadColor?
  return {
    path := ← Record.required? members "path" Json.asString?
    colors := ⟨← color "color", ← color "backgroundColor", ← color "borderColor"⟩ }

/-- The parts of an icon that are looked at in a text. -/
def layout : Layout := .ofFields fields []

end Icon

end NodeDescriptor
