import NodeDescriptor.Entry.Basic

/-!
# Shorthand forms

The icon, the tags, the tokens and the categories of a node may be written in short forms: a
bare path, a comma-separated text, a list of names. All forms are read into the same fields of
the node. Tags, tokens and categories that cannot be read leave the node as it was; an icon
that cannot be read leaves it without one.
-/

set_option autoImplicit false

namespace NodeDescriptor

/-- A comma-separated text or a list of strings, as a list. -/
def Json.commaList? : Json → Option (List String)
  | .string text => some (Text.commaParts text)
  | .array items => items.mapM Json.asString?
  | _ => none

/-- One token, a list of tokens, or an object from tokens to names, as a dictionary. -/
def Json.tokenNames? : Json → Option (Dict String)
  | .object members => (Json.stringMembers? members).map Dict.ofList
  | value => value.strings?.map fun tokens => Dict.ofList (tokens.map fun token => (token, token))

/-- Categories, and what they mean if the form that was read can say so. -/
structure CategoryList where
  names : List String
  definitions : Option (Dict String)
  deriving DecidableEq

/-- What was read of the fields with short forms; the icon is read as nothing when it is there
but not legal. -/
structure Shorthand where
  icon : Checked (Option (Option Icon))
  tags : Checked (Option (List String))
  tokens : Checked (Option (Dict String))
  categories : Checked (Option CategoryList)

namespace Shorthand

/-! ## Reading -/

/-- Read a color. -/
def checkColor (value : Json) : Checked (Option Color) :=
  match Color.ofJson value with
  | .ok color => .clean (some color)
  | .error problem => .refused (.wrongShape problem.message)

/-- Read an icon from the members of an object; colors that are left out or not legal are taken
from the defaults. -/
def checkIconMembers (defaults : IconColors) (members : List (String × Json)) :
    Checked (Option Icon) :=
  let path := Member.required members "path" Member.string
  let color := Member.optional members "color" checkColor
  let background := Member.optional members "backgroundColor" checkColor
  let border := Member.optional members "borderColor" checkColor
  let colors : IconColors :=
    ⟨color.value.getD defaults.color, background.value.getD defaults.background,
      border.value.getD defaults.border⟩
  ⟨path.value.map fun path => ⟨path, colors⟩,
    path.findings ++ color.findings ++ background.findings ++ border.findings⟩

/-- Read an icon: its path alone, or an object. -/
def checkIcon (defaults : IconColors) : Json → Checked (Option Icon)
  | .string path => .clean (some ⟨path, defaults⟩)
  | .object members => checkIconMembers defaults members
  | _ => .refused (.wrongShape "an icon path or an icon object")

/-- The member of a category object, when its definition is a string. -/
def definition? (member : String × Json) : Option (String × String) :=
  member.2.asString?.map fun text => (member.1, text)

/-- The finding about a member of a category object, when its definition is no string. -/
def definitionFinding? (member : String × Json) : Option Finding :=
  if member.2.asString?.isSome then none
  else some ⟨.entry member.1, .wrongShape "a string"⟩

/-- Read categories: a comma-separated text, a list, or an object from names to definitions. -/
def checkCategories : Json → Checked (Option CategoryList)
  | .object members =>
      ⟨some ⟨Entries.keys members, some (Dict.ofList (members.filterMap definition?))⟩,
        members.filterMap definitionFinding?⟩
  | value =>
      Member.form (fun value => value.commaList?.map fun names => ⟨names, none⟩)
        "a string, a list of strings or a mapping of name to description" value

/-- Read the fields of an entry. -/
def ofEntry (options : Options) (entry : Entry) : Shorthand :=
  let members := entry.members
  { icon := Member.optional members "icon" fun value =>
      (checkIcon options.iconColors value).map some
    tags := Member.optional members "tags"
      (Member.form Json.commaList? "a comma-separated string or a list of strings")
    tokens := Member.optional members "tokens"
      (Member.form Json.tokenNames? "a string, a list of strings or a mapping of token to string")
    categories := Member.optional members "categories" checkCategories }

def findings (fields : Shorthand) : List Finding :=
  fields.icon.findings ++ fields.tags.findings ++ fields.tokens.findings ++
    fields.categories.findings

/-! ## Writing -/

/-- Fill in what was read. -/
def fill (fields : Shorthand) (node : Node) : Node :=
  { node with
    icon := fields.icon.value.getD node.icon
    tags := fields.tags.value.getD node.tags
    tokens := fields.tokens.value.getD node.tokens
    categories := (fields.categories.value.map CategoryList.names).getD node.categories
    categoryDefinitions :=
      (fields.categories.value.bind CategoryList.definitions).getD node.categoryDefinitions }

/-- Check the fields of an entry that have short forms. -/
def check (options : Options) (entry : Entry) (node : Node) : Checked Node :=
  let fields := ofEntry options entry
  ⟨fields.fill node, fields.findings⟩

end Shorthand

end NodeDescriptor
