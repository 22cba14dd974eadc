import NodeDescriptor.Diagnostic.Checked
import NodeDescriptor.Node.Basic
import NodeDescriptor.Options.Basic

/-!
# Entries

An entry is one named object of a descriptor document, as it is written. The checks of an entry
each look at some of its members and fill in their part of a node.
-/

set_option autoImplicit false

namespace NodeDescriptor

/-- One named object of a document. -/
structure Entry where
  name : String
  members : List (String × Json)

namespace Entry

/-- Whether a section of the entry has a member of this name, legal or not. -/
def declares (entry : Entry) (part : Section) (name : String) : Bool :=
  match (entry.members.lookup (Keyword.word part)).bind Json.asObject? with
  | none => false
  | some attributes => (attributes.lookup name).isSome

end Entry

end NodeDescriptor
