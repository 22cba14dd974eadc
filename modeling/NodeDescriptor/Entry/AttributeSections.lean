import NodeDescriptor.Attribute.Check
import NodeDescriptor.Entry.Basic

/-!
# Attributes of an entry

The three sections of an entry are checked one after another, attribute by attribute. An
attribute with any problem is left out of the node; comments are skipped.
-/

set_option autoImplicit false

namespace NodeDescriptor.AttributeSections

/-- The outcome for one member of a section. -/
def readMember (member : String × Json) : Checked (Option Attribute) :=
  (Attribute.check member.1 member.2).inside (.entry member.1)

/-- Read the attributes of a section. -/
def readSection : Json → Checked (Option (List Attribute))
  | .object members =>
      let outcomes := (Member.withoutComments members).map readMember
      ⟨some (outcomes.filterMap Checked.value), outcomes.flatMap Checked.findings⟩
  | _ => .refused (.wrongShape "an object")

/-- The attributes of a section of an entry. -/
def ofEntry (entry : Entry) (part : Section) : Checked (Option (List Attribute)) :=
  Member.optional entry.members (Keyword.word part) readSection

/-- Check one section of an entry. -/
def checkSection (entry : Entry) (node : Node) (part : Section) : Checked Node :=
  (ofEntry entry part).map fun attributes =>
    (attributes.getD []).foldl (fun node attr => node.withAttribute part attr) node

def check (entry : Entry) (node : Node) : Checked Node :=
  (Keyword.all (α := Section)).foldl
    (fun checked part =>
      let next := checkSection entry checked.value part
      ⟨next.value, checked.findings ++ next.findings⟩)
    (.clean node)

end NodeDescriptor.AttributeSections
