import NodeDescriptor.Distinct
import NodeDescriptor.Entry.Basic

/-!
# Excluded artifacts

The list of artifacts that are not made for a node. Every item that names no artifact is
reported on its own; the others are added to those that the node already excludes, each once.
-/

set_option autoImplicit false

namespace NodeDescriptor.ExcludeList

/-- The finding about an item at a position, when it names no artifact. -/
def itemFinding? (item : Json × Nat) : Option Finding :=
  if (Record.keyword? item.1 : Option Artifact).isSome then none
  else some ⟨FieldPath.root.index item.2, .illegalExclude item.1.plainText⟩

/-- Read a list of artifacts. -/
def read : Json → Checked (Option (List Artifact))
  | .array items => ⟨some (items.filterMap Record.keyword?), items.zipIdx.filterMap itemFinding?⟩
  | _ => .refused (.wrongShape "a list of exclude values")

def check (entry : Entry) (node : Node) : Checked Node :=
  (Member.optional entry.members "exclude" read).map fun artifacts =>
    { node with exclude := Distinct.addAll node.exclude (artifacts.getD []) }

end NodeDescriptor.ExcludeList
