import NodeDescriptor.Proofs.Document
import NodeDescriptor.Proofs.Entry.Names

/-!
# Names in the tests of a model

Every name that a test of a node gives a value to is the name of an attribute of that node, unless
it marks a comment. A name that marks a comment is never that of an attribute, and under a section
word and a colon it is not refused either.
-/

set_option autoImplicit false

namespace NodeDescriptor.Pipeline

/-- Exactly the names of comments are left unresolved in the tests of a node. -/
theorem test_name_resolved_iff {options : Options} {document : Json} {key : String} {node : Node}
    (entered : (key, node) ∈
      (Pipeline.check { standard with options } document).model.nodes.entries)
    {test : TestCase} (listed : test ∈ node.tests) {kind : TestValues} {name : String}
    (named : name ∈ (test.values kind).keys) :
    name ∈ (node.attributes kind.part).keys ↔ isCommentKey name = false := by
  obtain ⟨value, made⟩ := made_of_mem_check entered
  obtain ⟨members, -, legal, rfl⟩ := value_checkEntry_eq_some_iff.mp made
  have whole : Entry.Legal options members :=
    Stage.legal_all_iff.mp fun stage => legal stage (Keyword.complete stage)
  exact Stage.test_name_iff whole listed named

/-- A document whose only test gives a value to a comment. -/
def commentedTest : Json :=
  .object [("N", .object [
    ("description", .string "d"), ("uiName", .string "Node"), ("categories", .string "c"),
    ("metadata", .object []), ("inputs", .object [("$x", .string "a comment")]),
    ("tests", .array [.object [("inputs:$x", .number (.integer 1))]])])]

/-- The test of that document, as it is kept. -/
def keptTest : TestCase :=
  { TestCase.empty with inputs := Dict.empty.insert "$x" (.number (.integer 1)) }

/-- The node of that document. -/
def keptNode : Node :=
  { Node.ofName "N" with
    description := ["d"], uiName := "Node", categories := ["c"], tests := [keptTest] }

private theorem keptNode_mem :
    ("N", keptNode) ∈ (standard.check commentedTest).model.nodes.entries := by
  decide +kernel

/-- The name of a comment is kept in a test and is the name of no attribute. -/
theorem comment_name_not_resolved :
    ("N", keptNode) ∈ (standard.check commentedTest).model.nodes.entries ∧
      keptTest ∈ keptNode.tests ∧ "$x" ∈ (keptTest.values .inputs).keys ∧
      "$x" ∉ (keptNode.attributes .inputs).keys := by
  have listed : keptTest ∈ keptNode.tests := List.mem_singleton_self _
  have named : "$x" ∈ (keptTest.values .inputs).keys := List.mem_singleton_self _
  refine ⟨keptNode_mem, listed, named, fun resolved => ?_⟩
  have uncommented : isCommentKey "$x" = false :=
    (@test_name_resolved_iff .standard commentedTest "N" keptNode keptNode_mem keptTest listed
      .inputs "$x" named).mp resolved
  exact absurd uncommented (by decide)

end NodeDescriptor.Pipeline
