import NodeDescriptor.Proofs.FixedPoint.Stages
import NodeDescriptor.Proofs.Independence

/-!
# Nodes are normalized once

A node of a model, written as JSON and checked as the only entry of a document, is made again as it
is. Four things do not survive this: comments and the meanings of categories are written under
names that are not read, and so is the state that a test sets up; and a name of a comment that a
test gives a value to is skipped when it stands in a group. Without them nothing is found but
scopes whose flags cover one another, about which the node had been warned before.
-/

set_option autoImplicit false

namespace NodeDescriptor

variable {options : Options} {node : Node}

/-! ## Written nodes -/

/-- The parts of a node fit together, and everything it says is read from where it is written. -/
structure Node.Settled (node : Node) : Prop where
  formed : node.WellFormed
  uncommented : node.comment = none
  undefined : node.categoryDefinitions = .empty
  nothingSet : ∀ test ∈ node.tests, test.stateSet = .empty
  resolved : ∀ test ∈ node.tests, ∀ kind, ∀ name ∈ (test.values kind).keys,
    name ∈ (node.attributes kind.part).keys

theorem Node.WellFormed.uncommented_of_mem_keys (formed : node.WellFormed) {part : Section}
    {name : String} (listed : name ∈ (node.attributes part).keys) : isCommentKey name = false := by
  obtain ⟨written, inEntries, rfl⟩ := List.mem_map.mp listed
  exact (formed.attributes part written inEntries).2.1

namespace Entry

private theorem tests_toEntry (settled : node.Settled) :
    TestList.ofEntry node.toEntry = .clean (Record.someList node.tests) := by
  refine TestList.ofEntry_toEntry fun test listed => ?_
  refine TestList.readTest_toJson (settled.nothingSet test listed) (fun kind name named => ?_)
    fun kind name named => ?_
  · exact settled.formed.uncommented_of_mem_keys (settled.resolved test listed kind name named)
  · exact TestList.declared_toEntry (settled.resolved test listed kind name named)

/-- The node of the entry that a node is written as is that node. -/
theorem toNode_toEntry (settled : node.Settled) : toNode options node.toEntry = node := by
  have formed := settled.formed
  have exclude : Distinct.ofList node.exclude = node.exclude :=
    Distinct.ofList_of_nodup formed.exclude
  simp only [toNode, RequiredFields.ofEntry_toEntry formed, RequiredFields.ofNode,
    Shorthand.ofEntry_toEntry, Shorthand.ofNode, ExcludeList.ofEntry_toEntry,
    SchedulingList.ofEntry_toEntry formed, AttributeSections.attributes_toEntry formed,
    tests_toEntry settled, Checked.value_clean, Record.getD_someList, Record.getD_someDict, exclude,
    Option.getD_some, getD_map_some]
  have unsaid : node = { node with comment := none, categoryDefinitions := .empty } := by
    rw [← settled.uncommented, ← settled.undefined]
  exact unsaid.symm

private theorem findings_toEntry (settled : node.Settled) :
    findings options node.toEntry = SchedulingList.scopeFindings node.scheduling := by
  have formed := settled.formed
  simp only [findings, RequiredFields.ofEntry_toEntry formed, RequiredFields.ofNode,
    RequiredFields.findings, Shorthand.ofEntry_toEntry, Shorthand.ofNode, Shorthand.findings,
    ExcludeList.ofEntry_toEntry, SchedulingList.ofEntry_toEntry formed,
    AttributeSections.ofEntry_toEntry formed, tests_toEntry settled, Checked.findings_clean,
    List.append_nil, List.nil_append]

end Entry

/-! ## Documents -/

/-- The warnings about scopes of which a node has the plain flag and both others. -/
def Node.scopeWarnings (node : Node) : List Diagnostic :=
  ((Keyword.all (α := SchedulingScope)).filter fun scope =>
    .touches scope .readWrite ∈ node.scheduling ∧ .touches scope .read ∈ node.scheduling ∧
      .touches scope .write ∈ node.scheduling).map fun scope =>
    ⟨((FieldPath.entry node.name).key "scheduling").text,
      .redundantScheduling ("'" ++ Keyword.word scope ++ "' already covers '" ++
        Keyword.word scope ++ "-read' and '" ++ Keyword.word scope ++ "-write'")⟩

private theorem Node.scopeWarnings_eq :
    node.scopeWarnings = (SchedulingList.scopeFindings node.scheduling).map fun finding =>
      (finding.inside (.entry node.name)).diagnostic := by
  rw [scopeWarnings, SchedulingList.scopeFindings, List.map_map, List.map_filterMap,
    ← List.filterMap_eq_map, List.filterMap_filter]
  refine List.filterMap_congr fun scope _ => ?_
  have covers : (SchedulingFlag.ofScope scope).all (· ∈ node.scheduling) =
      decide (.touches scope .readWrite ∈ node.scheduling ∧
        .touches scope .read ∈ node.scheduling ∧ .touches scope .write ∈ node.scheduling) := by
    simp [SchedulingFlag.ofScope, SchedulingAccess.all]
  rw [SchedulingList.scopeFinding?_eq, covers]
  split
  · cases scope <;> rfl
  · rfl

private theorem Node.isError_of_mem_scopeWarnings {diagnostic : Diagnostic}
    (raised : diagnostic ∈ node.scopeWarnings) : diagnostic.isError = false := by
  obtain ⟨scope, -, rfl⟩ := List.mem_map.mp raised
  rfl

namespace Pipeline

private theorem checkEntry_toJson (settled : node.Settled) :
    Pipeline.checkEntry { standard with options } node.name node.toJson =
      ⟨some node, SchedulingList.scopeFindings node.scheduling⟩ := by
  have made : Entry.toNode options ⟨node.name, Record.members node.written⟩ = node :=
    Entry.toNode_toEntry settled
  have found : Entry.findings options ⟨node.name, Record.members node.written⟩ =
      SchedulingList.scopeFindings node.scheduling := Entry.findings_toEntry settled
  rw [Node.toJson_eq_written, checkEntry_standard, made, found,
    SchedulingList.any_isError_scopeFindings]
  rfl

/-- A node of a model is settled unless it says something that is not read from where it is
written. -/
theorem settled_of_mem_check {document : Json} (distinct : document.hasDistinctKeys = true)
    {key : String} (entered : (key, node) ∈
      (Pipeline.check { standard with options } document).model.nodes.entries)
    (uncommented : node.comment = none) (undefined : node.categoryDefinitions = .empty)
    (nothingSet : ∀ test ∈ node.tests, test.stateSet = .empty)
    (plainNames : ∀ test ∈ node.tests, ∀ kind, ∀ name ∈ (test.values kind).keys,
      isCommentKey name = false) : node.Settled := by
  obtain ⟨entries, members, rfl, listed, plainKey, legal, rfl⟩ := entry_of_mem_check entered
  have distinctMembers := (Json.hasDistinctKeys_object_iff.mp distinct).2 _ listed
  refine ⟨Entry.wellFormed_toNode plainKey distinctMembers legal, uncommented, undefined,
    nothingSet, fun test inTests kind name named => ?_⟩
  exact (Entry.test_name_toNode_iff legal inTests named).mpr
    (plainNames test inTests kind name named)

/-- The document that holds nothing but a settled node. -/
theorem check_toJson (settled : node.Settled) :
    Pipeline.check { standard with options } (.object [(node.name, node.toJson)]) =
      ⟨Model.empty.insert node, ⟨node.scopeWarnings⟩⟩ := by
  have checked : Pipeline.checkEntry { standard with options } node.name node.toJson =
      ⟨some node, SchedulingList.scopeFindings node.scheduling⟩ := checkEntry_toJson settled
  have raised : ((Checked.mk (some node) (SchedulingList.scopeFindings node.scheduling)).inside
      (.entry node.name)).diagnostics = node.scopeWarnings := by
    rw [Node.scopeWarnings_eq, Checked.diagnostics, Checked.findings_inside, List.map_map]
    rfl
  rw [check_singleton settled.formed.named, addEntry, checked, raised]
  rfl

/-- Checking a node of a model again, under the same options and as the only entry of a document,
gives a model of this node alone. Nothing is reported but the scopes whose flags cover one another,
and so no error. -/
theorem fixed_of_mem_check {document : Json} (distinct : document.hasDistinctKeys = true)
    {key : String} (entered : (key, node) ∈
      (Pipeline.check { standard with options } document).model.nodes.entries)
    (uncommented : node.comment = none) (undefined : node.categoryDefinitions = .empty)
    (nothingSet : ∀ test ∈ node.tests, test.stateSet = .empty)
    (plainNames : ∀ test ∈ node.tests, ∀ kind, ∀ name ∈ (test.values kind).keys,
      isCommentKey name = false) :
    Pipeline.check { standard with options } (.object [(node.name, node.toJson)]) =
        ⟨Model.empty.insert node, ⟨node.scopeWarnings⟩⟩ ∧
      (Model.empty.insert node).nodes.entries = [(node.name, node)] ∧
      ∀ diagnostic ∈ node.scopeWarnings, diagnostic.isError = false := by
  have settled := settled_of_mem_check distinct entered uncommented undefined nothingSet plainNames
  exact ⟨check_toJson settled, rfl, fun _ => Node.isError_of_mem_scopeWarnings⟩

/-- The sample is made again, with a warning about its global flags. -/
theorem sampleNode_fixed :
    sampleDocument.hasDistinctKeys = true ∧
      ("Add", sampleNode) ∈ (standard.check sampleDocument).model.nodes.entries ∧
      sampleNode.comment = none ∧ sampleNode.categoryDefinitions = .empty ∧
      (∀ test ∈ sampleNode.tests, test.stateSet = .empty) ∧
      (∀ test ∈ sampleNode.tests, ∀ kind, ∀ name ∈ (test.values kind).keys,
        isCommentKey name = false) ∧
      standard.check (.object [("Add", sampleNode.toJson)]) =
        ⟨Model.empty.insert sampleNode, ⟨[⟨"Add.scheduling", .redundantScheduling
          "'global' already covers 'global-read' and 'global-write'"⟩]⟩⟩ := by
  have distinct : sampleDocument.hasDistinctKeys = true := by decide +kernel
  have nothingSet : ∀ test ∈ sampleNode.tests, test.stateSet = .empty := by decide
  have plainNames : ∀ test ∈ sampleNode.tests, ∀ kind, ∀ name ∈ (test.values kind).keys,
      isCommentKey name = false := by
    intro test listed kind
    cases List.mem_singleton.mp listed
    cases kind <;> decide
  have fixed := (@fixed_of_mem_check .standard sampleNode sampleDocument distinct "Add"
    sampleNode_mem rfl rfl nothingSet plainNames).1
  have warnings : sampleNode.scopeWarnings = [⟨"Add.scheduling", .redundantScheduling
      "'global' already covers 'global-read' and 'global-write'"⟩] := by decide +kernel
  rw [warnings] at fixed
  exact ⟨distinct, sampleNode_mem, rfl, rfl, nothingSet, plainNames, fixed⟩

end Pipeline

end NodeDescriptor
