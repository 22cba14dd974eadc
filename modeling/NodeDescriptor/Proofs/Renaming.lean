import NodeDescriptor.Proofs.Independence
import NodeDescriptor.Proofs.Paths

/-!
# Entries under other names

No stage looks at the name of an entry, and a finding only says where it is inside the entry. So an
entry that is given another name makes the same node under that name, or again none, and the
diagnostics about it only start with another name.
-/

set_option autoImplicit false

namespace NodeDescriptor

variable {options : Options} {entry : Entry} {node : Node}

/-! ## Nodes -/

/-- The node under another name. -/
def Node.renamed (node : Node) (name : String) : Node := { node with name }

namespace Stage

/-- Of an entry only the members are read. -/
theorem run_name (stage : Stage) (first second : String) (members : List (String × Json)) :
    stage.run options ⟨first, members⟩ node = stage.run options ⟨second, members⟩ node := by
  cases stage <;> rfl

private theorem run_renamed (stage : Stage) (name : String) :
    stage.run options entry (node.renamed name) =
      (stage.run options entry node).map fun made => made.renamed name := by
  cases stage with
  | attributes =>
      -- The attributes are added one by one, to two nodes that stay alike but for the name.
      have adding : ∀ (left right : Node) (part : Section) (attr : Attribute),
          left.renamed name = right →
            (left.withAttribute part attr).renamed name = right.withAttribute part attr := by
        rintro left _ part attr rfl
        cases part <;> rfl
      have value := @AttributeSections.check_preserves entry
        (fun left right => left.renamed name = right)
        (fun left right part attr _ => adding left right part attr) node (node.renamed name) rfl
      have findings : (AttributeSections.check entry (node.renamed name)).findings =
          (AttributeSections.check entry node).findings :=
        AttributeSections.findings_check.trans AttributeSections.findings_check.symm
      rw [run, run, Checked.map, value, ← findings]
  | _ => rfl

private theorem runAll_renamed (stages : List Stage) (first second : String)
    (members : List (String × Json)) :
    runAll stages options ⟨second, members⟩ (node.renamed second) =
      (runAll stages options ⟨first, members⟩ node).map fun made => made.renamed second := by
  -- A run starts with a node of the entry's own name, so entry and node are renamed together.
  induction stages generalizing node with
  | nil => rfl
  | cons stage rest ih =>
      have head : stage.run options ⟨second, members⟩ (node.renamed second) =
          (stage.run options ⟨first, members⟩ node).map fun made => made.renamed second := by
        rw [run_name stage second first, run_renamed]
      simp only [runAll, head, Checked.value_map, Checked.findings_map, ih]
      rfl

end Stage

/-! ## Findings inside an entry -/

namespace AtMembers

theorem requiredFields : AtMembers (RequiredFields.ofEntry options entry).findings := by
  simp only [RequiredFields.findings, RequiredFields.ofEntry]
  cases options.requireMetadata <;> simp

theorem shorthand : AtMembers (Shorthand.ofEntry options entry).findings := by
  simp [Shorthand.findings, Shorthand.ofEntry]

/-- Whatever a stage finds is about a member of the entry. -/
theorem run (stage : Stage) : AtMembers (stage.run options entry node).findings := by
  cases stage with
  | requiredFields => exact requiredFields
  | shorthand => exact shorthand
  | attributes => simp [Stage.run, AttributeSections.findings_check, AttributeSections.ofEntry]
  | _ => exact optional

theorem runAll (stages : List Stage) :
    AtMembers (Stage.runAll stages options entry node).findings := by
  induction stages generalizing node with
  | nil => exact nil
  | cons stage rest ih => exact append_iff.mpr ⟨run stage, ih⟩

end AtMembers

/-! ## Documents -/

namespace Pipeline

variable {pipeline : Pipeline} {first second : String} {value : Json}

private theorem checkEntry_renamed (pipeline : Pipeline) (first second : String) (value : Json) :
    pipeline.checkEntry second value =
      (pipeline.checkEntry first value).map (Option.map fun node => node.renamed second) := by
  cases value with
  | object members =>
      have start : Node.ofName second = (Node.ofName first).renamed second := rfl
      have run := @Stage.runAll_renamed pipeline.options (Node.ofName first) pipeline.stages
        first second members
      simp only [checkEntry, start, run]
      generalize Stage.runAll pipeline.stages pipeline.options ⟨first, members⟩
        (Node.ofName first) = checked
      -- Both runs have the same findings, so both nodes are kept or both are dropped.
      have verdict : (checked.map fun made => made.renamed second).hasErrors =
          checked.hasErrors := rfl
      rw [verdict]
      cases checked.hasErrors <;> rfl
  | _ => rfl

/-- A finding about an entry is about the entry itself or about one of its members. -/
theorem path_of_mem_checkEntry {finding : Finding}
    (found : finding ∈ (pipeline.checkEntry first value).findings) :
    finding.path = .root ∨ finding.AtMember := by
  cases value with
  | object members => exact .inr (AtMembers.runAll pipeline.stages finding found)
  | _ =>
      rw [List.mem_singleton.mp found]
      exact .inl rfl

private theorem suffix_of_mem_checkEntry {finding : Finding}
    (found : finding ∈ (pipeline.checkEntry first value).findings) :
    PathStep.suffixes finding.path.steps = "" ∨
      ∃ rest, PathStep.suffixes finding.path.steps = "." ++ rest :=
  Finding.suffixes_of_place (path_of_mem_checkEntry found)

private theorem entries_check_singleton (uncommented : isCommentKey first = false) :
    (pipeline.check (.object [(first, value)])).model.nodes.entries =
      ((pipeline.checkEntry first value).value.map fun node => (first, node)).toList := by
  rw [check_singleton uncommented, entries_addEntry]
  unfold made?
  cases (pipeline.checkEntry first value).value <;> rfl

/-- An entry under two names, alone in a document: the two models hold the same node under its
name, or both hold none, and the two reports agree, position by position, in the problems and in
what follows the name in the paths. -/
theorem check_under_names (pipeline : Pipeline) (value : Json)
    (firstNamed : first ≠ "") (firstUncommented : isCommentKey first = false)
    (secondNamed : second ≠ "") (secondUncommented : isCommentKey second = false) :
    (∃ made : Option Node,
      (pipeline.check (.object [(first, value)])).model.nodes.entries =
          (made.map fun node => (first, node.renamed first)).toList ∧
        (pipeline.check (.object [(second, value)])).model.nodes.entries =
          (made.map fun node => (second, node.renamed second)).toList) ∧
      List.Forall₂ (Diagnostic.AlikeBelow first second)
        (pipeline.check (.object [(first, value)])).report.diagnostics
        (pipeline.check (.object [(second, value)])).report.diagnostics := by
  constructor
  · refine ⟨(pipeline.checkEntry first value).value, ?_, ?_⟩
    · rw [entries_check_singleton firstUncommented]
      cases made : (pipeline.checkEntry first value).value with
      | none => rfl
      | some node =>
          have named : node.renamed first = node := by
            rw [Node.renamed, ← name_of_checkEntry made]
          rw [Option.map_some, Option.map_some, named]
    · rw [entries_check_singleton secondUncommented, checkEntry_renamed pipeline first,
        Checked.value_map, Option.map_map]
      rfl
  · have same : (pipeline.checkEntry second value).findings =
        (pipeline.checkEntry first value).findings := by
      rw [checkEntry_renamed pipeline first, Checked.findings_map]
    rw [diagnostics_check_singleton firstUncommented, diagnostics_check_singleton secondUncommented]
    simp only [raised, Checked.diagnostics, Checked.findings_inside, same, List.map_map,
      List.forall₂_map_left_iff, List.forall₂_map_right_iff, List.forall₂_same]
    intro finding found
    refine ⟨rfl, PathStep.suffixes finding.path.steps, ?_, ?_, suffix_of_mem_checkEntry found⟩
    · exact FieldPath.text_inside_entry firstNamed finding.path
    · exact FieldPath.text_inside_entry secondNamed finding.path

/-- An entry that is kept, although a flag is given twice. -/
def repeatingEntry : Json :=
  .object [("description", .string "Adds."), ("uiName", .string "Add"),
    ("categories", .string "math"), ("metadata", .object []), ("scheduling", .string "pure, pure")]

/-- A name with a dot in it starts the path of the one warning like any other. -/
theorem repeatingEntry_under_names :
    "Add" ≠ "" ∧ isCommentKey "Add" = false ∧ "a.b" ≠ "" ∧ isCommentKey "a.b" = false ∧
      (standard.check (.object [("Add", repeatingEntry)])).report =
        ⟨[⟨"Add.scheduling[1]", .redundantScheduling "'pure' is listed more than once"⟩]⟩ ∧
      (∃ node : Node,
        (standard.check (.object [("Add", repeatingEntry)])).model.nodes.entries =
            [("Add", node.renamed "Add")] ∧
          (standard.check (.object [("a.b", repeatingEntry)])).model.nodes.entries =
            [("a.b", node.renamed "a.b")]) ∧
      List.Forall₂ (Diagnostic.AlikeBelow "Add" "a.b")
        (standard.check (.object [("Add", repeatingEntry)])).report.diagnostics
        (standard.check (.object [("a.b", repeatingEntry)])).report.diagnostics := by
  have reported : (standard.check (.object [("Add", repeatingEntry)])).report =
      ⟨[⟨"Add.scheduling[1]", .redundantScheduling "'pure' is listed more than once"⟩]⟩ := by
    decide +kernel
  have kept : (standard.check (.object [("Add", repeatingEntry)])).model.nodes.entries ≠ [] := by
    decide +kernel
  obtain ⟨⟨made, atFirst, atSecond⟩, alike⟩ :=
    @check_under_names "Add" "a.b" standard repeatingEntry
      (by decide) (by decide) (by decide) (by decide)
  refine ⟨by decide, by decide, by decide, by decide, reported, ?_, alike⟩
  cases made with
  | none => exact absurd atFirst kept
  | some node => exact ⟨node, atFirst, atSecond⟩

end Pipeline

end NodeDescriptor
