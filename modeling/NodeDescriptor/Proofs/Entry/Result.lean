import NodeDescriptor.Proofs.Dict
import NodeDescriptor.Proofs.Entry.Frame
import NodeDescriptor.Proofs.Legality.Fields

/-!
# What the standard stages make of an entry

The node that the stages fill in one after another, and what they find on the way, written down
field by field in terms of what each of them reads. Every stage reads the entry alone, since the
node it starts with says nothing yet about the fields of that stage.
-/

set_option autoImplicit false

namespace NodeDescriptor

variable {options : Options} {entry : Entry} {node : Node} {part : Section}

/-! ## What the single stages read -/

/-- What was read of the list of excluded artifacts. -/
def ExcludeList.ofEntry (entry : Entry) : Checked (Option (List Artifact)) :=
  Member.optional entry.members "exclude" read

/-- What was read of the scheduling flags. -/
def SchedulingList.ofEntry (entry : Entry) : Checked (Option (List SchedulingFlag)) :=
  Member.optional entry.members "scheduling" (read [])

/-- What was read of the list of tests. -/
def TestList.ofEntry (entry : Entry) : Checked (Option (List TestCase)) :=
  Member.optional entry.members "tests" (read entry)

/-- The attributes that were read of a section, under their names. -/
def AttributeSections.attributes (entry : Entry) (part : Section) : Dict Attribute :=
  Dict.ofList (((ofEntry entry part).value.getD []).map fun attr => (attr.name, attr))

/-! ## Whole entries -/

namespace Entry

/-- The node of an entry, field by field. -/
def toNode (options : Options) (entry : Entry) : Node :=
  let required := RequiredFields.ofEntry options entry
  let short := Shorthand.ofEntry options entry
  { name := entry.name
    comment := required.comment.value
    description := required.description.value.getD []
    icon := short.icon.value.getD none
    version := required.version.value.getD 1
    language := required.language.value.getD .cpp
    memoryType := required.memoryType.value.getD none
    exclude := Distinct.ofList ((ExcludeList.ofEntry entry).value.getD [])
    categories := (short.categories.value.map CategoryList.names).getD []
    categoryDefinitions := (short.categories.value.bind CategoryList.definitions).getD .empty
    cudaPointers := required.cudaPointers.value.getD none
    metadata := required.metadata.value.getD .empty
    scheduling := (SchedulingList.ofEntry entry).value.getD []
    singleton := required.singleton.value.getD false
    tags := short.tags.value.getD []
    tokens := short.tokens.value.getD .empty
    uiName := required.uiName.value.getD ""
    inputs := AttributeSections.attributes entry .inputs
    outputs := AttributeSections.attributes entry .outputs
    state := AttributeSections.attributes entry .state
    tests := (TestList.ofEntry entry).value.getD [] }

/-- The findings about an entry, stage by stage. -/
def findings (options : Options) (entry : Entry) : List Finding :=
  (RequiredFields.ofEntry options entry).findings ++ (Shorthand.ofEntry options entry).findings ++
    (ExcludeList.ofEntry entry).findings ++ (SchedulingList.ofEntry entry).findings ++
    (AttributeSections.ofEntry entry .inputs).findings ++
    (AttributeSections.ofEntry entry .outputs).findings ++
    (AttributeSections.ofEntry entry .state).findings ++ (TestList.ofEntry entry).findings

theorem attributes_toNode (part : Section) :
    (Entry.toNode options entry).attributes part = AttributeSections.attributes entry part := by
  cases part <;> rfl

end Entry

/-! ## Adding attributes -/

namespace Node

private theorem withAttributes_self (node : Node) (part : Section) :
    node.withAttributes part (node.attributes part) = node := by
  cases part <;> rfl

private theorem withAttributes_withAttribute (node : Node) (part : Section) (attr : Attribute)
    (attributes : Dict Attribute) :
    (node.withAttribute part attr).withAttributes part attributes =
      node.withAttributes part attributes := by
  cases part <;> rfl

end Node

namespace AttributeSections

/-- Adding attributes one after another writes them under their names. -/
theorem foldl_withAttribute {added : List Attribute} {result : Dict Attribute}
    (written : result.entries = Entries.merge (node.attributes part).entries
      (added.map fun attr => (attr.name, attr))) :
    added.foldl (fun node attr => node.withAttribute part attr) node =
      node.withAttributes part result := by
  -- The result stays the same while attributes move from those to come into the node.
  induction added generalizing node with
  | nil =>
      have same : result = node.attributes part := Dict.ext_entries written
      rw [same, Node.withAttributes_self, List.foldl_nil]
  | cons attr rest ih =>
      have stepped : result.entries = Entries.merge
          ((node.withAttribute part attr).attributes part).entries
          (rest.map fun attr => (attr.name, attr)) := by
        rw [written, Node.attributes_withAttribute_self, Dict.entries_insert]
        rfl
      rw [List.foldl_cons, ih stepped, Node.withAttributes_withAttribute]

private theorem value_checkSection (empty : node.attributes part = .empty) :
    (checkSection entry node part).value = node.withAttributes part (attributes entry part) := by
  refine foldl_withAttribute ?_
  rw [empty]
  rfl

private theorem value_check (empty : ∀ part, node.attributes part = .empty) :
    (check entry node).value =
      { node with
        inputs := attributes entry .inputs
        outputs := attributes entry .outputs
        state := attributes entry .state } := by
  have steps : (check entry node).value = (checkSection entry (checkSection entry
      (checkSection entry node .inputs).value .outputs).value .state).value := rfl
  have afterInputs : (node.withAttributes .inputs (attributes entry .inputs)).attributes
      .outputs = .empty := empty .outputs
  have afterOutputs : ((node.withAttributes .inputs (attributes entry .inputs)).withAttributes
      .outputs (attributes entry .outputs)).attributes .state = .empty := empty .state
  rw [steps, value_checkSection (empty .inputs), value_checkSection afterInputs,
    value_checkSection afterOutputs]
  rfl

end AttributeSections

/-! ## Runs -/

/-- The run of all stages over an entry. -/
theorem Stage.runAll_all (options : Options) (entry : Entry) :
    runAll Keyword.all options entry (Node.ofName entry.name) =
      ⟨entry.toNode options, entry.findings options⟩ := by
  -- The node as the stages before the attributes leave it.
  let early := (runAll [.requiredFields, .shorthand, .exclude, .scheduling] options entry
    (Node.ofName entry.name)).value
  have attributes : (AttributeSections.check entry early).value =
      { early with
        inputs := AttributeSections.attributes entry .inputs
        outputs := AttributeSections.attributes entry .outputs
        state := AttributeSections.attributes entry .state } :=
    AttributeSections.value_check fun part => by cases part <;> rfl
  have value : (runAll Keyword.all options entry (Node.ofName entry.name)).value =
      (TestList.check entry (AttributeSections.check entry early).value).value := rfl
  have findings : (runAll Keyword.all options entry (Node.ofName entry.name)).findings =
      (RequiredFields.ofEntry options entry).findings ++
        ((Shorthand.ofEntry options entry).findings ++ ((ExcludeList.ofEntry entry).findings ++
          ((SchedulingList.ofEntry entry).findings ++
            ((AttributeSections.check entry early).findings ++
              ((TestList.ofEntry entry).findings ++ []))))) := rfl
  have sameValue : (runAll Keyword.all options entry (Node.ofName entry.name)).value =
      entry.toNode options := by
    rw [value, attributes]
    rfl
  have sameFindings : (runAll Keyword.all options entry (Node.ofName entry.name)).findings =
      entry.findings options := by
    rw [findings, AttributeSections.findings_check]
    simp only [Entry.findings, List.append_assoc, List.append_nil]
  rw [← sameValue, ← sameFindings]

end NodeDescriptor
