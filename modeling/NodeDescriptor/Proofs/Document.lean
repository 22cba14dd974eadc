import NodeDescriptor.Document
import NodeDescriptor.Proofs.Dict
import NodeDescriptor.Proofs.Entry.Result
import NodeDescriptor.Proofs.Legality.Entry

/-!
# The nodes of a checked document

The model of a document holds the nodes that its entries make, each under the name of its entry,
and an entry makes a node exactly when it is legal for the stages that are run.
-/

set_option autoImplicit false

namespace NodeDescriptor.Pipeline

variable {pipeline : Pipeline}

/-! ## Entries -/

theorem value_checkEntry_eq_some_iff {name : String} {value : Json} {node : Node} :
    (pipeline.checkEntry name value).value = some node ↔
      ∃ members, value = .object members ∧
        (∀ stage ∈ pipeline.stages, stage.Legal pipeline.options members) ∧
        node = (Stage.runAll pipeline.stages pipeline.options ⟨name, members⟩
          (Node.ofName name)).value := by
  cases value with
  | object members =>
      have verdict : (Stage.runAll pipeline.stages pipeline.options ⟨name, members⟩
          (Node.ofName name)).hasErrors = false ↔
          ∀ stage ∈ pipeline.stages, stage.Legal pipeline.options members :=
        Checked.hasErrors_eq_false_iff.trans Stage.faultless_runAll
      simp only [checkEntry, Checked.value_map, Json.object.injEq, exists_eq_left', ← verdict]
      cases (Stage.runAll pipeline.stages pipeline.options ⟨name, members⟩
          (Node.ofName name)).hasErrors with
      | true => simp
      | false => simp [eq_comm]
  | _ => simp [checkEntry]

theorem name_of_checkEntry {name : String} {value : Json} {node : Node}
    (made : (pipeline.checkEntry name value).value = some node) : node.name = name := by
  obtain ⟨members, -, -, rfl⟩ := value_checkEntry_eq_some_iff.mp made
  exact Stage.name_runAll pipeline.stages

/-! ## Documents -/

/-- The node that a member of a document makes, under the name of the member. -/
def made? (pipeline : Pipeline) (member : String × Json) : Option (String × Node) :=
  (pipeline.checkEntry member.1 member.2).value.map fun node => (member.1, node)

theorem made?_eq_some_iff {member : String × Json} {name : String} {node : Node} :
    pipeline.made? member = some (name, node) ↔
      member.1 = name ∧ (pipeline.checkEntry member.1 member.2).value = some node := by
  simp only [made?, Option.map_eq_some_iff, Prod.mk.injEq]
  constructor
  · intro found
    obtain ⟨other, made, same, rfl⟩ := found
    exact ⟨same, made⟩
  · intro found
    obtain ⟨same, made⟩ := found
    exact ⟨node, made, same, rfl⟩

theorem entries_addEntry (outcome : Outcome) (member : String × Json) :
    (pipeline.addEntry outcome member).model.nodes.entries =
      Entries.merge outcome.model.nodes.entries (pipeline.made? member).toList := by
  simp only [addEntry, made?, Checked.value_inside]
  cases made : (pipeline.checkEntry member.1 member.2).value with
  | none => rfl
  | some node =>
      have named := name_of_checkEntry made
      simp [Model.insert, Entries.merge, named]

private theorem entries_foldl_addEntry (members : List (String × Json)) (outcome : Outcome) :
    (members.foldl pipeline.addEntry outcome).model.nodes.entries =
      Entries.merge outcome.model.nodes.entries (members.filterMap pipeline.made?) := by
  induction members generalizing outcome with
  | nil => rfl
  | cons member rest ih =>
      rw [List.foldl_cons, ih, entries_addEntry, List.filterMap_cons]
      cases pipeline.made? member <;> rfl

/-- The model holds what the entries make, in their order. -/
theorem entries_check (members : List (String × Json)) :
    (pipeline.check (.object members)).model.nodes.entries =
      Entries.merge [] ((Member.withoutComments members).filterMap pipeline.made?) := by
  -- A document with nothing but comments is a problem, and its model is as empty as the fold.
  cases shape : Member.withoutComments members with
  | nil =>
      simp only [check, shape]
      rfl
  | cons member rest =>
      simp only [check, shape]
      exact entries_foldl_addEntry (member :: rest) ⟨.empty, .empty⟩

/-- Every node of a model was made by a member of the document that bears its name and is no
comment. -/
theorem member_of_mem_check {document : Json} {name : String} {node : Node}
    (entered : (name, node) ∈ (pipeline.check document).model.nodes.entries) :
    ∃ entries value, document = .object entries ∧ (name, value) ∈ entries ∧
      isCommentKey name = false ∧ (pipeline.checkEntry name value).value = some node := by
  cases document with
  | object entries =>
      rw [entries_check] at entered
      rcases Entries.mem_of_mem_merge entered with inEmpty | inMade
      · cases inEmpty
      · obtain ⟨⟨key, value⟩, listed, made⟩ := List.mem_filterMap.mp inMade
        obtain ⟨inEntries, uncommented⟩ := Member.mem_withoutComments.mp listed
        obtain ⟨rfl, produced⟩ := made?_eq_some_iff.mp made
        exact ⟨entries, value, rfl, inEntries, uncommented, produced⟩
  | _ => cases entered

theorem made_of_mem_check {document : Json} {name : String} {node : Node}
    (entered : (name, node) ∈ (pipeline.check document).model.nodes.entries) :
    ∃ value, (pipeline.checkEntry name value).value = some node := by
  obtain ⟨-, value, -, -, -, made⟩ := member_of_mem_check entered
  exact ⟨value, made⟩

theorem contains_check_iff {members : List (String × Json)} {name : String} :
    (pipeline.check (.object members)).model.nodes.contains name = true ↔
      ∃ value node, (name, value) ∈ members ∧ isCommentKey name = false ∧
        (pipeline.checkEntry name value).value = some node := by
  rw [Dict.contains_iff, Dict.keys, entries_check, Entries.mem_keys_merge, Entries.keys_nil]
  simp only [List.not_mem_nil, false_or, Entries.keys, List.mem_map, List.mem_filterMap,
    Member.mem_withoutComments]
  constructor
  · intro found
    obtain ⟨⟨other, node⟩, ⟨⟨key, value⟩, ⟨listed, uncommented⟩, made⟩, rfl⟩ := found
    obtain ⟨rfl, produced⟩ := made?_eq_some_iff.mp made
    exact ⟨value, node, listed, uncommented, produced⟩
  · intro found
    obtain ⟨value, node, listed, uncommented, made⟩ := found
    exact ⟨(name, node), ⟨(name, value), ⟨listed, uncommented⟩, made?_eq_some_iff.mpr ⟨rfl, made⟩⟩,
      rfl⟩

/-! ## The standard stages -/

/-- All stages make of an entry the node that is described field by field. -/
theorem checkEntry_standard (options : Options) (name : String) (members : List (String × Json)) :
    Pipeline.checkEntry { standard with options } name (.object members) =
      ⟨if (Entry.findings options ⟨name, members⟩).any Finding.isError then none
        else some (Entry.toNode options ⟨name, members⟩),
        Entry.findings options ⟨name, members⟩⟩ := by
  have verdict : ∀ {run : Checked Node} {node : Node} {findings : List Finding},
      run = ⟨node, findings⟩ →
        (run.map fun node => if run.hasErrors then none else some node) =
          ⟨if findings.any Finding.isError then none else some node, findings⟩ := by
    intro run node findings same
    subst same
    rfl
  exact verdict (Stage.runAll_all options ⟨name, members⟩)

/-- A node of a model is the one that a legal entry of the document describes. -/
theorem entry_of_mem_check {options : Options} {document : Json} {name : String} {node : Node}
    (entered : (name, node) ∈
      (Pipeline.check { standard with options } document).model.nodes.entries) :
    ∃ entries members, document = .object entries ∧ (name, .object members) ∈ entries ∧
      isCommentKey name = false ∧ Entry.Legal options members ∧
      node = Entry.toNode options ⟨name, members⟩ := by
  obtain ⟨entries, value, rfl, listed, uncommented, made⟩ := member_of_mem_check entered
  obtain ⟨members, rfl, legal, run⟩ := value_checkEntry_eq_some_iff.mp made
  have whole : Entry.Legal options members :=
    Stage.legal_all_iff.mp fun stage => legal stage (Keyword.complete stage)
  have described := congrArg Checked.value (Stage.runAll_all options ⟨name, members⟩)
  exact ⟨entries, members, rfl, listed, uncommented, whole, run.trans described⟩

/-- The standard stages accept the legal entries of a document and nothing else: whatever the
options are, the model has a node of some name if and only if the document has a legal entry of
that name which is no comment. -/
theorem contains_iff_isEntry (options : Options) (document : Dict Json) (name : String) :
    (Pipeline.check { standard with options } (.object document.entries)).model.nodes.contains
        name = true ↔
      isCommentKey name = false ∧
        ∃ value, document.get? name = some value ∧ value.IsEntry options := by
  simp only [contains_check_iff, value_checkEntry_eq_some_iff, Dict.get?_eq_some_iff]
  have everyStage : ∀ members : List (String × Json),
      (∀ stage ∈ standard.stages, stage.Legal options members) ↔ Entry.Legal options members := by
    intro members
    rw [← Stage.legal_all_iff]
    exact ⟨fun legal stage => legal stage (Keyword.complete stage),
      fun legal stage _ => legal stage⟩
  constructor
  · intro found
    obtain ⟨value, node, listed, uncommented, members, shape, legal, -⟩ := found
    exact ⟨uncommented, value, listed, members, shape, (everyStage members).mp legal⟩
  · intro found
    obtain ⟨uncommented, value, listed, members, shape, legal⟩ := found
    exact ⟨value, _, listed, uncommented, members, shape, (everyStage members).mpr legal, rfl⟩

end NodeDescriptor.Pipeline
