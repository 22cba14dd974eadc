import NodeDescriptor.Proofs.WellFormed.Node

/-!
# Nothing is passed over

An attribute is refused only with an error, and made only without any finding. So a node of a model
has an attribute for every member of its sections that is no comment, and a test for every item of
its list of tests: where one of them could not be read, an error keeps the entry out.
-/

set_option autoImplicit false

namespace NodeDescriptor

variable {options : Options} {entry : Entry} {name : String} {value : Json} {path : FieldPath}

/-! ## Attributes -/

namespace Attribute

private theorem exists_error_diagnostic (refused : (check name value).value = none) :
    ∃ diagnostic ∈ ((check name value).inside path).diagnostics, diagnostic.isError = true := by
  obtain ⟨finding, found, error⟩ := exists_error_of_check refused
  exact ⟨(finding.inside path).diagnostic,
    List.mem_map_of_mem (List.mem_map_of_mem found), error⟩

private theorem diagnostics_eq_nil {attr : Attribute}
    (made : (check name value).value = some attr) :
    ((check name value).inside path).diagnostics = [] := by
  rw [Checked.diagnostics, Checked.findings_inside, findings_eq_nil_of_check made]
  rfl

end Attribute

/-! ## Entries -/

namespace Entry

/-- A node has what is written in the sections and the tests of an entry, attribute by attribute
and test by test, and nothing where the entry says nothing. -/
structure KeptWhole (entry : Entry) (node : Node) : Prop where
  sections : ∀ part value, entry.members.lookup (Keyword.word part) = some value →
    ∃ raw, value = .object raw ∧ AttributeSections.Kept raw (node.attributes part)
  absentSections : ∀ part, entry.members.lookup (Keyword.word part) = none →
    node.attributes part = .empty
  tests : ∀ value, entry.members.lookup "tests" = some value →
    ∃ items, value = .array items ∧ TestList.Kept entry items node.tests
  absentTests : entry.members.lookup "tests" = none → node.tests = []

private theorem keptWhole_toNode (distinct : (Json.object entry.members).hasDistinctKeys = true)
    (legal : Legal options entry.members) : entry.KeptWhole (toNode options entry) where
  sections part value found := by
    have sectionLegal := legal.sections.section part value found
    obtain ⟨raw, rfl, -⟩ := id sectionLegal
    have inner := Json.nodup_keys_of_lookup distinct found
    rw [attributes_toNode]
    exact ⟨raw, rfl, AttributeSections.kept_attributes found sectionLegal inner⟩
  absentSections part absent := by
    rw [attributes_toNode, AttributeSections.attributes_of_absent absent]
  tests value found := by
    obtain ⟨items, rfl, -⟩ := legal.tests value found
    exact ⟨items, rfl, TestList.kept_tests found legal.tests⟩
  absentTests absent := TestList.tests_of_absent absent

variable {node : Node}

theorem KeptWhole.keys (kept : entry.KeptWhole node) {part : Section} {raw : List (String × Json)}
    (written : entry.members.lookup (Keyword.word part) = some (.object raw)) :
    (node.attributes part).keys = Entries.keys (Member.withoutComments raw) := by
  obtain ⟨_, shape, attributes⟩ := kept.sections part _ written
  cases shape
  exact attributes.keys

private theorem KeptWhole.length_tests (kept : entry.KeptWhole node) {items : List Json}
    (written : entry.members.lookup "tests" = some (.array items)) :
    node.tests.length = items.length := by
  obtain ⟨_, shape, tests⟩ := kept.tests _ written
  cases shape
  exact tests.length_eq.symm

end Entry

/-! ## Documents -/

namespace Pipeline

/-- A refused attribute comes with an error and a made one without any diagnostic, wherever it
stands. Every node of a model therefore has exactly the attributes that its entry writes, under
their names and in their order, and one test for each item of its list of tests. -/
theorem nothing_passed_over :
    (∀ (name : String) (value : Json) (path : FieldPath),
      ((Attribute.check name value).value = none →
        ∃ diagnostic ∈ ((Attribute.check name value).inside path).diagnostics,
          diagnostic.isError = true) ∧
      ∀ attr, (Attribute.check name value).value = some attr →
        ((Attribute.check name value).inside path).diagnostics = []) ∧
    ∀ (options : Options) (document : Json), document.hasDistinctKeys = true →
      ∀ name node,
        (name, node) ∈
          (Pipeline.check { standard with options } document).model.nodes.entries →
        ∃ entries members, document = .object entries ∧
          entries.lookup name = some (.object members) ∧
          Entry.KeptWhole ⟨name, members⟩ node ∧
          (∀ part raw, members.lookup (Keyword.word part) = some (.object raw) →
            (node.attributes part).keys = Entries.keys (Member.withoutComments raw)) ∧
          ∀ items, members.lookup "tests" = some (.array items) →
            node.tests.length = items.length := by
  refine ⟨fun name value path => ⟨?_, fun attr made => ?_⟩, ?_⟩
  · exact Attribute.exists_error_diagnostic
  · exact Attribute.diagnostics_eq_nil made
  · intro options document distinct name node entered
    obtain ⟨entries, members, rfl, listed, -, legal, rfl⟩ := entry_of_mem_check entered
    obtain ⟨distinctNames, each⟩ := Json.hasDistinctKeys_object_iff.mp distinct
    have kept : Entry.KeptWhole ⟨name, members⟩ (Entry.toNode options ⟨name, members⟩) :=
      Entry.keptWhole_toNode (each _ listed) legal
    refine ⟨entries, members, rfl, ?_, kept, fun part raw => kept.keys, fun items =>
      kept.length_tests⟩
    exact (Entries.lookup_eq_some_iff_mem distinctNames).mpr listed

/-- The least that makes an attribute. -/
def leastAttribute : Json := .object [("type", .string "any"), ("description", .string "A")]

/-- The empty object is refused as an attribute, that one is made, and the sample has all that its
entry writes. -/
theorem sampleNode_keptWhole :
    (∃ diagnostic ∈ ((Attribute.check "a" (.object [])).inside (.entry "a")).diagnostics,
        diagnostic.isError = true) ∧
      ((Attribute.check "a" leastAttribute).inside (.entry "a")).diagnostics = [] ∧
      sampleDocument.hasDistinctKeys = true ∧
      ("Add", sampleNode) ∈ (standard.check sampleDocument).model.nodes.entries ∧
      ∃ entries members, sampleDocument = .object entries ∧
        entries.lookup "Add" = some (.object members) ∧
        Entry.KeptWhole ⟨"Add", members⟩ sampleNode := by
  have refused : (Attribute.check "a" (.object [])).value = none := by decide +kernel
  have made : (Attribute.check "a" leastAttribute).value =
      some { Attribute.ofType "a" (.one .any) with description := "A" } := by decide +kernel
  have distinct : sampleDocument.hasDistinctKeys = true := by decide +kernel
  obtain ⟨attributes, nodes⟩ := nothing_passed_over
  obtain ⟨entries, members, shape, written, kept, -⟩ :=
    nodes .standard sampleDocument distinct "Add" sampleNode sampleNode_mem
  exact ⟨(attributes _ _ (.entry "a")).1 refused, (attributes _ _ (.entry "a")).2 _ made,
    distinct, sampleNode_mem, entries, members, shape, written, kept⟩

end Pipeline

end NodeDescriptor
