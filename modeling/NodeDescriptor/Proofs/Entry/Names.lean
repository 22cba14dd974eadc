import NodeDescriptor.Proofs.Entry.Frame
import NodeDescriptor.Proofs.Legality.Entry

/-!
# Names in the node of a legal entry

The attributes of the node are the members of the sections that are no comments. The names in its
tests are among the names that the entry declares, comments included.
-/

set_option autoImplicit false

namespace NodeDescriptor

variable {options : Options} {entry : Entry} {node : Node} {name : String}

/-! ## Attributes -/

namespace AttributeSections

private theorem mem_keys_withAttributes {part : Section} {attributes : List Attribute} :
    name ∈ ((attributes.foldl (fun node attr => node.withAttribute part attr) node).attributes
        part).keys ↔
      name ∈ (node.attributes part).keys ∨ ∃ attr ∈ attributes, attr.name = name := by
  induction attributes generalizing node with
  | nil => simp
  | cons attr rest ih =>
      rw [List.foldl_cons, ih, Node.attributes_withAttribute_self, Dict.mem_keys_insert, or_assoc]
      simp [eq_comm]

private theorem mem_keys_checkSection {part : Section} :
    name ∈ ((checkSection entry node part).value.attributes part).keys ↔
      name ∈ (node.attributes part).keys ∨
        ∃ attr ∈ (ofEntry entry part).value.getD [], attr.name = name :=
  mem_keys_withAttributes

private theorem attributes_checkSection_of_ne {part other : Section} (different : other ≠ part) :
    (checkSection entry node part).value.attributes other = node.attributes other := by
  rw [checkSection, Checked.value_map]
  induction (ofEntry entry part).value.getD [] generalizing node with
  | nil => rfl
  | cons attr rest ih =>
      exact ih.trans (Node.attributes_withAttribute_of_ne different node attr)

/-- Each section gets the names that were read in it. -/
theorem mem_keys_check {part : Section} :
    name ∈ ((check entry node).value.attributes part).keys ↔
      name ∈ (node.attributes part).keys ∨
        ∃ attr ∈ (ofEntry entry part).value.getD [], attr.name = name := by
  have steps : (check entry node).value = (checkSection entry (checkSection entry
      (checkSection entry node .inputs).value .outputs).value .state).value := rfl
  rw [steps]
  -- The other two sections leave this one alone, before it and after it.
  cases part with
  | inputs =>
      rw [attributes_checkSection_of_ne (by decide), attributes_checkSection_of_ne (by decide),
        mem_keys_checkSection]
  | outputs =>
      rw [attributes_checkSection_of_ne (by decide), mem_keys_checkSection,
        attributes_checkSection_of_ne (by decide)]
  | state =>
      rw [mem_keys_checkSection, attributes_checkSection_of_ne (by decide),
        attributes_checkSection_of_ne (by decide)]

theorem Legal.section {members : List (String × Json)} (legal : Legal members) (part : Section) :
    Member.AbsentOr members (Keyword.word part) IsSection := by
  cases part with
  | inputs => exact legal.inputs
  | outputs => exact legal.outputs
  | state => exact legal.state

/-- An attribute that was read was read from a member of its section. -/
theorem member_of_read {part : Section} {attr : Attribute}
    (read : attr ∈ (ofEntry entry part).value.getD []) :
    ∃ members member, entry.members.lookup (Keyword.word part) = some (.object members) ∧
      member ∈ members ∧ (Attribute.check member.1 member.2).value = some attr := by
  obtain ⟨value, attributes, found, read, listed⟩ := Member.mem_getD_optional read
  cases value with
  | object members =>
      cases read
      obtain ⟨checked, listed, made⟩ := List.mem_filterMap.mp listed
      obtain ⟨member, kept, rfl⟩ := List.mem_map.mp listed
      exact ⟨members, member, found, (Member.mem_withoutComments.mp kept).1, made⟩
  | _ => cases read

private theorem name_read_iff (legal : Legal entry.members) {part : Section} :
    (∃ attr ∈ (ofEntry entry part).value.getD [], attr.name = name) ↔
      Entry.Declared entry.members part name ∧ isCommentKey name = false := by
  rw [ofEntry, Member.value_optional]
  cases found : entry.members.lookup (Keyword.word part) with
  | none => simp [Entry.Declared, found]
  | some value =>
      obtain ⟨members, rfl, attributes⟩ := legal.section part value found
      simp only [Entry.Declared, found, Option.bind_some, readSection, Option.getD_some,
        List.mem_filterMap, List.mem_map, exists_exists_and_eq_and, Option.some.injEq,
        Json.object.injEq, exists_eq_left', Entries.keys]
      constructor
      · intro read
        obtain ⟨attr, ⟨member, listed, made⟩, rfl⟩ := read
        obtain ⟨inMembers, uncommented⟩ := Member.mem_withoutComments.mp listed
        have named : attr.name = member.1 := Attribute.name_of_check made
        rw [named]
        exact ⟨⟨member, inMembers, rfl⟩, uncommented⟩
      · intro declared
        obtain ⟨⟨member, inMembers, rfl⟩, uncommented⟩ := declared
        have made : (Attribute.check member.1 member.2).value.isSome = true :=
          Attribute.isSome_value_check_iff.mpr (attributes member inMembers uncommented)
        obtain ⟨attr, made⟩ := Option.isSome_iff_exists.mp made
        exact ⟨attr, ⟨member, Member.mem_withoutComments.mpr ⟨inMembers, uncommented⟩, made⟩,
          Attribute.name_of_check made⟩

end AttributeSections

/-! ## Tests -/

/-- The section in which the names of test values are looked up. -/
def TestValues.part : TestValues → Section
  | .inputs => .inputs
  | .outputs => .outputs
  | .state | .stateSet => .state

private theorem TestWord.part_values (word : TestWord) : word.values.part = word.part := by
  cases word <;> rfl

private theorem TestCase.mem_keys_assign {test : TestCase} {kind given : TestValues}
    {other : String}
    {value : Json} :
    name ∈ ((test.assign given other value).values kind).keys ↔
      name ∈ (test.values kind).keys ∨ given = kind ∧ other = name := by
  cases given <;> cases kind <;>
    simp [TestCase.assign, TestCase.values, Dict.mem_keys_insert, eq_comm]

namespace TestList

private theorem mem_keys_assignAll {test : TestCase} {references : List TestReference}
    {kind : TestValues} :
    name ∈ ((assignAll test references).values kind).keys ↔
      name ∈ (test.values kind).keys ∨
        ∃ reference ∈ references, reference.word.values = kind ∧ reference.name = name := by
  unfold assignAll
  induction references generalizing test with
  | nil => simp
  | cons reference rest ih =>
      rw [List.foldl_cons, ih, TestCase.mem_keys_assign, or_assoc]
      simp

/-- The names in a test case are the names that its object gives values to. -/
theorem mem_keys_readTest {object : List (String × Json)} {test : TestCase}
    (read : (readTest entry (.object object)).value = some test) {kind : TestValues} :
    name ∈ (test.values kind).keys ↔
      ∃ member ∈ object, ∃ reference, Gives member reference ∧ reference.word.values = kind ∧
        reference.name = name := by
  cases read
  rw [mem_keys_assignAll]
  simp only [mem_references]
  have bare : ∀ description setup,
      name ∉ (({ TestCase.empty with description, setup } : TestCase).values kind).keys := by
    intro description setup
    cases kind <;> exact List.not_mem_nil
  constructor
  · intro given
    rcases given with listed | ⟨reference, ⟨member, listed, given⟩, sameKind, sameName⟩
    · exact absurd listed (bare _ _)
    · exact ⟨member, listed, reference, given, sameKind, sameName⟩
  · intro given
    obtain ⟨member, listed, reference, given, sameKind, sameName⟩ := given
    exact Or.inr ⟨reference, ⟨member, listed, given⟩, sameKind, sameName⟩

/-- A test that was read was read from an item of the list. -/
theorem item_of_read {test : TestCase}
    (read : test ∈ (Member.optional entry.members "tests" (read entry)).value.getD []) :
    ∃ items item, entry.members.lookup "tests" = some (.array items) ∧ item ∈ items ∧
      (readTest entry item).value = some test := by
  obtain ⟨value, tests, found, read, listed⟩ := Member.mem_getD_optional read
  cases value with
  | array items =>
      cases read
      obtain ⟨checked, listed, made⟩ := List.mem_filterMap.mp listed
      obtain ⟨item, numbered, rfl⟩ := List.mem_map.mp listed
      exact ⟨items, item.1, found, List.fst_mem_of_mem_zipIdx numbered, made⟩
  | _ => cases read

/-- The names in a test of a legal entry are declared in the section that they belong to. -/
theorem declared_of_mem_keys (legal : Legal entry.members) {test : TestCase}
    (listed : test ∈ (check entry node).value.tests) (fresh : test ∉ node.tests)
    {kind : TestValues} (named : name ∈ (test.values kind).keys) :
    Entry.Declared entry.members kind.part name := by
  obtain ⟨items, item, found, inItems, made⟩ :=
    item_of_read ((List.mem_append.mp listed).resolve_left fresh)
  obtain ⟨_, same, objects⟩ := legal _ found
  cases same
  obtain ⟨object, rfl, legalTest⟩ := objects item inItems
  obtain ⟨member, inObject, reference, given, rfl, rfl⟩ := (mem_keys_readTest made).mp named
  rw [TestWord.part_values]
  exact legalTest.declared member inObject reference given

end TestList

/-! ## Nodes -/

/-- The standard stages end with the attributes and the tests. -/
theorem Stage.value_runAll_all :
    (runAll Keyword.all options entry node).value =
      (TestList.check entry (AttributeSections.check entry
        (runAll [.requiredFields, .shorthand, .exclude, .scheduling] options entry
          node).value).value).value :=
  rfl

/-- In the node of a legal entry, a name in a test is a name of an attribute unless it is that of
a comment. -/
theorem Stage.test_name_iff (legal : Entry.Legal options entry.members) {test : TestCase}
    (listed : test ∈ (runAll Keyword.all options entry (Node.ofName entry.name)).value.tests)
    {kind : TestValues} (named : name ∈ (test.values kind).keys) :
    name ∈ ((runAll Keyword.all options entry (Node.ofName entry.name)).value.attributes
        kind.part).keys ↔ isCommentKey name = false := by
  rw [value_runAll_all] at listed ⊢
  generalize start : (runAll [.requiredFields, .shorthand, .exclude, .scheduling] options entry
    (Node.ofName entry.name)).value = before at listed ⊢
  have noAttributes : (before.attributes kind.part).keys = [] := by
    rw [← start, attributes_runAll (by decide)]
    cases kind <;> rfl
  have noTests : (AttributeSections.check entry before).value.tests = [] := by
    rw [AttributeSections.check_leaves Node.tests Node.tests_withAttribute, ← start,
      tests_runAll (by decide)]
    rfl
  -- What is declared may still be a comment; only the reading of the section drops comments.
  have declared : Entry.Declared entry.members kind.part name :=
    TestList.declared_of_mem_keys legal.tests listed (by simp [noTests]) named
  have untouched : (Stage.tests.run options entry
      (AttributeSections.check entry before).value).value.attributes kind.part =
        (AttributeSections.check entry before).value.attributes kind.part :=
    attributes_run (by decide)
  rw [Stage.run] at untouched
  rw [untouched, AttributeSections.mem_keys_check, noAttributes,
    AttributeSections.name_read_iff legal.sections]
  simp [declared]

end NodeDescriptor
