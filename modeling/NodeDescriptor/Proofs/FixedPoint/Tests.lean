import NodeDescriptor.Proofs.Entry.Names
import NodeDescriptor.Proofs.FixedPoint.Fields
import NodeDescriptor.Proofs.RoundTrip.Parts

/-!
# Tests are read once

A test case is written with its values grouped by section, and reading it collects the same values
in the same order. Two things do not survive this: the state to set up is written under a word
that is not read, and names of comments are skipped in a group. Without them a test case is read
from what it is written as, provided that the entry declares the names.
-/

set_option autoImplicit false

namespace NodeDescriptor

/-! ## Values -/

namespace TestCase

variable {test : TestCase} {kind : TestValues}

/-- The test case with other values of some kind. -/
def withValues (test : TestCase) (kind : TestValues) (values : Dict Json) : TestCase :=
  match kind with
  | .inputs => { test with inputs := values }
  | .outputs => { test with outputs := values }
  | .state => { test with state := values }
  | .stateSet => { test with stateSet := values }

private theorem withValues_self : test.withValues kind (test.values kind) = test := by
  cases kind <;> rfl

private theorem withValues_assign {name : String} {value : Json} {values : Dict Json} :
    (test.assign kind name value).withValues kind values = test.withValues kind values := by
  cases kind <;> rfl

private theorem values_assign_self {name : String} {value : Json} :
    (test.assign kind name value).values kind = (test.values kind).insert name value := by
  cases kind <;> rfl

end TestCase

namespace TestList

variable {test : TestCase} {entry : Entry} {word : TestWord}

private theorem assignAll_append {left right : List TestReference} :
    assignAll test (left ++ right) = assignAll (assignAll test left) right :=
  List.foldl_append

private theorem assignAll_of_merge {given : List (String × Json)} {result : Dict Json}
    (written : result.entries = Entries.merge (test.values word.values).entries given) :
    assignAll test (given.map fun entry => ⟨word, entry.1, entry.2⟩) =
      test.withValues word.values result := by
  -- The result stays the same while values move from those to come into the test case.
  induction given generalizing test with
  | nil =>
      have same : result = test.values word.values := Dict.ext_entries written
      rw [same, TestCase.withValues_self]
      rfl
  | cons entry rest ih =>
      have stepped : result.entries = Entries.merge
          ((test.assign word.values entry.1 entry.2).values word.values).entries rest := by
        rw [written, TestCase.values_assign_self, Dict.entries_insert]
        rfl
      exact (ih stepped).trans TestCase.withValues_assign

/-- The references to values under a word. -/
def references (word : TestWord) (values : Dict Json) : List TestReference :=
  values.entries.map fun entry => ⟨word, entry.1, entry.2⟩

private theorem assignAll_references {values : Dict Json}
    (empty : test.values word.values = .empty) :
    assignAll test (references word values) = test.withValues word.values values := by
  refine assignAll_of_merge ?_
  rw [empty]
  exact (congrArg Dict.entries (Dict.ofList_entries values)).symm

/-! ## Members -/

/-- Members of a test object make some references, and nothing is wrong with them. -/
structure Reads (members : List (String × Json)) (references : List TestReference) : Prop where
  references : ((Member.withoutComments members).map readMember).flatMap Checked.value = references
  clean : ((Member.withoutComments members).map readMember).flatMap Checked.findings = []

namespace Reads

theorem nil : Reads [] [] := ⟨rfl, rfl⟩

theorem append {left right : List (String × Json)} {first second : List TestReference}
    (readsLeft : Reads left first) (readsRight : Reads right second) :
    Reads (left ++ right) (first ++ second) := by
  constructor
  · rw [Member.withoutComments_append, List.map_append, List.flatMap_append]
    exact congrArg₂ (· ++ ·) readsLeft.references readsRight.references
  · rw [Member.withoutComments_append, List.map_append, List.flatMap_append]
    exact List.append_eq_nil_iff.mpr ⟨readsLeft.clean, readsRight.clean⟩

theorem field {key : String} {value : Option Json} {references : List TestReference}
    (uncommented : isCommentKey key = false)
    (given : ∀ written, value = some written → readMember (key, written) = .clean references)
    (absent : value = none → references = []) :
    Reads (Record.field? key value id) references := by
  cases value with
  | none =>
      rw [absent rfl]
      exact nil
  | some written =>
      have kept : Member.withoutComments [(key, written)] = [(key, written)] :=
        Member.withoutComments_singleton uncommented written
      constructor <;> simp [Record.field?, kept, given written rfl]

end Reads

private theorem reads_values (word : TestWord) {values : Dict Json}
    (uncommented : ∀ name ∈ values.keys, isCommentKey name = false) :
    Reads (Record.field? (Keyword.word word) (Record.dictValue values id) id)
      (references word values) := by
  have real : isCommentKey (Keyword.word word) = false := by
    simpa using isCommentKey_word_append word ""
  refine Reads.field real (fun written given => ?_) fun absent => ?_
  · rw [Record.dictValue_eq_map] at given
    obtain ⟨kept, same, rfl⟩ := Option.map_eq_some_iff.mp given
    rw [Record.eq_of_someDict same, readMember_word]
    have names := Member.withoutComments_eq_self uncommented
    simp only [Record.ofDict, nestedReferences, id_eq, List.map_id', names]
    rfl
  · rw [Record.dictValue_eq_map, Option.map_eq_none_iff] at absent
    have empty := Record.getD_someDict values
    rw [absent] at empty
    rw [← empty]
    rfl

/-! ## Test objects -/

/-- The members that a test case is written as. -/
theorem reads_written (nothingSet : test.stateSet = .empty)
    (uncommented : ∀ kind, ∀ name ∈ (test.values kind).keys, isCommentKey name = false) :
    Reads (Record.members test.written)
      (references .inputs test.inputs ++ (references .outputs test.outputs ++
        references .state test.state)) := by
  have description : Reads (Record.field? "description" (test.description.map .string) id) [] := by
    refine Reads.field (by decide) (fun written given => ?_) fun _ => rfl
    obtain ⟨text, -, rfl⟩ := Option.map_eq_some_iff.mp given
    rfl
  have setup : Reads (Record.field? "setup" (test.setup.map id) id) [] :=
    Reads.field (by decide) (fun _ _ => rfl) fun _ => rfl
  -- The word for the state to set up is spelled differently when it is read.
  have stateSet : Reads (Record.field? "stateSet" (Record.dictValue test.stateSet id) id) [] := by
    rw [nothingSet]
    exact Reads.nil
  have inputs : Reads (Record.field? "inputs" (Record.dictValue test.inputs id) id)
      (references .inputs test.inputs) := reads_values .inputs (uncommented .inputs)
  have outputs : Reads (Record.field? "outputs" (Record.dictValue test.outputs id) id)
      (references .outputs test.outputs) := reads_values .outputs (uncommented .outputs)
  have state : Reads (Record.field? "state" (Record.dictValue test.state id) id)
      (references .state test.state) := reads_values .state (uncommented .state)
  have all := description.append (inputs.append (outputs.append (state.append
    (stateSet.append (setup.append Reads.nil)))))
  simpa only [TestCase.written, Record.members_cons, Record.members_nil, List.append_nil,
    List.nil_append] using all

private theorem assignAll_sections (nothingSet : test.stateSet = .empty) :
    assignAll { TestCase.empty with description := test.description, setup := test.setup }
      (references .inputs test.inputs ++ (references .outputs test.outputs ++
        references .state test.state)) = test := by
  let bare : TestCase :=
    { TestCase.empty with description := test.description, setup := test.setup }
  have inputs : assignAll bare (references .inputs test.inputs) =
      { bare with inputs := test.inputs } := assignAll_references rfl
  have outputs : assignAll { bare with inputs := test.inputs } (references .outputs test.outputs) =
      { bare with inputs := test.inputs, outputs := test.outputs } := assignAll_references rfl
  have state : assignAll { bare with inputs := test.inputs, outputs := test.outputs }
      (references .state test.state) =
        { bare with inputs := test.inputs, outputs := test.outputs, state := test.state } :=
    assignAll_references rfl
  rw [assignAll_append, assignAll_append, inputs, outputs, state]
  obtain ⟨description, inputs, outputs, state, stateSet, setup⟩ := test
  cases nothingSet
  rfl

private theorem referenceFinding?_eq_none {values : Dict Json} {reference : TestReference}
    (declared : ∀ name ∈ values.keys, Entry.Declared entry.members word.part name)
    (listed : reference ∈ references word values) : referenceFinding? entry reference = none := by
  obtain ⟨given, inValues, rfl⟩ := List.mem_map.mp listed
  have present := declared given.1 (List.mem_map_of_mem inValues)
  rw [referenceFinding?, if_pos (Entry.declares_iff.mpr present)]

/-- A test case with names that are declared is read from what it is written as. -/
theorem readTest_toJson (nothingSet : test.stateSet = .empty)
    (uncommented : ∀ kind, ∀ name ∈ (test.values kind).keys, isCommentKey name = false)
    (declared : ∀ kind, ∀ name ∈ (test.values kind).keys,
      Entry.Declared entry.members kind.part name) :
    readTest entry test.toJson = .clean (some test) := by
  obtain ⟨made, clean⟩ := reads_written nothingSet uncommented
  have description : ((Record.members test.written).lookup "description").bind
      (fun value => (checkDescription value).value) = test.description := by
    have written : (Record.members test.written).lookup "description" =
        test.description.map .string := TestCase.lookup_written (by simp [TestCase.written])
    rw [written]
    cases test.description <;> rfl
  have setup : (Record.members test.written).lookup "setup" = test.setup.map id :=
    TestCase.lookup_written (by simp [TestCase.written])
  rw [Option.map_id_apply] at setup
  have resolved : (references .inputs test.inputs ++ (references .outputs test.outputs ++
      references .state test.state)).filterMap (referenceFinding? entry) = [] := by
    refine List.filterMap_eq_nil_iff.mpr fun reference listed => ?_
    rcases List.mem_append.mp listed with inInputs | others
    · exact referenceFinding?_eq_none (declared .inputs) inInputs
    · rcases List.mem_append.mp others with inOutputs | inState
      · exact referenceFinding?_eq_none (declared .outputs) inOutputs
      · exact referenceFinding?_eq_none (declared .state) inState
  rw [TestCase.toJson_eq_written]
  simp only [readTest, made, clean, resolved, description, setup, List.append_nil,
    assignAll_sections nothingSet]
  rfl

end TestList

end NodeDescriptor
