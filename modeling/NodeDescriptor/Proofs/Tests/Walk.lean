import NodeDescriptor.Proofs.Entry.Kept
import NodeDescriptor.Proofs.FirstOccurrences
import NodeDescriptor.Proofs.FixedPoint.Tests
import NodeDescriptor.Proofs.Independence

/-!
# Walking through tests

A test object gives values to attributes in several spellings, and three of its words go to the
state. All the same it says no more than a flat list of references: the one that a walk through its
members meets in order. The values of the test case are collected from this list, and the names in
it are looked up one by one.
-/

set_option autoImplicit false

namespace NodeDescriptor

instance {members : List (String × Json)} {part : Section} {name : String} :
    Decidable (Entry.Declared members part name) :=
  decidable_of_iff _ (@Entry.declares_iff ⟨"", members⟩ part name)

namespace TestList

/-! ## Walks -/

/-- The references that a walk meets in one member of a test object. -/
inductive Contributes : String × Json → List TestReference → Prop where
  | skipped {key : String} {value : Json}
      (plain : isCommentKey key = true ∨ key = "description" ∨ key = "setup") :
      Contributes (key, value) []
  | nested (word : TestWord) (names : List (String × Json)) :
      Contributes (Keyword.word word, .object names)
        ((Member.withoutComments names).map fun given => ⟨word, given.1, given.2⟩)
  | misshapen (word : TestWord) {value : Json} (other : ∀ names, value ≠ .object names) :
      Contributes (Keyword.word word, value) []
  | namespaced (word : TestWord) (name : String) (value : Json) :
      Contributes (Keyword.word word ++ ":" ++ name, value) [⟨word, name, value⟩]
  | unread {key : String} {value : Json} (unspelled : ∀ word : TestWord, key ≠ Keyword.word word)
      (unnamed : ∀ (word : TestWord) (name : String), key ≠ Keyword.word word ++ ":" ++ name) :
      Contributes (key, value) []

/-- The references that a walk through the members of a test object meets. -/
inductive Walks : List (String × Json) → List TestReference → Prop where
  | nil : Walks [] []
  | cons {member : String × Json} {members : List (String × Json)}
      {first rest : List TestReference} (head : Contributes member first)
      (tail : Walks members rest) : Walks (member :: members) (first ++ rest)

/-- The walks through the test objects of a list from a position on, each with the position of its
test object. -/
inductive ListWalks : Nat → List Json → List (Nat × List TestReference) → Prop where
  | nil {position : Nat} : ListWalks position [] []
  | object {position : Nat} {members : List (String × Json)} {references : List TestReference}
      {items : List Json} {walks : List (Nat × List TestReference)}
      (walked : Walks members references) (rest : ListWalks (position + 1) items walks) :
      ListWalks position (.object members :: items) ((position, references) :: walks)
  | other {position : Nat} {item : Json} {items : List Json}
      {walks : List (Nat × List TestReference)} (plain : ∀ members, item ≠ .object members)
      (rest : ListWalks (position + 1) items walks) : ListWalks position (item :: items) walks

variable {entry : Entry} {member : String × Json} {members : List (String × Json)}
  {references : List TestReference} {items : List Json} {position : Nat}
  {walks : List (Nat × List TestReference)}

/-! ## What is read on a walk -/

private theorem isCommentKey_word (word : TestWord) : isCommentKey (Keyword.word word) = false := by
  simpa using isCommentKey_word_append word ""

private theorem isCommentKey_namespaced (word : TestWord) (name : String) :
    isCommentKey (Keyword.word word ++ ":" ++ name) = false := by
  rw [String.append_assoc]
  exact isCommentKey_word_append word (":" ++ name)

private theorem value_readMember_of_unread {key : String} {value : Json}
    (unspelled : ∀ word : TestWord, key ≠ Keyword.word word)
    (unnamed : ∀ (word : TestWord) (name : String), key ≠ Keyword.word word ++ ":" ++ name) :
    (readMember (key, value)).value = [] := by
  rw [List.eq_nil_iff_forall_not_mem]
  intro reference listed
  rcases mem_value_readMember.mp listed with ⟨names, written, -, -⟩ | written
  · exact unspelled reference.word (Prod.mk.inj written).1
  · exact unnamed reference.word reference.name (Prod.mk.inj written).1

private theorem value_readMember_namespaced (word : TestWord) (name : String) (value : Json) :
    (readMember (Keyword.word word ++ ":" ++ name, value)).value = [⟨word, name, value⟩] := by
  have read : namespacedReference? (Keyword.word word ++ ":" ++ name) value =
      some ⟨word, name, value⟩ := namespacedReference?_eq_some_iff.mpr ⟨rfl, rfl⟩
  have colon : ':' ∈ (Keyword.word word ++ ":" ++ name).toList := by simp
  have undescribed : Keyword.word word ++ ":" ++ name ≠ "description" := fun same =>
    absurd (same ▸ colon) (by decide)
  have unprepared : Keyword.word word ++ ":" ++ name ≠ "setup" := fun same =>
    absurd (same ▸ colon) (by decide)
  have unspelled : (Keyword.ofWord? (Keyword.word word ++ ":" ++ name) : Option TestWord) =
      none := by
    refine Option.eq_none_iff_forall_ne_some.mpr fun other spelled => ?_
    exact colon_not_mem_word other ((Keyword.ofWord?_eq_some_iff.mp spelled).symm ▸ colon)
  simp only [readMember, undescribed, unprepared, if_false, unspelled, read]
  rfl

private theorem Contributes.eq_nil_of_comment (contributes : Contributes member references)
    (comment : isCommentKey member.1 = true) : references = [] := by
  cases contributes with
  | skipped | misshapen | unread => rfl
  | nested word names =>
      rw [isCommentKey_word] at comment
      cases comment
  | namespaced word name value =>
      rw [isCommentKey_namespaced] at comment
      cases comment

private theorem Contributes.value_readMember (contributes : Contributes member references)
    (uncommented : isCommentKey member.1 = false) : (readMember member).value = references := by
  cases contributes with
  | skipped plain =>
      rcases plain with comment | rfl | rfl
      · rw [comment] at uncommented
        cases uncommented
      · rfl
      · rfl
  | nested word names =>
      rw [readMember_word]
      rfl
  | @misshapen word value other =>
      rw [readMember_word]
      cases value with
      | object names => exact absurd rfl (other names)
      | _ => rfl
  | namespaced word name value => exact value_readMember_namespaced word name value
  | unread unspelled unnamed => exact value_readMember_of_unread unspelled unnamed

private theorem Walks.references_eq (walked : Walks members references) :
    ((Member.withoutComments members).map readMember).flatMap Checked.value = references := by
  induction walked with
  | nil => rfl
  | @cons member members first rest head _ ih =>
      cases comment : isCommentKey member.1 with
      | true =>
          have hidden : Member.withoutComments (member :: members) =
              Member.withoutComments members := by simp [Member.withoutComments, comment]
          rw [hidden, ih, head.eq_nil_of_comment comment, List.nil_append]
      | false =>
          have kept : Member.withoutComments (member :: members) =
              member :: Member.withoutComments members := by simp [Member.withoutComments, comment]
          rw [kept, List.map_cons, List.flatMap_cons, ih, head.value_readMember comment]

private theorem exists_contributes (member : String × Json) :
    ∃ references, Contributes member references := by
  obtain ⟨key, value⟩ := member
  by_cases spelled : ∃ word : TestWord, key = Keyword.word word
  · obtain ⟨word, rfl⟩ := spelled
    cases value with
    | object names => exact ⟨_, .nested word names⟩
    | _ => exact ⟨[], .misshapen word fun names => by simp⟩
  · by_cases named : ∃ (word : TestWord) (name : String), key = Keyword.word word ++ ":" ++ name
    · obtain ⟨word, name, rfl⟩ := named
      exact ⟨_, .namespaced word name value⟩
    · refine ⟨[], .unread (fun word same => spelled ⟨word, same⟩) fun word name same => ?_⟩
      exact named ⟨word, name, same⟩

private theorem exists_walks (members : List (String × Json)) :
    ∃ references, Walks members references := by
  induction members with
  | nil => exact ⟨[], .nil⟩
  | cons member members ih =>
      obtain ⟨first, head⟩ := exists_contributes member
      obtain ⟨rest, tail⟩ := ih
      exact ⟨first ++ rest, .cons head tail⟩

private theorem exists_listWalks (position : Nat) (items : List Json) :
    ∃ walks, ListWalks position items walks := by
  induction items generalizing position with
  | nil => exact ⟨[], .nil⟩
  | cons item items ih =>
      obtain ⟨walks, rest⟩ := ih (position + 1)
      cases item with
      | object members =>
          obtain ⟨references, walked⟩ := exists_walks members
          exact ⟨_, .object walked rest⟩
      | _ => exact ⟨walks, .other (fun members => by simp) rest⟩

/-! ## Values -/

/-- The words under which values of a kind are given. -/
def wordsFor : TestValues → List TestWord
  | .inputs => [.inputs]
  | .outputs => [.outputs]
  | .state => [.state, .stateGet]
  | .stateSet => [.stateSet]

/-- The names and the values of the references of a kind. -/
def givenTo (kind : TestValues) (references : List TestReference) : List (String × Json) :=
  (references.filter fun reference => reference.word ∈ wordsFor kind).map fun reference =>
    (reference.name, reference.value)

private theorem mem_wordsFor_iff {word : TestWord} {kind : TestValues} :
    word ∈ wordsFor kind ↔ word.values = kind := by
  cases word <;> cases kind <;> decide

private theorem values_assign {test : TestCase} {kind other : TestValues} {name : String}
    {value : Json} :
    (test.assign other name value).values kind =
      if other = kind then (test.values kind).insert name value else test.values kind := by
  cases other <;> cases kind <;> rfl

private theorem entries_assignAll {test : TestCase} {kind : TestValues} :
    ((assignAll test references).values kind).entries =
      Entries.merge (test.values kind).entries (givenTo kind references) := by
  induction references generalizing test with
  | nil => rfl
  | cons reference rest ih =>
      have step : assignAll test (reference :: rest) =
          assignAll (test.assign reference.word.values reference.name reference.value) rest := rfl
      rw [step, ih, values_assign]
      by_cases same : reference.word.values = kind
      · have first : givenTo kind (reference :: rest) =
            (reference.name, reference.value) :: givenTo kind rest := by
          simp [givenTo, mem_wordsFor_iff, same]
        rw [if_pos same, first]
        rfl
      · have passed : givenTo kind (reference :: rest) = givenTo kind rest := by
          simp [givenTo, mem_wordsFor_iff, same]
        rw [if_neg same, passed]

private theorem collects_of_walks (walked : Walks members references) :
    ∃ test, (readTest entry (.object members)).value = some test ∧
      ∀ kind, (test.values kind).Collects (givenTo kind references) := by
  refine ⟨_, rfl, fun kind => Dict.collects_of_entries ?_⟩
  rw [entries_assignAll, walked.references_eq]
  cases kind <;> rfl

private theorem ListWalks.collects (walked : ListWalks position items walks) :
    List.Forall₂ (fun walk test => ∀ kind, (test.values kind).Collects (givenTo kind walk.2)) walks
      (items.filterMap fun item => (readTest entry item).value) := by
  induction walked with
  | nil => exact .nil
  | object walked _ ih =>
      obtain ⟨test, read, collects⟩ := @collects_of_walks entry _ _ walked
      simp only [List.filterMap_cons, read]
      exact .cons collects ih
  | @other _ item _ _ plain _ ih =>
      have unread : (readTest entry item).value = none := by
        cases item with
        | object members => exact absurd rfl (plain members)
        | _ => rfl
      simp only [List.filterMap_cons, unread]
      exact ih

/-! ## Names -/

/-- The report on a reference of the test at a position to something that is not declared. -/
def unresolved (name : String) (position : Nat) (reference : TestReference) : Diagnostic :=
  ⟨(((((FieldPath.entry name).key "tests").index position).key
      (Keyword.word reference.word)).key reference.name).text,
    .unresolvedReference (Keyword.word reference.word.part) reference.name⟩

/-- The reports on the references of a walk that the entry does not declare. -/
def unresolvedReports (name : String) (members : List (String × Json))
    (walk : Nat × List TestReference) : List Diagnostic :=
  (walk.2.filter fun reference =>
    ¬Entry.Declared members reference.word.part reference.name).map (unresolved name walk.1)

private theorem kind_of_mem_readMember {finding : Finding}
    (found : finding ∈ (readMember member).findings) : finding.problem.kind = .wrongShape := by
  obtain ⟨key, value⟩ := member
  simp only [readMember] at found
  split at found
  · obtain ⟨inner, listed, rfl⟩ := List.mem_map.mp found
    rw [checkDescription, Checked.findings_map, Member.strings, Member.form] at listed
    split at listed
    · cases listed
    · rw [List.mem_singleton.mp listed]
      rfl
  · split at found
    · cases found
    · split at found
      · rename_i word _
        obtain ⟨inner, listed, rfl⟩ := List.mem_map.mp found
        cases value with
        | object names => cases listed
        | _ =>
            rw [List.mem_singleton.mp listed]
            rfl
      · cases found

/-- Where the test at a position stands in the document. -/
def testPath (name : String) (position : Nat) : FieldPath :=
  ((FieldPath.entry name).key "tests").index position

private theorem filterMap_referenceFinding? (references : List TestReference) (position : Nat) :
    (references.filterMap (referenceFinding? entry)).map
        (fun finding => (finding.inside (testPath entry.name position)).diagnostic) =
      unresolvedReports entry.name entry.members (position, references) := by
  induction references with
  | nil => rfl
  | cons reference rest ih =>
      by_cases declared : Entry.Declared entry.members reference.word.part reference.name
      · have silent : referenceFinding? entry reference = none := by
          rw [referenceFinding?, if_pos (Entry.declares_iff.mpr declared)]
        have passed : unresolvedReports entry.name entry.members (position, reference :: rest) =
            unresolvedReports entry.name entry.members (position, rest) := by
          simp [unresolvedReports, declared]
        rw [List.filterMap_cons_none silent, ih, passed]
      · have undeclared : ¬entry.declares reference.word.part reference.name = true :=
          fun present => declared (Entry.declares_iff.mp present)
        have reported : unresolvedReports entry.name entry.members (position, reference :: rest) =
            unresolved entry.name position reference ::
              unresolvedReports entry.name entry.members (position, rest) := by
          simp [unresolvedReports, declared]
        rw [reported, ← ih]
        simp [referenceFinding?, undeclared, unresolved, testPath, Finding.inside,
          Finding.diagnostic, FieldPath.inside, FieldPath.key, FieldPath.entry]

private theorem reports_of_walks (walked : Walks members references) (position : Nat) :
    ((readTest entry (.object members)).inside (testPath entry.name position)).diagnostics.filter
        (fun diagnostic => diagnostic.kind = .unresolvedReference) =
      unresolvedReports entry.name entry.members (position, references) := by
  let report (finding : Finding) : Diagnostic :=
    (finding.inside (testPath entry.name position)).diagnostic
  let inMembers := ((Member.withoutComments members).map readMember).flatMap Checked.findings
  have reported :
      ((readTest entry (.object members)).inside (testPath entry.name position)).diagnostics =
        inMembers.map report ++
          unresolvedReports entry.name entry.members (position, references) := by
    rw [← filterMap_referenceFinding?, ← walked.references_eq, ← List.map_append]
    simp only [readTest, Checked.diagnostics, Checked.findings_inside, List.map_map]
    rfl
  have shapes : (inMembers.map report).filter
      (fun diagnostic => diagnostic.kind = .unresolvedReference) = [] := by
    rw [List.filter_eq_nil_iff]
    intro diagnostic listed
    obtain ⟨finding, found, rfl⟩ := List.mem_map.mp listed
    obtain ⟨outcome, read, inOutcome⟩ := List.mem_flatMap.mp found
    obtain ⟨member, -, rfl⟩ := List.mem_map.mp read
    have shape : finding.problem.kind = .wrongShape := kind_of_mem_readMember inOutcome
    have sameKind : (report finding).kind = finding.problem.kind := rfl
    simp [sameKind, shape]
  have names : (unresolvedReports entry.name entry.members (position, references)).filter
      (fun diagnostic => diagnostic.kind = .unresolvedReference) =
        unresolvedReports entry.name entry.members (position, references) := by
    rw [List.filter_eq_self]
    intro diagnostic listed
    obtain ⟨reference, -, rfl⟩ := List.mem_map.mp listed
    rfl
  rw [reported, List.filter_append, shapes, names, List.nil_append]

theorem ListWalks.reports (walked : ListWalks position items walks) :
    ((items.zipIdx position).flatMap fun item =>
        ((readTest entry item.1).inside (testPath entry.name item.2)).diagnostics).filter
        (fun diagnostic => diagnostic.kind = .unresolvedReference) =
      walks.flatMap (unresolvedReports entry.name entry.members) := by
  induction walked with
  | nil => rfl
  | @object position _ _ _ _ walked _ ih =>
      rw [List.zipIdx_cons, List.flatMap_cons, List.filter_append, ih, List.flatMap_cons,
        reports_of_walks walked position]
  | @other position item _ _ plain _ ih =>
      have unread : readTest entry item = .refused (.wrongShape "a test object") := by
        cases item with
        | object members => exact absurd rfl (plain members)
        | _ => rfl
      rw [List.zipIdx_cons, List.flatMap_cons, List.filter_append, ih, unread]
      rfl

/-! ## Lists of tests -/

variable {options : Options} {name : String}

theorem tests_run (given : members.lookup "tests" = some (.array items)) :
    (Stage.tests.run options ⟨name, members⟩ (Node.ofName name)).value.tests =
      items.filterMap fun item => (readTest ⟨name, members⟩ item).value := by
  simp only [Stage.run, check, Member.optional, given, Checked.value_map, Checked.value_inside,
    value_read_array, Option.getD_some]
  rfl

private theorem raised_tests (given : members.lookup "tests" = some (.array items)) :
    Pipeline.raised ⟨[.tests], options⟩ (name, .object members) =
      items.zipIdx.flatMap fun item =>
        ((readTest ⟨name, members⟩ item.1).inside (testPath name item.2)).diagnostics := by
  simp only [Pipeline.raised, Pipeline.checkEntry, Stage.runAll, Stage.run, check, Member.optional,
    given, read, Checked.diagnostics, Checked.findings_inside, Checked.findings_map,
    Checked.findings_clean, List.append_nil, List.map_flatMap, List.flatMap_map, List.map_map]
  rfl

/-- Every list of tests can be walked through. Of each test object the stage makes, on a new node, a
test case that has for every kind of values the names of the references of that kind, in the order
in which the walk meets them first, each with the value that it meets last. What is reported as
unresolved are, in the order of the walk, the references to something that the entry does not
declare, each under the word and the name that it is written with. -/
theorem tests_collect_references (options : Options) (name : String)
    (members : List (String × Json)) (items : List Json)
    (given : members.lookup "tests" = some (.array items)) :
    (∃ walks, ListWalks 0 items walks) ∧
      ∀ walks, ListWalks 0 items walks →
        List.Forall₂ (fun walk test => ∀ kind, (test.values kind).Collects (givenTo kind walk.2))
          walks (Stage.tests.run options ⟨name, members⟩ (Node.ofName name)).value.tests ∧
        (Pipeline.raised ⟨[.tests], options⟩ (name, .object members)).filter
            (fun diagnostic => diagnostic.kind = .unresolvedReference) =
          walks.flatMap (unresolvedReports name members) := by
  refine ⟨exists_listWalks 0 items, fun walks walked => ⟨?_, ?_⟩⟩
  · rw [tests_run given]
    exact walked.collects
  · rw [raised_tests given]
    exact walked.reports

def mixedTests : List Json :=
  [.object [("description", .string "Mixed."),
      ("state_get", .object [("count", .ofNat 1), ("gone", .ofNat 2), ("$note", .null)]),
      ("inputs:b:c", .ofNat 1), ("state:count", .ofNat 3), ("inputs", .object [("a", .ofNat 1)]),
      ("inputs:a", .ofNat 2), ("speed", .ofNat 9)],
    .null, .object [("state_set:count", .ofNat 0), ("outputs", .object [("sum", .ofNat 1)])]]

def mixedEntry : List (String × Json) :=
  [("inputs", .object [("a", .null), ("b:c", .null)]), ("state", .object [("count", .null)]),
    ("tests", .array mixedTests)]

def mixedWalks : List (Nat × List TestReference) :=
  [(0, [⟨.stateGet, "count", .ofNat 1⟩, ⟨.stateGet, "gone", .ofNat 2⟩, ⟨.inputs, "b:c", .ofNat 1⟩,
      ⟨.state, "count", .ofNat 3⟩, ⟨.inputs, "a", .ofNat 1⟩, ⟨.inputs, "a", .ofNat 2⟩]),
    (2, [⟨.stateSet, "count", .ofNat 0⟩, ⟨.outputs, "sum", .ofNat 1⟩])]

private theorem listWalks_mixedTests : ListWalks 0 mixedTests mixedWalks := by
  have colonFree (word : TestWord) (name : String) :
      "speed" ≠ Keyword.word word ++ ":" ++ name := by
    intro same
    have colon : ':' ∈ "speed".toList := by
      rw [same]
      simp
    exact absurd colon (by decide)
  have first := Walks.cons (@Contributes.skipped "description" (.string "Mixed.") (by decide))
    (.cons (.nested .stateGet [("count", .ofNat 1), ("gone", .ofNat 2), ("$note", .null)])
      (.cons (.namespaced .inputs "b:c" (.ofNat 1)) (.cons (.namespaced .state "count" (.ofNat 3))
        (.cons (.nested .inputs [("a", .ofNat 1)]) (.cons (.namespaced .inputs "a" (.ofNat 2))
          (.cons (@Contributes.unread "speed" (.ofNat 9) (fun word => by cases word <;> decide)
            colonFree) .nil))))))
  have second := Walks.cons (.namespaced .stateSet "count" (.ofNat 0))
    (.cons (.nested .outputs [("sum", .ofNat 1)]) .nil)
  exact .object first (.other (fun members => by simp) (.object second .nil))

theorem mixedTests_collected :
    mixedEntry.lookup "tests" = some (.array mixedTests) ∧ ListWalks 0 mixedTests mixedWalks ∧
      List.Forall₂ (fun walk test => ∀ kind, (test.values kind).Collects (givenTo kind walk.2))
        mixedWalks (Stage.tests.run .standard ⟨"N", mixedEntry⟩ (Node.ofName "N")).value.tests ∧
      (Pipeline.raised ⟨[.tests], .standard⟩ ("N", .object mixedEntry)).filter
          (fun diagnostic => diagnostic.kind = .unresolvedReference) =
        [⟨"N.tests[0].state_get.gone", .unresolvedReference "state" "gone"⟩,
          ⟨"N.tests[2].outputs.sum", .unresolvedReference "outputs" "sum"⟩] := by
  obtain ⟨-, each⟩ := tests_collect_references .standard "N" mixedEntry mixedTests rfl
  obtain ⟨collected, reported⟩ := each mixedWalks listWalks_mixedTests
  have unresolved : mixedWalks.flatMap (unresolvedReports "N" mixedEntry) =
      [⟨"N.tests[0].state_get.gone", .unresolvedReference "state" "gone"⟩,
        ⟨"N.tests[2].outputs.sum", .unresolvedReference "outputs" "sum"⟩] := by decide +kernel
  exact ⟨rfl, listWalks_mixedTests, collected, reported.trans unresolved⟩

end TestList

end NodeDescriptor
