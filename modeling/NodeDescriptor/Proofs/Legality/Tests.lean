import NodeDescriptor.Entry.TestList
import NodeDescriptor.Proofs.Dict
import NodeDescriptor.Proofs.Legality.Fields
import NodeDescriptor.Proofs.Text.Split

/-!
# Legal tests of an entry

A member of a test object gives values to attributes in one of two spellings, and everything that
is given has to be declared by the entry. Which references a member makes is settled here once;
the legality of a list of tests and the values of the test cases both follow from it.
-/

set_option autoImplicit false

namespace NodeDescriptor

/-! ## Declarations -/

/-- The entry writes a section as an object with a member of this name, whatever its value is. -/
def Entry.Declared (members : List (String × Json)) (part : Section) (name : String) : Prop :=
  ∃ attributes, members.lookup (Keyword.word part) = some (.object attributes) ∧
    name ∈ Entries.keys attributes

theorem Entry.declares_iff {entry : Entry} {part : Section} {name : String} :
    entry.declares part name = true ↔ Entry.Declared entry.members part name := by
  unfold Entry.declares Entry.Declared
  cases found : (entry.members.lookup (Keyword.word part)).bind Json.asObject? with
  | none =>
      simp only [Bool.false_eq_true, false_iff, not_exists, not_and]
      intro attributes written
      simp [written, Json.asObject?] at found
  | some attributes =>
      obtain ⟨value, written, read⟩ := Option.bind_eq_some_iff.mp found
      rw [Json.asObject?_eq_some_iff] at read
      subst read
      simp only [written, Option.some.injEq, Json.object.injEq, exists_eq_left',
        Entries.lookup_isSome_iff]

namespace TestList

/-! ## References -/

/-- A member of a test object gives a value to an attribute: in an object under a section word,
or by itself under a section word, a colon and the name. -/
inductive Gives (member : String × Json) (reference : TestReference) : Prop where
  | nested (names : List (String × Json))
      (written : member = (Keyword.word reference.word, .object names))
      (given : (reference.name, reference.value) ∈ names)
      (uncommented : isCommentKey reference.name = false)
  | namespaced
      (written : member = (Keyword.word reference.word ++ ":" ++ reference.name, reference.value))

theorem colon_not_mem_word (word : TestWord) : ':' ∉ (Keyword.word word).toList := by
  cases word <;> decide

theorem isCommentKey_word_append (word : TestWord) (rest : String) :
    isCommentKey (Keyword.word word ++ rest) = false := by
  cases word <;> simp [isCommentKey, Keyword.word]

theorem namespacedReference?_eq_some_iff {key : String} {value : Json}
    {reference : TestReference} :
    namespacedReference? key value = some reference ↔
      key = Keyword.word reference.word ++ ":" ++ reference.name ∧ reference.value = value := by
  obtain ⟨word, name, given⟩ := reference
  simp only [namespacedReference?, Option.bind_eq_some_iff, Option.map_eq_some_iff, Prod.exists,
    Text.splitFirst?_eq_some_iff, Keyword.ofWord?_eq_some_iff]
  constructor
  · intro read
    obtain ⟨before, after, ⟨-, split⟩, other, spelled, shape⟩ := read
    cases shape
    refine ⟨?_, rfl⟩
    rw [← String.toList_inj, split, spelled]
    simp
  · intro same
    obtain ⟨rfl, rfl⟩ := same
    refine ⟨(Keyword.word word).toList, name.toList, ⟨colon_not_mem_word word, ?_⟩, word, ?_, ?_⟩
    · simp
    · simp
    · simp

/-- Under a section word an object of values is read. -/
theorem readMember_word (word : TestWord) (value : Json) :
    readMember (Keyword.word word, value) =
      (nestedReferences word value).inside (.entry (Keyword.word word)) := by
  have undescribed : Keyword.word word ≠ "description" := by cases word <;> decide
  have unprepared : Keyword.word word ≠ "setup" := by cases word <;> decide
  simp only [readMember, undescribed, unprepared, if_false, Keyword.ofWord?_word]

private theorem not_gives_of_separate {key : String} {value : Json} {reference : TestReference}
    (unnested : ∀ word : TestWord, Keyword.word word ≠ key) (colonFree : ':' ∉ key.toList) :
    ¬Gives (key, value) reference := by
  intro written
  rcases written with ⟨names, written, -, -⟩ | written
  · exact unnested reference.word (Prod.mk.inj written).1.symm
  · have same := (Prod.mk.inj written).1
    apply colonFree
    simp [same]

private theorem mem_nestedReferences {word : TestWord} {value : Json} {reference : TestReference} :
    reference ∈ (nestedReferences word value).value ↔
      Gives (Keyword.word word, value) reference := by
  constructor
  · intro member
    cases value with
    | object names =>
        obtain ⟨⟨name, given⟩, listed, rfl⟩ := List.mem_map.mp member
        obtain ⟨inNames, uncommented⟩ := Member.mem_withoutComments.mp listed
        exact .nested names rfl inNames uncommented
    | _ => simp [nestedReferences] at member
  · intro written
    rcases written with ⟨names, written, given, uncommented⟩ | written
    · obtain ⟨spelled, rfl⟩ := Prod.mk.inj written
      obtain rfl := Keyword.word_injective spelled
      exact List.mem_map.mpr ⟨(reference.name, reference.value),
        Member.mem_withoutComments.mpr ⟨given, uncommented⟩, rfl⟩
    · exfalso
      apply colon_not_mem_word word
      rw [(Prod.mk.inj written).1]
      simp

/-- The references that are read from a member are those that it gives. -/
theorem mem_value_readMember {member : String × Json} {reference : TestReference} :
    reference ∈ (readMember member).value ↔ Gives member reference := by
  obtain ⟨key, value⟩ := member
  unfold readMember
  -- The keys that are read otherwise hold no colon and are no section words.
  by_cases described : key = "description"
  · subst described
    have separate : ¬Gives ("description", value) reference :=
      not_gives_of_separate (fun word => by cases word <;> decide) (by decide)
    simp [separate]
  · by_cases prepared : key = "setup"
    · subst prepared
      have separate : ¬Gives ("setup", value) reference :=
        not_gives_of_separate (fun word => by cases word <;> decide) (by decide)
      simp [separate]
    · simp only [described, prepared, if_false]
      cases spelled : (Keyword.ofWord? key : Option TestWord) with
      | some word =>
          rw [Keyword.ofWord?_eq_some_iff] at spelled
          subst spelled
          exact mem_nestedReferences
      | none =>
          simp only [Checked.value_clean, Option.mem_toList,
            namespacedReference?_eq_some_iff]
          constructor
          · intro same
            obtain ⟨rfl, rfl⟩ := same
            exact .namespaced rfl
          · intro written
            rcases written with ⟨names, written, -, -⟩ | written
            · obtain ⟨rfl, -⟩ := Prod.mk.inj written
              simp at spelled
            · obtain ⟨rfl, rfl⟩ := Prod.mk.inj written
              exact ⟨rfl, rfl⟩

private theorem not_isCommentKey_of_gives {member : String × Json} {reference : TestReference}
    (given : Gives member reference) : isCommentKey member.1 = false := by
  rcases given with ⟨names, rfl, -, -⟩ | rfl
  · simpa using isCommentKey_word_append reference.word ""
  · rw [String.append_assoc]
    exact isCommentKey_word_append reference.word (":" ++ reference.name)

/-! ## Legal tests -/

/-- A test object with a readable description and declared references only. -/
structure LegalTest (entry : List (String × Json)) (test : List (String × Json)) : Prop where
  description : ∀ value, ("description", value) ∈ test → value.IsStrings
  nested : ∀ (word : TestWord) (value : Json), (Keyword.word word, value) ∈ test →
    ∃ names, value = .object names
  declared : ∀ member ∈ test, ∀ reference, Gives member reference →
    Entry.Declared entry reference.word.part reference.name

/-- The tests, if there are any, are a list of legal test objects. -/
def Legal (members : List (String × Json)) : Prop :=
  Member.AbsentOr members "tests" fun value =>
    ∃ items, value = .array items ∧
      ∀ item ∈ items, ∃ test, item = .object test ∧ LegalTest members test

private theorem faultless_checkDescription {value : Json} :
    Faultless (checkDescription value).findings ↔ value.IsStrings := by
  rw [checkDescription, Checked.findings_map, Member.strings, Member.faultless_form,
    Json.strings?_isSome_iff]

private theorem faultless_nestedReferences {word : TestWord} {value : Json} :
    Faultless (nestedReferences word value).findings ↔ ∃ names, value = .object names := by
  cases value <;> simp [nestedReferences, Problem.kind]

private theorem faultless_readMember {member : String × Json} :
    Faultless (readMember member).findings ↔
      (member.1 = "description" → member.2.IsStrings) ∧
        ∀ word : TestWord, member.1 = Keyword.word word → ∃ names, member.2 = .object names := by
  obtain ⟨key, value⟩ := member
  unfold readMember
  by_cases described : key = "description"
  · subst described
    have unnested : ∀ word : TestWord, "description" ≠ Keyword.word word := by
      intro word
      cases word <;> decide
    simp [faultless_checkDescription, unnested]
  · by_cases prepared : key = "setup"
    · subst prepared
      have unnested : ∀ word : TestWord, "setup" ≠ Keyword.word word := by
        intro word
        cases word <;> decide
      simp [unnested]
    · simp only [described, prepared, if_false, false_implies, true_and]
      cases spelled : (Keyword.ofWord? key : Option TestWord) with
      | some word =>
          rw [Keyword.ofWord?_eq_some_iff] at spelled
          subst spelled
          simp only [Checked.findings_inside, Faultless.inside_iff, faultless_nestedReferences]
          exact ⟨fun shape _ _ => shape, fun each => each word rfl⟩
      | none =>
          have unnested : ∀ word : TestWord, key ≠ Keyword.word word := by
            intro word same
            cases same
            simp at spelled
          simp [unnested]

private theorem faultless_references {entry : Entry} {references : List TestReference} :
    Faultless (references.filterMap (referenceFinding? entry)) ↔
      ∀ reference ∈ references,
        Entry.Declared entry.members reference.word.part reference.name := by
  rw [Faultless.filterMap_iff]
  refine forall₂_congr fun reference _ => ?_
  rw [← Entry.declares_iff, referenceFinding?]
  cases entry.declares reference.word.part reference.name <;> simp [Problem.kind]

/-- The references of a test object, over all its members. -/
theorem mem_references {test : List (String × Json)} {reference : TestReference} :
    reference ∈ ((Member.withoutComments test).map readMember).flatMap Checked.value ↔
      ∃ member ∈ test, Gives member reference := by
  simp only [List.mem_flatMap, List.mem_map, exists_exists_and_eq_and, mem_value_readMember,
    Member.mem_withoutComments]
  constructor
  · intro given
    obtain ⟨member, ⟨listed, -⟩, given⟩ := given
    exact ⟨member, listed, given⟩
  · intro given
    obtain ⟨member, listed, given⟩ := given
    exact ⟨member, ⟨listed, not_isCommentKey_of_gives given⟩, given⟩

private theorem faultless_members {test : List (String × Json)} :
    Faultless (((Member.withoutComments test).map readMember).flatMap Checked.findings) ↔
      (∀ value, ("description", value) ∈ test → value.IsStrings) ∧
        ∀ (word : TestWord) (value : Json), (Keyword.word word, value) ∈ test →
          ∃ names, value = .object names := by
  simp only [List.flatMap_map, Faultless.flatMap_iff, faultless_readMember,
    Member.mem_withoutComments]
  constructor
  · intro each
    have undecorated : isCommentKey "description" = false := by decide
    refine ⟨fun value listed => (each _ ⟨listed, undecorated⟩).1 rfl, fun word value listed => ?_⟩
    have uncommented : isCommentKey (Keyword.word word) = false := by
      simpa using isCommentKey_word_append word ""
    exact (each _ ⟨listed, uncommented⟩).2 word rfl
  · intro forms member listed
    obtain ⟨description, nested⟩ := forms
    obtain ⟨key, value⟩ := member
    obtain ⟨listed, -⟩ := listed
    refine ⟨?_, ?_⟩
    · intro same
      cases same
      exact description value listed
    · intro word same
      cases same
      exact nested word value listed

private theorem faultless_readTest {entry : Entry} {value : Json} :
    Faultless (readTest entry value).findings ↔
      ∃ test, value = .object test ∧ LegalTest entry.members test := by
  cases value with
  | object test =>
      have whole : Faultless (readTest entry (.object test)).findings ↔
          LegalTest entry.members test := by
        simp only [readTest, Faultless.append_iff, faultless_members, faultless_references,
          mem_references]
        constructor
        · intro legal
          obtain ⟨⟨description, nested⟩, declared⟩ := legal
          exact ⟨description, nested, fun member listed reference given =>
            declared reference ⟨member, listed, given⟩⟩
        · intro legal
          obtain ⟨description, nested, declared⟩ := legal
          refine ⟨⟨description, nested⟩, ?_⟩
          intro reference given
          obtain ⟨member, listed, given⟩ := given
          exact declared member listed reference given
      rw [whole]
      simp
  | _ => simp [readTest, Problem.kind]

theorem faultless_check {entry : Entry} {node : Node} :
    Faultless (check entry node).findings ↔ Legal entry.members := by
  rw [check, Checked.findings_map, Member.faultless_optional]
  refine Member.AbsentOr.congr fun value => ?_
  cases value with
  | array items =>
      have each := @forall_mem_zipIdx Json items fun item =>
        ∃ test, item = .object test ∧ LegalTest entry.members test
      simp only [read, List.flatMap_map, Faultless.flatMap_iff, Checked.findings_inside,
        Faultless.inside_iff, faultless_readTest, each]
      simp
  | _ => simp [read, Problem.kind]

end TestList

end NodeDescriptor
