import NodeDescriptor.Proofs.Attribute.Result
import NodeDescriptor.Proofs.Entry.Names
import NodeDescriptor.Proofs.Json.Nesting
import NodeDescriptor.Proofs.RoundTrip.Model

/-!
# Nesting of nodes

The values of an entry get into a node at other depths than they have in the entry: texts become
lists, and a test value that is named by its key gets an object around it. What a node is written as
is at most one level deeper than its entry, and so are its attributes and its tests.
-/

set_option autoImplicit false

namespace NodeDescriptor

open Json

variable {distinct : Prop} {levels : Nat} {members : List (String × Json)}
  {options : Options} {entry : Entry} {node : Node}

/-- Members that are kept under their keys, comments apart, are members that were given. -/
theorem Json.Within.kept (each : ∀ member ∈ members, Within distinct levels member.2) :
    ∀ entry ∈ (Dict.ofList (Member.withoutComments members)).entries,
      Within distinct levels entry.2 := by
  intro entry listed
  exact each entry (Member.mem_withoutComments.mp (Dict.mem_of_mem_ofList listed)).1

/-! ## Attributes -/

namespace Attribute

private theorem within_type (type : AttributeType) : Within distinct (levels + 1) type.toJson := by
  cases type with
  | one type => exact .string type.text
  | anyOf types distinct => exact .ofStrings _

/-- An attribute is written at most one level deeper than the object that describes it. -/
theorem within_toJson {attr : Attribute} {name : String}
    (within : Within distinct levels (.object members))
    (described : attr.DescribedBy members name) :
    Within distinct (levels + 1) attr.toJson := by
  obtain ⟨inner, rfl, each⟩ := within.of_object
  have raw {key : String} {value? : Option Json} (found : members.lookup key = value?) :
      Within.Field distinct (inner + 1) value? := by
    rintro value rfl
    exact (each _ (Entries.mem_of_lookup found)).mono (Nat.le_succ inner)
  have metadata : ∀ entry ∈ attr.metadata.entries, Within distinct inner entry.2 := by
    have read := described.metadata
    generalize attr.metadata = metadata at read ⊢
    cases read with
    | absent =>
        intro entry listed
        cases listed
    | present found given =>
        obtain ⟨given, rfl, rfl⟩ := given
        obtain ⟨innermost, rfl, eachGiven⟩ := (each _ (Entries.mem_of_lookup found)).of_object
        exact Within.kept fun member listed =>
          (eachGiven member listed).mono (Nat.le_succ innermost)
  rw [toJson_eq_written]
  refine Within.record attr.nodup_written fun field listed => ?_
  simp only [written, List.mem_cons, List.not_mem_nil, or_false] at listed
  rcases listed with rfl | rfl | rfl | rfl | rfl | rfl | rfl | rfl | rfl | rfl | rfl | rfl
  · exact Within.field_some (.string attr.name)
  · exact Within.field_some (.string attr.description)
  · exact Within.field_some (within_type attr.type)
  · rw [Option.map_id]
    exact raw described.default
  · exact Within.field_some (.bool attr.optional)
  · exact Within.field_list fun text _ => .string text
  · exact Within.field_map Within.keyword attr.memoryType
  · rw [Option.map_id]
    exact raw described.minimum
  · rw [Option.map_id]
    exact raw described.maximum
  · exact Within.field_dict metadata
  · exact Within.field_map Within.string attr.uiName
  · exact Within.field_some (.bool attr.unvalidated)

end Attribute

/-! ## Tests -/

namespace TestCase

private theorem within_toJson {test : TestCase}
    (values : ∀ kind, ∀ entry ∈ (test.values kind).entries, Within distinct levels entry.2)
    (setup : Within.Field distinct (levels + 1) test.setup) :
    Within distinct (levels + 2) test.toJson := by
  rw [toJson_eq_written]
  refine Within.record test.nodup_written fun field listed => ?_
  simp only [written, List.mem_cons, List.not_mem_nil, or_false] at listed
  rcases listed with rfl | rfl | rfl | rfl | rfl | rfl
  · exact Within.field_map Within.string test.description
  · exact Within.field_dict (values .inputs)
  · exact Within.field_dict (values .outputs)
  · exact Within.field_dict (values .state)
  · exact Within.field_dict (values .stateSet)
  · rw [Option.map_id]
    exact setup

private theorem mem_entries_assign {test : TestCase} {kind given : TestValues} {name : String}
    {value : Json} {listed : String × Json}
    (assigned : listed ∈ ((test.assign given name value).values kind).entries) :
    listed ∈ (test.values kind).entries ∨ listed = (name, value) := by
  cases given <;> cases kind <;>
    first | exact Or.inl assigned | exact Entries.mem_of_mem_put assigned

end TestCase

namespace TestList

private theorem mem_entries_assignAll {test : TestCase} {references : List TestReference}
    {kind : TestValues} {listed : String × Json}
    (assigned : listed ∈ ((assignAll test references).values kind).entries) :
    listed ∈ (test.values kind).entries ∨
      ∃ reference ∈ references, listed = (reference.name, reference.value) := by
  unfold assignAll at assigned
  induction references generalizing test with
  | nil => exact Or.inl assigned
  | cons reference rest ih =>
      rcases ih assigned with earlier | ⟨other, inRest, same⟩
      · rcases TestCase.mem_entries_assign earlier with before | same
        · exact Or.inl before
        · exact Or.inr ⟨reference, List.mem_cons_self, same⟩
      · exact Or.inr ⟨other, List.mem_cons_of_mem _ inRest, same⟩

/-- The value of a reference stands in the test object or in an object that is a member of it. -/
private theorem within_of_gives {member : String × Json} {reference : TestReference}
    (given : Gives member reference) (within : Within distinct levels member.2) :
    Within distinct levels reference.value := by
  cases given with
  | nested names written given _ =>
      subst written
      obtain ⟨inner, rfl, each⟩ := within.of_object
      exact (each _ given).mono (Nat.le_succ inner)
  | namespaced written =>
      -- The member is the value itself, which moves into an object under the word of its key.
      subst written
      exact within

private theorem setup_assignAll {test : TestCase} {references : List TestReference} :
    (assignAll test references).setup = test.setup := by
  unfold assignAll
  induction references generalizing test with
  | nil => rfl
  | cons reference rest ih =>
      rw [List.foldl_cons, ih]
      cases reference.word <;> rfl

/-- A test is written at most one level deeper than its object. -/
theorem within_readTest {value : Json} {test : TestCase} (within : Within distinct levels value)
    (read : (readTest entry value).value = some test) :
    Within distinct (levels + 1) test.toJson := by
  cases value with
  | object members =>
      obtain ⟨inner, rfl, each⟩ := within.of_object
      cases read
      apply TestCase.within_toJson
      · intro kind listed assigned
        -- Before the references are read there are no values of any kind.
        rcases mem_entries_assignAll assigned with bare | ⟨reference, given, rfl⟩
        · cases kind <;> cases bare
        · obtain ⟨member, inObject, given⟩ := mem_references.mp given
          exact within_of_gives given (each member inObject)
      · rw [setup_assignAll]
        intro value found
        exact (each _ (Entries.mem_of_lookup found)).mono (Nat.le_succ inner)
  | _ => cases read

end TestList

/-! ## Nodes -/

private theorem Icon.within_toJson (icon : Icon) : Within distinct (levels + 1) icon.toJson := by
  have names : (Entries.keys (("path", Json.string icon.path) :: icon.colors.members)).Nodup := by
    have distinct : fields.Nodup := by decide
    exact distinct
  rw [toJson, Within.object_iff]
  refine ⟨fun _ => names, fun member listed => ?_⟩
  simp only [IconColors.members, List.mem_cons, List.not_mem_nil, or_false] at listed
  rcases listed with rfl | rfl | rfl | rfl <;> exact .string _

/-- The parts of a node that hold values of the entry are nested at most so many levels deep. -/
structure Node.PartsWithin (distinct : Prop) (levels : Nat) (node : Node) : Prop where
  metadata : ∀ entry ∈ node.metadata.entries, Within distinct levels entry.2
  attributes : ∀ part, ∀ entry ∈ (node.attributes part).entries,
    Within distinct levels entry.2.toJson
  tests : ∀ test ∈ node.tests, Within distinct levels test.toJson

namespace Node.PartsWithin

theorem ofName (name : String) : (Node.ofName name).PartsWithin distinct levels := by
  refine ⟨fun entry listed => ?_, fun part entry listed => ?_, fun test listed => ?_⟩
  · cases listed
  · cases part <;> cases listed
  · cases listed

/-- A node is written two levels deeper than its parts. -/
theorem toJson (within : node.PartsWithin distinct levels) :
    Within distinct (levels + 2) node.toJson := by
  rw [toJson_eq_written]
  refine Within.record node.nodup_written fun field listed => ?_
  simp only [written, List.mem_cons, List.not_mem_nil, or_false] at listed
  rcases listed with rfl | rfl | rfl | rfl | rfl | rfl | rfl | rfl | rfl | rfl | rfl | rfl | rfl |
    rfl | rfl | rfl | rfl | rfl | rfl | rfl | rfl
  · exact Within.field_some (.string node.name)
  · exact Within.field_map Within.string node.comment
  · exact Within.field_some (.ofStrings node.description)
  · exact Within.field_map Icon.within_toJson node.icon
  · exact Within.field_some (.number _)
  · exact Within.field_some (.keyword node.language)
  · exact Within.field_map Within.keyword node.memoryType
  · exact Within.field_list fun artifact _ => .keyword artifact
  · exact Within.field_some (.ofStrings node.categories)
  · exact Within.field_dict fun entry _ => .string entry.2
  · exact Within.field_map Within.keyword node.cudaPointers
  · exact Within.field_some (.ofDict within.metadata)
  · exact Within.field_list fun flag _ => .keyword flag
  · exact Within.field_some (.bool node.singleton)
  · exact Within.field_list fun tag _ => .string tag
  · exact Within.field_dict fun entry _ => .string entry.2
  · exact Within.field_some (.string node.uiName)
  · exact Within.field_dict (within.attributes .inputs)
  · exact Within.field_dict (within.attributes .outputs)
  · exact Within.field_dict (within.attributes .state)
  · exact Within.field_list within.tests

theorem withAttribute (within : node.PartsWithin distinct levels) (part : Section)
    {attr : Attribute} (attrWithin : Within distinct levels attr.toJson) :
    (node.withAttribute part attr).PartsWithin distinct levels := by
  refine ⟨?_, fun other entry listed => ?_, ?_⟩
  · cases part <;> exact within.metadata
  · by_cases same : other = part
    · subst same
      rw [attributes_withAttribute_self] at listed
      rcases Entries.mem_of_mem_put listed with before | rfl
      · exact within.attributes other entry before
      · exact attrWithin
    · rw [attributes_withAttribute_of_ne same] at listed
      exact within.attributes other entry listed
  · rw [tests_withAttribute]
    exact within.tests

end Node.PartsWithin

/-! ## Stages -/

section Stages

variable (each : ∀ member ∈ entry.members, Within distinct levels member.2)
include each

private theorem RequiredFields.metadata_within {metadata : Metadata}
    (read : (ofEntry options entry).metadata.value = some metadata) :
    ∀ entry ∈ metadata.entries, Within distinct levels entry.2 := by
  rw [value_metadata] at read
  obtain ⟨value, found, made⟩ := Option.bind_eq_some_iff.mp read
  cases value with
  | object given =>
      cases made
      obtain ⟨inner, rfl, eachGiven⟩ := (each _ (Entries.mem_of_lookup found)).of_object
      exact Within.kept fun member listed => (eachGiven member listed).mono (Nat.le_succ inner)
  | _ => cases made

private theorem AttributeSections.within_of_read {part : Section} {attr : Attribute}
    (read : attr ∈ (ofEntry entry part).value.getD []) : Within distinct levels attr.toJson := by
  obtain ⟨attributes, member, found, listed, made⟩ := member_of_read read
  obtain ⟨inner, rfl, eachMember⟩ := (each _ (Entries.mem_of_lookup found)).of_object
  obtain ⟨members, shape, legal, made⟩ := Attribute.reading_of_check made
  have raw := eachMember member listed
  rw [shape] at raw
  exact Attribute.within_toJson raw (Attribute.describedBy_of_reading legal made)

private theorem TestList.within_of_read {test : TestCase}
    (read : test ∈ (Member.optional entry.members "tests" (read entry)).value.getD []) :
    Within distinct levels test.toJson := by
  obtain ⟨items, item, found, listed, made⟩ := item_of_read read
  obtain ⟨inner, rfl, eachItem⟩ := (each _ (Entries.mem_of_lookup found)).of_array
  exact within_readTest (eachItem item listed) made

namespace Stage

/-- A stage takes nothing deeper into the node than one level below the entry. -/
theorem run_within (stage : Stage) (within : node.PartsWithin distinct levels) :
    (stage.run options entry node).value.PartsWithin distinct levels := by
  -- One stage alone adds attributes; what the others find of them they leave.
  have attributes : stage ≠ .attributes → ∀ part,
      ∀ listed ∈ ((stage.run options entry node).value.attributes part).entries,
        Within distinct levels listed.2.toJson := by
    intro different part
    rw [attributes_run different]
    exact within.attributes part
  cases stage with
  | requiredFields =>
      refine ⟨fun listed kept => ?_, attributes (by decide), within.tests⟩
      have shape : (Stage.requiredFields.run options entry node).value.metadata =
          (RequiredFields.ofEntry options entry).metadata.value.getD node.metadata := rfl
      rw [shape] at kept
      cases read : (RequiredFields.ofEntry options entry).metadata.value with
      | none =>
          rw [read] at kept
          exact within.metadata listed kept
      | some metadata =>
          rw [read] at kept
          exact RequiredFields.metadata_within each read listed kept
  | attributes =>
      exact @AttributeSections.check_preserves entry
        (fun left _ => left.PartsWithin distinct levels)
        (fun left _ part attr read before =>
          before.withAttribute part (AttributeSections.within_of_read each read)) node node within
  | tests =>
      refine ⟨within.metadata, attributes (by decide), fun test listed => ?_⟩
      rcases List.mem_append.mp listed with before | read
      · exact within.tests test before
      · exact TestList.within_of_read each read
  | _ => exact ⟨within.metadata, attributes (by decide), within.tests⟩

theorem runAll_within (stages : List Stage) (within : node.PartsWithin distinct levels) :
    (runAll stages options entry node).value.PartsWithin distinct levels := by
  induction stages generalizing node with
  | nil => exact within
  | cons stage rest ih => exact ih (run_within each stage within)

end Stage

end Stages

end NodeDescriptor
