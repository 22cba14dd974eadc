import NodeDescriptor.Proofs.Comments
import NodeDescriptor.Proofs.Entry.Names
import NodeDescriptor.Proofs.Entry.Result

/-!
# What the node of a legal entry keeps

The sections and the tests of a legal entry, member by member and item by item: nothing that is no
comment is passed over, and the order stays. The names of a section have to be distinct for this;
of a repeated name only one attribute could be kept.
-/

set_option autoImplicit false

namespace NodeDescriptor

variable {options : Options} {entry : Entry} {part : Section}

/-! ## Sections -/

namespace AttributeSections

/-- The attributes are those of the members of a section that are no comments, in order: each is
what its member makes, under the name of the member. -/
def Kept (members : List (String × Json)) (attributes : Dict Attribute) : Prop :=
  List.Forall₂
    (fun member kept => kept.1 = member.1 ∧
      (Attribute.check member.1 member.2).value = some kept.2)
    (Member.withoutComments members) attributes.entries

theorem Kept.keys {members : List (String × Json)} {attributes : Dict Attribute}
    (kept : Kept members attributes) :
    attributes.keys = Entries.keys (Member.withoutComments members) :=
  map_eq_map_of_forall₂ kept fun _ _ same => same.1

theorem Kept.exists_member {members : List (String × Json)} {attributes : Dict Attribute}
    (kept : Kept members attributes) {name : String} {attr : Attribute}
    (listed : (name, attr) ∈ attributes.entries) :
    ∃ value, (name, value) ∈ members ∧ isCommentKey name = false ∧
      (Attribute.check name value).value = some attr := by
  obtain ⟨position, bound, found⟩ := List.mem_iff_getElem.mp listed
  have sameLength := kept.length_eq
  have pair := kept.get (sameLength ▸ bound) bound
  have inSection := List.getElem_mem (sameLength ▸ bound : position < _)
  simp only [List.get_eq_getElem, found] at pair
  obtain ⟨same, made⟩ := pair
  obtain ⟨inMembers, uncommented⟩ := Member.mem_withoutComments.mp inSection
  exact ⟨_, same ▸ inMembers, same ▸ uncommented, same ▸ made⟩

private theorem isSome_check_of_isSection {members : List (String × Json)}
    (legal : IsSection (.object members)) :
    ∀ member ∈ Member.withoutComments members,
      (Attribute.check member.1 member.2).value.isSome = true := by
  obtain ⟨_, shape, attributes⟩ := legal
  cases shape
  intro member listed
  obtain ⟨inMembers, uncommented⟩ := Member.mem_withoutComments.mp listed
  exact Attribute.isSome_value_check_iff.mpr (attributes member inMembers uncommented)

/-- A legal section is kept whole. -/
theorem kept_attributes {members : List (String × Json)}
    (written : entry.members.lookup (Keyword.word part) = some (.object members))
    (legal : IsSection (.object members)) (distinct : (Entries.keys members).Nodup) :
    Kept members (attributes entry part) := by
  let made := (Member.withoutComments members).filterMap fun member =>
    (Attribute.check member.1 member.2).value
  have each : List.Forall₂
      (fun member attr => (Attribute.check member.1 member.2).value = some attr)
      (Member.withoutComments members) made :=
    forall₂_filterMap (isSome_check_of_isSection legal)
  have read : (ofEntry entry part).value.getD [] = made := by
    rw [ofEntry, Member.value_optional, written, Option.bind_some, readSection, Option.getD_some,
      List.filterMap_map]
    rfl
  -- The attributes were read without the keys of their members; their names are these keys.
  have names : Entries.keys (made.map fun attr => (attr.name, attr)) =
      Entries.keys (Member.withoutComments members) := by
    rw [Entries.keys, List.map_map]
    exact map_eq_map_of_forall₂ each fun _ _ made => Attribute.name_of_check made
  have distinctNames : (Entries.keys ([] ++ made.map fun attr => (attr.name, attr))).Nodup := by
    rw [List.nil_append, names]
    exact distinct.sublist (Member.keys_withoutComments_sublist members)
  rw [Kept, attributes, read, Dict.entries_ofList, Entries.merge_of_nodup distinctNames,
    List.nil_append, List.forall₂_map_right_iff]
  exact each.imp fun _ _ made => ⟨Attribute.name_of_check made, made⟩

theorem attributes_of_absent (absent : entry.members.lookup (Keyword.word part) = none) :
    attributes entry part = .empty := by
  rw [attributes, ofEntry, Member.value_optional, absent]
  rfl

end AttributeSections

/-! ## Tests -/

namespace TestList

/-- The test cases are those of the items of a list, in order. -/
def Kept (entry : Entry) (items : List Json) (tests : List TestCase) : Prop :=
  List.Forall₂ (fun item test => (readTest entry item).value = some test) items tests

theorem value_read_array (items : List Json) :
    (read entry (.array items)).value =
      some (items.filterMap fun item => (readTest entry item).value) := by
  -- The positions only matter for the paths of findings.
  have numbered : (read entry (.array items)).value =
      some (items.zipIdx.filterMap fun item => (readTest entry item.1).value) := by
    rw [read, List.filterMap_map]
    rfl
  have unnumbered : items.zipIdx.filterMap (fun item => (readTest entry item.1).value) =
      (items.zipIdx.map Prod.fst).filterMap fun item => (readTest entry item).value := by
    rw [List.filterMap_map]
    rfl
  rw [numbered, unnumbered, List.zipIdx_map_fst]

/-- A legal list of tests is kept whole. -/
theorem kept_tests {items : List Json}
    (written : entry.members.lookup "tests" = some (.array items))
    (legal : Legal entry.members) : Kept entry items ((ofEntry entry).value.getD []) := by
  have objects : ∀ item ∈ items, (readTest entry item).value.isSome = true := by
    obtain ⟨_, shape, tests⟩ := legal _ written
    cases shape
    intro item listed
    obtain ⟨test, rfl, -⟩ := tests item listed
    rfl
  rw [ofEntry, Member.value_optional, written, Option.bind_some, value_read_array,
    Option.getD_some]
  exact forall₂_filterMap objects

theorem tests_of_absent (absent : entry.members.lookup "tests" = none) :
    (ofEntry entry).value.getD [] = [] := by
  rw [ofEntry, Member.value_optional, absent]
  rfl

end TestList

/-- In the node of a legal entry, a name in a test is a name of an attribute unless it is that of
a comment. -/
theorem Entry.test_name_toNode_iff (legal : Entry.Legal options entry.members) {test : TestCase}
    (listed : test ∈ (toNode options entry).tests) {kind : TestValues} {name : String}
    (named : name ∈ (test.values kind).keys) :
    name ∈ ((toNode options entry).attributes kind.part).keys ↔ isCommentKey name = false := by
  have run : (Stage.runAll Keyword.all options entry (Node.ofName entry.name)).value =
      toNode options entry := congrArg Checked.value (Stage.runAll_all options entry)
  rw [← run] at listed ⊢
  exact Stage.test_name_iff legal listed named

end NodeDescriptor
