import NodeDescriptor.Entry.Stage
import NodeDescriptor.Proofs.Json.DistinctKeys
import NodeDescriptor.Proofs.Legality.Tests
import NodeDescriptor.Proofs.Places.Attribute

/-!
# Places of findings about entries

All stages find what they find at places of the entry, with two exceptions: a part of a
comma-separated text of scheduling flags has a place only once the text is split, and a name that a
test writes after a section word and a colon is reported as if it stood under the word.
-/

set_option autoImplicit false

namespace NodeDescriptor

variable {value : Json} {members : List (String × Json)} {finding : Finding}

/-- Where a finding about an entry may be. -/
inductive Finding.LocatedIn (members : List (String × Json)) (finding : Finding) : Prop where
  | placed (placed : finding.PlacedIn (.object members))
  | flagPart (text : String) (position : Nat)
      (written : members.lookup "scheduling" = some (.string text))
      (bound : position < (Text.commaParts text).length) (given : finding.problem ≠ .missing)
      (path : finding.path = ⟨[.key "scheduling", .index position]⟩)
  | testName (items : List Json) (position : Nat) (test : List (String × Json)) (word : TestWord)
      (name : String) (written : members.lookup "tests" = some (.array items))
      (listed : items[position]? = some (.object test))
      (named : Keyword.word word ++ ":" ++ name ∈ Entries.keys test)
      (shape : finding =
        ⟨⟨[.key "tests", .index position, .key (Keyword.word word), .key name]⟩,
          .unresolvedReference (Keyword.word word.part) name⟩)

theorem Placed.located {findings : List Finding} (placed : Placed (.object members) findings) :
    ∀ finding ∈ findings, finding.LocatedIn members :=
  fun finding found => .placed (placed finding found)

private theorem Member.exists_of_mem_optional {α : Type} {key : String}
    {check : Json → Checked (Option α)}
    (found : finding ∈ (Member.optional members key check).findings) :
    ∃ value, members.lookup key = some value ∧
      ∃ inner ∈ (check value).findings, finding = inner.inside (.entry key) := by
  unfold Member.optional at found
  cases looked : members.lookup key with
  | none =>
      rw [looked] at found
      cases found
  | some value =>
      rw [looked] at found
      obtain ⟨inner, inFindings, rfl⟩ := List.mem_map.mp found
      exact ⟨value, rfl, inner, inFindings, rfl⟩

/-! ## Required and single-valued fields -/

namespace RequiredFields

private theorem placed_checkUiName : Placed value (checkUiName value).findings := by
  unfold checkUiName
  split
  · split
    · exact Placed.nil
    · exact Placed.here (by simp)
  · exact Placed.here (by simp)

theorem placed_checkMetadata : Placed value (checkMetadata value).findings := by
  cases value with
  | object members =>
      have author : Placed (.object members) (checkAuthor members).findings :=
        Member.placed_optional fun _ _ => Member.placed_form
      exact author
  | _ => exact Placed.here (by simp)

private theorem placed_findings (options : Options) (entry : Entry) :
    Placed (.object entry.members) (ofEntry options entry).findings := by
  simp only [findings, ofEntry, Placed.append_iff]
  refine ⟨⟨⟨⟨⟨⟨⟨⟨⟨?_, ?_⟩, ?_⟩, ?_⟩, ?_⟩, ?_⟩, ?_⟩, ?_⟩, ?_⟩, ?_⟩
  · exact Member.placed_optional fun _ _ => Member.placed_form
  · exact Member.placed_required (by decide) fun _ _ => Member.placed_form
  · exact Member.placed_withDefault fun _ _ => Member.placed_form
  · exact Member.placed_withDefault fun _ _ => Member.placed_form
  · exact Member.placed_required (by decide) fun _ _ => placed_checkUiName
  · exact Member.placed_required (by decide) fun _ _ => Placed.nil
  · cases options.requireMetadata with
    | false => exact Member.placed_optional fun _ _ => placed_checkMetadata
    | true => exact Member.placed_required (by decide) fun _ _ => placed_checkMetadata
  · exact Member.placed_optional fun _ _ => Member.placed_word
  · exact Member.placed_optional fun _ _ => Member.placed_word
  · exact Member.placed_optional fun _ _ => Member.placed_form

end RequiredFields

/-! ## Fields with short forms -/

namespace Shorthand

private theorem placed_checkColor : Placed value (checkColor value).findings := by
  unfold checkColor
  split
  · exact Placed.nil
  · exact Placed.here (by simp)

private theorem placed_checkIcon {defaults : IconColors} :
    Placed value (checkIcon defaults value).findings := by
  cases value with
  | string => exact Placed.nil
  | object members =>
      simp only [checkIcon, checkIconMembers, Placed.append_iff]
      refine ⟨⟨⟨?_, ?_⟩, ?_⟩, ?_⟩
      · exact Member.placed_required (by decide) fun _ _ => Member.placed_form
      · exact Member.placed_optional fun _ _ => placed_checkColor
      · exact Member.placed_optional fun _ _ => placed_checkColor
      · exact Member.placed_optional fun _ _ => placed_checkColor
  | _ => exact Placed.here (by simp)

private theorem placed_checkCategories : Placed value (checkCategories value).findings := by
  cases value with
  | object members =>
      intro finding found
      obtain ⟨member, listed, made⟩ := List.mem_filterMap.mp found
      unfold definitionFinding? at made
      split at made
      · cases made
      · cases made
        exact Finding.placedIn_entry (List.mem_map_of_mem listed) (by simp)
  | _ => exact Member.placed_form

private theorem placed_findings (options : Options) (entry : Entry) :
    Placed (.object entry.members) (ofEntry options entry).findings := by
  simp only [findings, ofEntry, Placed.append_iff]
  refine ⟨⟨⟨?_, ?_⟩, ?_⟩, ?_⟩
  · refine Member.placed_optional fun value _ => ?_
    rw [Checked.findings_map]
    exact placed_checkIcon
  · exact Member.placed_optional fun _ _ => Member.placed_form
  · exact Member.placed_optional fun _ _ => Member.placed_form
  · exact Member.placed_optional fun _ _ => placed_checkCategories

end Shorthand

/-! ## Lists of words -/

private theorem ExcludeList.placed_read : Placed value (read value).findings := by
  cases value with
  | array items =>
      intro finding found
      obtain ⟨⟨item, position⟩, listed, made⟩ := List.mem_filterMap.mp found
      have bound : position < items.length :=
        (List.getElem?_eq_some_iff.mp (List.mem_zipIdx_iff_getElem?.mp listed)).1
      unfold itemFinding? at made
      split at made
      · cases made
      · cases made
        exact Finding.placedIn_index bound (by simp)
  | _ => exact Placed.here (by simp)

namespace SchedulingList

private theorem atItem_addItems {position : Nat} {before : List SchedulingFlag}
    {items : List Json} :
    ∀ finding ∈ (addItems position before items).findings,
      finding.AtItem position items.length := by
  induction items generalizing position before with
  | nil =>
      intro finding found
      cases found
  | cons item rest ih =>
      intro finding found
      rw [addItems] at found
      split at found
      · rcases List.mem_cons.mp found with rfl | found
        · exact .first (by simp)
        · exact .later (ih finding found)
      · split at found
        · rcases List.mem_cons.mp found with rfl | found
          · exact .first (by simp)
          · exact .later (ih finding found)
        · exact .later (ih finding found)

/-- The covering of a scope is a matter of the whole list. -/
private theorem placed_scopeFindings {flags : List SchedulingFlag} {scopes : List SchedulingScope} :
    Placed value (scopes.filterMap (scopeFinding? flags)) := by
  intro finding found
  obtain ⟨scope, -, made⟩ := List.mem_filterMap.mp found
  rw [scopeFinding?_eq] at made
  split at made
  · cases made
    exact Finding.placedIn_here (by simp)
  · cases made

private theorem placed_or_part_of_read {before : List SchedulingFlag} :
    ∀ finding ∈ (read before value).findings, finding.PlacedIn value ∨
      ∃ text, value = .string text ∧ finding.AtItem 0 (Text.commaParts text).length := by
  intro finding found
  cases value with
  | string text =>
      rcases List.mem_append.mp found with found | found
      · have among := atItem_addItems finding found
        rw [List.length_map] at among
        exact .inr ⟨text, rfl, among⟩
      · exact .inl (placed_scopeFindings finding found)
  | array items =>
      rcases List.mem_append.mp found with found | found
      · exact .inl (atItem_addItems finding found).placedIn
      · exact .inl (placed_scopeFindings finding found)
  | _ => exact .inl (Placed.here (by simp) finding found)

private theorem located_check {entry : Entry} {node : Node} :
    ∀ finding ∈ (check entry node).findings, finding.LocatedIn entry.members := by
  intro finding found
  rw [check, Checked.findings_map] at found
  obtain ⟨value, written, inner, inRead, rfl⟩ := Member.exists_of_mem_optional found
  rcases placed_or_part_of_read inner inRead with placed | ⟨text, rfl, given, part⟩
  · exact .placed (placed.inside (by rw [Json.at?_entry, written]))
  · obtain ⟨position, bound, path⟩ := part
    rw [Nat.zero_add] at path
    refine .flagPart text position written bound given ?_
    rw [Finding.inside, path]
    rfl

end SchedulingList

/-! ## Attributes -/

namespace AttributeSections

private theorem placed_readSection (distinct : value.hasDistinctKeys = true) :
    Placed value (readSection value).findings := by
  cases value with
  | object members =>
      intro finding found
      obtain ⟨outcome, read, found⟩ := List.mem_flatMap.mp found
      obtain ⟨⟨name, given⟩, kept, rfl⟩ := List.mem_map.mp read
      have looked : members.lookup name = some given :=
        Json.lookup_of_mem distinct (Member.mem_withoutComments.mp kept).1
      exact Attribute.placed_check.inside (by rw [Json.at?_entry, looked]) finding found
  | _ => exact Placed.here (by simp)

theorem placed_check {entry : Entry} {node : Node}
    (distinct : (Json.object entry.members).hasDistinctKeys = true) :
    Placed (.object entry.members) (check entry node).findings := by
  have each : ∀ part, Placed (.object entry.members) (ofEntry entry part).findings :=
    fun part => Member.placed_optional fun _ looked =>
      placed_readSection (Json.hasDistinctKeys_of_lookup distinct looked)
  rw [findings_check, Placed.append_iff, Placed.append_iff]
  exact ⟨⟨each .inputs, each .outputs⟩, each .state⟩

end AttributeSections

/-! ## Tests -/

namespace TestList

variable {entry : Entry} {test : List (String × Json)}

private theorem placed_readMember {member : String × Json}
    (looked : test.lookup member.1 = some member.2) :
    Placed (.object test) (readMember member).findings := by
  have reached : (Json.object test).at? (.entry member.1) = some member.2 := by
    rw [Json.at?_entry, looked]
  obtain ⟨key, value⟩ := member
  unfold readMember
  by_cases described : key = "description"
  · have description : Placed value (checkDescription value).findings := by
      rw [checkDescription, Checked.findings_map]
      exact Member.placed_form
    simp only [described, if_true]
    exact description.inside (described ▸ reached)
  · by_cases prepared : key = "setup"
    · simp [prepared]
    · simp only [described, prepared, if_false]
      cases (Keyword.ofWord? key : Option TestWord) with
      | none => exact Placed.nil
      | some word =>
          have nested : Placed value (nestedReferences word value).findings := by
            cases value with
            | object => exact Placed.nil
            | _ => exact Placed.here (by simp)
          exact nested.inside reached

/-- A finding about a name that is written after a section word and a colon. -/
def NamedApart (test : List (String × Json)) (finding : Finding) : Prop :=
  ∃ (word : TestWord) (name : String), Keyword.word word ++ ":" ++ name ∈ Entries.keys test ∧
    finding = ⟨(FieldPath.entry (Keyword.word word)).key name,
      .unresolvedReference (Keyword.word word.part) name⟩

private theorem placed_or_named_of_reference (distinct : (Json.object test).hasDistinctKeys = true)
    {reference : TestReference} {member : String × Json} (listed : member ∈ test)
    (given : Gives member reference) (found : referenceFinding? entry reference = some finding) :
    finding.PlacedIn (.object test) ∨ NamedApart test finding := by
  unfold referenceFinding? at found
  split at found
  · cases found
  · cases found
    cases given with
    | nested names written given uncommented =>
        subst written
        have looked := Json.lookup_of_mem distinct listed
        -- Seen from the object of values the finding is at the member of that name.
        have inNames := @Finding.placedIn_entry names reference.name
          (.unresolvedReference (Keyword.word reference.word.part) reference.name)
          (List.mem_map_of_mem given) (by simp)
        exact .inl (inNames.inside (by rw [Json.at?_entry, looked]))
    | namespaced written =>
        subst written
        exact .inr ⟨reference.word, reference.name, List.mem_map_of_mem listed, rfl⟩

private theorem placed_or_named_of_readTest (distinct : value.hasDistinctKeys = true) :
    ∀ finding ∈ (readTest entry value).findings, finding.PlacedIn value ∨
      ∃ test, value = .object test ∧ NamedApart test finding := by
  intro finding found
  cases value with
  | object test =>
      rcases List.mem_append.mp found with found | found
      · obtain ⟨outcome, read, found⟩ := List.mem_flatMap.mp found
        obtain ⟨member, kept, rfl⟩ := List.mem_map.mp read
        have looked := Json.lookup_of_mem distinct (Member.mem_withoutComments.mp kept).1
        exact .inl (placed_readMember looked finding found)
      · obtain ⟨reference, read, found⟩ := List.mem_filterMap.mp found
        obtain ⟨member, listed, given⟩ := mem_references.mp read
        rcases placed_or_named_of_reference distinct listed given found with placed | named
        · exact .inl placed
        · exact .inr ⟨test, rfl, named⟩
  | _ => exact .inl (Placed.here (by simp) finding found)

private theorem located_check {node : Node}
    (distinct : (Json.object entry.members).hasDistinctKeys = true) :
    ∀ finding ∈ (check entry node).findings, finding.LocatedIn entry.members := by
  intro finding found
  rw [check, Checked.findings_map] at found
  obtain ⟨value, written, inner, inRead, rfl⟩ := Member.exists_of_mem_optional found
  have reached : (Json.object entry.members).at? (.entry "tests") = some value := by
    rw [Json.at?_entry, written]
  cases value with
  | array items =>
      have each := Json.hasDistinctKeys_array_iff.mp
        (Json.hasDistinctKeys_of_lookup distinct written)
      obtain ⟨outcome, read, inOutcome⟩ := List.mem_flatMap.mp inRead
      obtain ⟨⟨item, position⟩, indexed, rfl⟩ := List.mem_map.mp read
      obtain ⟨about, inTest, rfl⟩ := List.mem_map.mp inOutcome
      have listed : items[position]? = some item := List.mem_zipIdx_iff_getElem?.mp indexed
      have inItems : item ∈ items := List.mem_of_getElem? listed
      -- What is known about the test is seen from the list, and that from the entry.
      rcases placed_or_named_of_readTest (each item inItems) about inTest with placed | apart
      · have inList : (about.inside (FieldPath.root.index position)).PlacedIn (.array items) :=
          placed.inside (by rw [Json.at?_index, listed])
        exact .placed (inList.inside reached)
      · obtain ⟨test, rfl, word, name, named, rfl⟩ := apart
        exact .testName items position test word name written listed named rfl
  | _ => exact .placed ((Placed.here (by simp) inner inRead).inside reached)

end TestList

/-! ## Runs of stages -/

namespace Stage

variable {options : Options} {entry : Entry} {node : Node}

private theorem located_run (distinct : (Json.object entry.members).hasDistinctKeys = true)
    (stage : Stage) :
    ∀ finding ∈ (stage.run options entry node).findings, finding.LocatedIn entry.members := by
  cases stage with
  | requiredFields => exact (RequiredFields.placed_findings options entry).located
  | shorthand => exact (Shorthand.placed_findings options entry).located
  | exclude => exact (Member.placed_optional fun _ _ => ExcludeList.placed_read).located
  | scheduling => exact SchedulingList.located_check
  | attributes => exact (AttributeSections.placed_check distinct).located
  | tests => exact TestList.located_check distinct

theorem located_runAll (distinct : (Json.object entry.members).hasDistinctKeys = true)
    (stages : List Stage) :
    ∀ finding ∈ (runAll stages options entry node).findings,
      finding.LocatedIn entry.members := by
  induction stages generalizing node with
  | nil =>
      intro finding found
      cases found
  | cons stage rest ih =>
      intro finding found
      rcases List.mem_append.mp found with found | found
      · exact located_run distinct stage finding found
      · exact ih finding found

end Stage

end NodeDescriptor
