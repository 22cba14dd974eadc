import NodeDescriptor.Proofs.Alike.Entry

/-!
# Tests that are alike

A test object is read member by member, so alike tests give the same values to the same names in
the same order. The names are looked up in the entry, and there only names that mark no comment are
sure to be found in both of two alike entries.
-/

set_option autoImplicit false

namespace NodeDescriptor.TestList

variable {left right : Json} {lefts rights : List (String × Json)} {entry other : Entry}
  {key : String}

/-! ## Members -/

theorem mem_sectionKeys_iff : key ∈ sectionKeys ↔ ∃ word : TestWord, Keyword.word word = key := by
  have words : sectionKeys = (Keyword.all (α := TestWord)).map Keyword.word := rfl
  rw [words, List.mem_map]
  constructor
  · intro listed
    obtain ⟨word, -, same⟩ := listed
    exact ⟨word, same⟩
  · intro spelled
    obtain ⟨word, same⟩ := spelled
    exact ⟨word, Keyword.complete word, same⟩

private theorem known_word_append (word : TestWord) (name : String) :
    Known (Keyword.word word ++ ":" ++ name) :=
  Or.inr (Or.inr (Or.inr ⟨Keyword.word word, mem_sectionKeys_iff.mpr ⟨word, rfl⟩, name, rfl⟩))

private theorem readMember_of_unknown (unknown : ¬Known key) (value : Json) :
    readMember (key, value) = .clean [] := by
  have undescribed : key ≠ "description" := fun same => unknown (Or.inl same)
  have unprepared : key ≠ "setup" := fun same => unknown (Or.inr (Or.inl same))
  have unspelled : (Keyword.ofWord? key : Option TestWord) = none := by
    refine Option.eq_none_iff_forall_ne_some.mpr fun word spelled => ?_
    have same := Keyword.ofWord?_eq_some_iff.mp spelled
    exact unknown (Or.inr (Or.inr (Or.inl (mem_sectionKeys_iff.mpr ⟨word, same⟩))))
  have unnamed : namespacedReference? key value = none := by
    refine Option.eq_none_iff_forall_ne_some.mpr fun reference named => ?_
    obtain ⟨same, -⟩ := namespacedReference?_eq_some_iff.mp named
    exact unknown (same ▸ known_word_append reference.word reference.name)
  simp only [readMember, undescribed, unprepared, if_false, unspelled, unnamed]
  rfl

private theorem nestedReferences_congr (word : TestWord) (alike : AlikeValues left right) :
    nestedReferences word left = nestedReferences word right := by
  cases alike with
  | same => rfl
  | objects members => simp only [nestedReferences, withoutComments_congr members]

private theorem readMember_congr
    (alike : (if key ∈ sectionKeys then AlikeValues else Eq) left right) :
    readMember (key, left) = readMember (key, right) := by
  by_cases spelled : key ∈ sectionKeys
  · rw [if_pos spelled] at alike
    obtain ⟨word, rfl⟩ := mem_sectionKeys_iff.mp spelled
    rw [readMember_word, readMember_word, nestedReferences_congr word alike]
  · rw [if_neg spelled] at alike
    rw [alike]

private theorem flatMap_readMember_congr {β : Type}
    {collect : Checked (List TestReference) → List β}
    (nothing : collect (.clean []) = [])
    (alike : InOrder (fun key => IsComment key ∨ ¬Known key)
      (fun key => if key ∈ sectionKeys then AlikeValues else Eq) lefts rights) :
    ((Member.withoutComments lefts).map readMember).flatMap collect =
      ((Member.withoutComments rights).map readMember).flatMap collect := by
  rw [List.flatMap_map, List.flatMap_map]
  refine alike.flatMap_withoutComments ?_ ?_
  · exact fun key left right _ values => congrArg collect (readMember_congr values)
  · intro key value uncommented skipped
    have unknown : ¬Known key := by
      rcases skipped with comment | unknown
      · rw [comment] at uncommented
        cases uncommented
      · exact unknown
    rw [readMember_of_unknown unknown, nothing]

/-! ## Tests -/

/-- Where no name of a comment is written after a section word and a colon, no test value is given
to the name of a comment. -/
private theorem uncommented_of_mem_references {test : List (String × Json)}
    (names : ∀ word ∈ sectionKeys, ∀ name, word ++ ":" ++ name ∈ Entries.keys test →
      isCommentKey name = false)
    {reference : TestReference}
    (given : reference ∈ ((Member.withoutComments test).map readMember).flatMap Checked.value) :
    isCommentKey reference.name = false := by
  obtain ⟨member, listed, given⟩ := mem_references.mp given
  rcases given with ⟨-, -, -, uncommented⟩ | written
  · exact uncommented
  · have key : Keyword.word reference.word ++ ":" ++ reference.name = member.1 :=
      (congrArg Prod.fst written).symm
    refine names _ (mem_sectionKeys_iff.mpr ⟨reference.word, rfl⟩) _ ?_
    rw [key]
    exact List.mem_map_of_mem listed

private theorem readTest_congr
    (declared : ∀ part name, isCommentKey name = false →
      entry.declares part name = other.declares part name)
    (names : ∀ test, left = .object test → ∀ word ∈ sectionKeys, ∀ name,
      word ++ ":" ++ name ∈ Entries.keys test → isCommentKey name = false)
    (alike : AlikeTest left right) : readTest entry left = readTest other right := by
  -- The references are the same, and each of them is judged alike.
  have judged : ∀ {test : List (String × Json)}, left = .object test →
      (((Member.withoutComments test).map readMember).flatMap Checked.value).filterMap
          (referenceFinding? entry) =
        (((Member.withoutComments test).map readMember).flatMap Checked.value).filterMap
          (referenceFinding? other) := by
    intro test shape
    refine List.filterMap_congr fun reference given => ?_
    have uncommented := uncommented_of_mem_references (names test shape) given
    rw [referenceFinding?, referenceFinding?, declared _ _ uncommented]
  cases alike with
  | same =>
      cases left with
      | object test => simp only [readTest, judged rfl]
      | _ => rfl
  | @objects lefts rights members =>
      have plain : ∀ key, Known key → isCommentKey key = false → key ∉ sectionKeys →
          lefts.lookup key = rights.lookup key := by
        intro key known uncommented other
        have looked : ¬(IsComment key ∨ ¬Known key) := by simp [IsComment, uncommented, known]
        have found := members.lookup looked
        simp only [other, if_false] at found
        exact eq_of_rel_eq found
      have description := plain "description" (Or.inl rfl) (by decide) (by decide)
      have setup := plain "setup" (Or.inr (Or.inl rfl)) (by decide) (by decide)
      have values := @flatMap_readMember_congr lefts rights _ Checked.value rfl members
      have findings := @flatMap_readMember_congr lefts rights _ Checked.findings rfl members
      have references := judged rfl
      rw [values] at references
      simp only [readTest, description, setup, values, findings, references]

/-! ## Lists of tests -/

private theorem Alike.forall₂ {items : List Json} (alike : Alike (.array items) right) :
    ∃ others, right = .array others ∧ List.Forall₂ AlikeTest items others := by
  cases alike with
  | same => exact ⟨items, rfl, List.forall₂_same.mpr fun item _ => .same item⟩
  | @arrays lefts rights each => exact ⟨rights, rfl, each⟩

private theorem map_zipIdx_congr {α : Type} {items others : List Json}
    {read readOther : Json × Nat → α}
    (same : List.Forall₂ (fun item other => ∀ position, read (item, position) =
      readOther (other, position)) items others) (position : Nat) :
    (items.zipIdx position).map read = (others.zipIdx position).map readOther := by
  induction same generalizing position with
  | nil => rfl
  | cons head _ ih => simp only [List.zipIdx_cons, List.map_cons, head, ih]

/-- Lists whose tests are read alike are read alike. -/
theorem read_array_congr {items others : List Json}
    (tests : List.Forall₂ (fun item test => readTest entry item = readTest other test)
      items others) : read entry (.array items) = read other (.array others) := by
  have outcomes := @map_zipIdx_congr _ items others
    (fun item => (readTest entry item.1).inside (FieldPath.root.index item.2))
    (fun item => (readTest other item.1).inside (FieldPath.root.index item.2))
    (tests.imp fun _ _ same _ => congrArg (Checked.inside _) same) 0
  simp only [read, outcomes]

theorem read_congr
    (declared : ∀ part name, isCommentKey name = false →
      entry.declares part name = other.declares part name)
    (names : ∀ items test, left = .array items → .object test ∈ items → ∀ word ∈ sectionKeys,
      ∀ name, word ++ ":" ++ name ∈ Entries.keys test → isCommentKey name = false)
    (alike : Alike left right) : read entry left = read other right := by
  cases left with
  | array items =>
      obtain ⟨others, rfl, each⟩ := alike.forall₂
      apply read_array_congr
      have listed := (List.forall₂_and_left items others).mpr ⟨fun _ listed => listed, each⟩
      refine listed.imp fun item test both => ?_
      obtain ⟨inItems, alike⟩ := both
      refine readTest_congr declared (fun test shape => ?_) alike
      exact names items test rfl (shape ▸ inItems)
  | _ =>
      cases alike
      rfl

end NodeDescriptor.TestList
