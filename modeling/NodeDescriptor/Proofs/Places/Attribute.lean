import NodeDescriptor.Attribute.Check
import NodeDescriptor.Proofs.Places.Basic

/-!
# Places of findings about attributes

Whatever the check of an attribute finds, it finds at a member of the attribute, at an item of the
list of types or at a member of the metadata, or it names a member that is not there.
-/

set_option autoImplicit false

namespace NodeDescriptor.Attribute

variable {value : Json}

/-! ## The type -/

private theorem given_of_typeOfItem {before : List DataType} {item : Json} {problem : Problem}
    (refused : typeOfItem before item = .error problem) : problem ≠ .missing := by
  rintro rfl
  unfold typeOfItem at refused
  split at refused
  · cases refused
  · split at refused
    · cases refused
    · split at refused <;> cases refused

private theorem atItem_checkTypeItems {position : Nat} {before : List DataType}
    {items : List Json} :
    ∀ finding ∈ (checkTypeItems position before items).findings,
      finding.AtItem position items.length := by
  induction items generalizing position before with
  | nil =>
      intro finding found
      cases found
  | cons item rest ih =>
      intro finding found
      rw [checkTypeItems] at found
      split at found
      · exact .later (ih finding found)
      · rename_i problem refused
        rcases List.mem_cons.mp found with rfl | found
        · exact .first (given_of_typeOfItem refused)
        · exact .later (ih finding found)

private theorem placed_checkType : Placed value (checkType value).findings := by
  unfold checkType
  split
  · split
    · exact Placed.nil
    · exact Placed.here (by simp)
  · exact fun finding found => (atItem_checkTypeItems finding found).placedIn
  · exact Placed.here (by simp)

/-! ## Values -/

private theorem placed_checkDefault {type : Option AttributeType} :
    Placed value (checkDefault type value).findings := by
  unfold checkDefault
  split
  · exact Placed.nil
  · split
    · exact Placed.nil
    · exact Placed.here (by simp)

private theorem placed_checkBound {type : Option AttributeType} :
    Placed value (checkBound type value).findings := by
  unfold checkBound
  split
  · exact Placed.nil
  · split
    · exact Placed.nil
    · exact Placed.here (by simp)

/-! ## Other members -/

private theorem placed_checkDescription : Placed value (checkDescription value).findings := by
  rw [checkDescription, Checked.findings_map]
  exact Member.placed_form

private theorem given_of_metadataProblem? {key : String} {problem : Problem}
    (refused : metadataProblem? key value = some problem) : problem ≠ .missing := by
  rintro rfl
  unfold metadataProblem? at refused
  split at refused
  · split at refused <;> cases refused
  · split at refused
    · split at refused <;> cases refused
    · cases refused

theorem placed_checkMetadata : Placed value (checkMetadata value).findings := by
  cases value with
  | object members =>
      intro finding found
      obtain ⟨member, kept, made⟩ := List.mem_filterMap.mp found
      obtain ⟨problem, refused, rfl⟩ := Option.map_eq_some_iff.mp made
      have listed := List.mem_map_of_mem (f := Prod.fst) (Member.mem_withoutComments.mp kept).1
      exact Finding.placedIn_entry listed (given_of_metadataProblem? refused)
  | _ => exact Placed.here (by simp)

/-! ## Whole attributes -/

private theorem placed_reading (members : List (String × Json)) :
    Placed (.object members) (Reading.ofMembers members).findings := by
  simp only [Reading.findings, Reading.ofMembers, Placed.append_iff]
  refine ⟨⟨⟨⟨⟨⟨⟨⟨⟨⟨?_, ?_⟩, ?_⟩, ?_⟩, ?_⟩, ?_⟩, ?_⟩, ?_⟩, ?_⟩, ?_⟩, ?_⟩
  · exact Member.placed_required (by decide) fun _ _ => placed_checkDescription
  · exact Member.placed_required (by decide) fun _ _ => placed_checkType
  · exact Member.placed_optional fun _ _ => placed_checkDefault
  · exact Member.placed_optional fun _ _ => placed_checkBound
  · exact Member.placed_optional fun _ _ => placed_checkBound
  · exact Member.placed_optional fun _ _ => Member.placed_form
  · exact Member.placed_optional fun _ _ => Member.placed_form
  · exact Member.placed_optional fun _ _ => Member.placed_form
  · exact Member.placed_optional fun _ _ => Member.placed_form
  · exact Member.placed_optional fun _ _ => Member.placed_form
  · exact Member.placed_optional fun _ _ => placed_checkMetadata

theorem placed_check {name : String} : Placed value (check name value).findings := by
  cases value with
  | object members => exact placed_reading members
  | _ => exact Placed.here (by simp)

end NodeDescriptor.Attribute
