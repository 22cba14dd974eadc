import NodeDescriptor.Proofs.Legality.Attribute

/-!
# The verdict on an attribute

The check of an attribute never warns: whatever it finds is an error. So an attribute that is made
comes without any finding, and one that is refused comes with an error.
-/

set_option autoImplicit false

namespace NodeDescriptor

/-! ## Findings that are all errors -/

/-- Every finding is an error. -/
def Grave (findings : List Finding) : Prop := ∀ finding ∈ findings, finding.isError = true

private theorem Finding.isError_iff {finding : Finding} :
    finding.isError = true ↔ finding.problem.kind ≠ .redundantScheduling := by
  rw [← Bool.not_eq_false, ne_eq, Finding.isError_eq_false_iff]

namespace Grave

@[simp] theorem nil : Grave [] := by simp [Grave]

@[simp] theorem cons_iff {finding : Finding} {rest : List Finding} :
    Grave (finding :: rest) ↔ finding.isError = true ∧ Grave rest :=
  List.forall_mem_cons

@[simp] theorem append_iff {left right : List Finding} :
    Grave (left ++ right) ↔ Grave left ∧ Grave right :=
  List.forall_mem_append

@[simp] theorem inside_iff {path : FieldPath} {findings : List Finding} :
    Grave (findings.map (Finding.inside path)) ↔ Grave findings :=
  List.forall_mem_map

theorem eq_nil_of_faultless {findings : List Finding} (grave : Grave findings)
    (faultless : Faultless findings) : findings = [] := by
  refine List.eq_nil_iff_forall_not_mem.mpr fun finding found => ?_
  have error := grave finding found
  rw [faultless finding found] at error
  cases error

end Grave

namespace Member

variable {α : Type} {members : List (String × Json)} {key : String}

private theorem grave_form {form? : Json → Option α} {expected : String} {value : Json} :
    Grave (form form? expected value).findings := by
  unfold form
  cases form? value <;> simp [Finding.isError_iff, Problem.kind]

private theorem grave_optional {check : Json → Checked (Option α)}
    (each : ∀ value, Grave (check value).findings) :
    Grave (optional members key check).findings := by
  unfold optional
  cases members.lookup key with
  | none => exact Grave.nil
  | some value => exact Grave.inside_iff.mpr (each value)

private theorem grave_required {check : Json → Checked (Option α)}
    (each : ∀ value, Grave (check value).findings) :
    Grave (required members key check).findings := by
  unfold required
  cases members.lookup key with
  | none => simp [Finding.isError_iff, Problem.kind]
  | some value => exact Grave.inside_iff.mpr (each value)

end Member

/-! ## Attributes -/

namespace Attribute

private theorem grave_checkTypeItems {position : Nat} {before : List DataType} {items : List Json} :
    Grave (checkTypeItems position before items).findings := by
  induction items generalizing position before with
  | nil => exact Grave.nil
  | cons item rest ih =>
      rw [checkTypeItems]
      split
      · exact ih
      · rename_i problem refused
        exact Grave.cons_iff.mpr
          ⟨Finding.isError_iff.mpr (typeOfItem_error_grave refused), ih⟩

theorem grave_checkType {value : Json} : Grave (checkType value).findings := by
  unfold checkType
  split
  · split <;> simp [Finding.isError_iff, Problem.kind]
  · exact grave_checkTypeItems
  · simp [Finding.isError_iff, Problem.kind]

private theorem grave_checkDefault {type : Option AttributeType} {value : Json} :
    Grave (checkDefault type value).findings := by
  unfold checkDefault
  split
  · exact Grave.nil
  · split <;> simp [Finding.isError_iff, Problem.kind]

private theorem grave_checkBound {type : Option AttributeType} {bound : Json} :
    Grave (checkBound type bound).findings := by
  unfold checkBound
  split
  · exact Grave.nil
  · split <;> simp [Finding.isError_iff, Problem.kind]

theorem grave_checkMetadata {value : Json} : Grave (checkMetadata value).findings := by
  cases value with
  | object members =>
      intro finding found
      obtain ⟨member, -, made⟩ := List.mem_filterMap.mp found
      obtain ⟨problem, shape, rfl⟩ := Option.map_eq_some_iff.mp made
      exact Finding.isError_iff.mpr (metadataProblem?_grave shape)
  | _ => simp [checkMetadata, Finding.isError_iff, Problem.kind]

private theorem grave_reading {members : List (String × Json)} :
    Grave (Reading.ofMembers members).findings := by
  have description : ∀ value, Grave (checkDescription value).findings := by
    intro value
    rw [checkDescription, Checked.findings_map]
    exact Member.grave_form
  have type : ∀ value, Grave (checkType value).findings := fun _ => grave_checkType
  have default : ∀ type value, Grave (checkDefault type value).findings :=
    fun _ _ => grave_checkDefault
  have bound : ∀ type value, Grave (checkBound type value).findings := fun _ _ => grave_checkBound
  have metadata : ∀ value, Grave (checkMetadata value).findings := fun _ => grave_checkMetadata
  simp only [Reading.findings, Reading.ofMembers, Grave.append_iff]
  refine ⟨⟨⟨⟨⟨⟨⟨⟨⟨⟨?_, ?_⟩, ?_⟩, ?_⟩, ?_⟩, ?_⟩, ?_⟩, ?_⟩, ?_⟩, ?_⟩, ?_⟩
  · exact Member.grave_required description
  · exact Member.grave_required type
  · exact Member.grave_optional (default _)
  · exact Member.grave_optional (bound _)
  · exact Member.grave_optional (bound _)
  · exact Member.grave_optional fun _ => Member.grave_form
  · exact Member.grave_optional fun _ => Member.grave_form
  · exact Member.grave_optional fun _ => Member.grave_form
  · exact Member.grave_optional fun _ => Member.grave_form
  · exact Member.grave_optional fun _ => Member.grave_form
  · exact Member.grave_optional metadata

/-- The check of an attribute finds errors only. -/
theorem grave_check {name : String} {value : Json} : Grave (check name value).findings := by
  cases value with
  | object members => exact grave_reading
  | _ => simp [check, Finding.isError_iff, Problem.kind]

/-- An attribute is made exactly when nothing at all is found. -/
theorem isSome_value_check_iff_findings {name : String} {value : Json} :
    (check name value).value.isSome = true ↔ (check name value).findings = [] := by
  rw [isSome_value_check_iff, ← @faultless_check name]
  constructor
  · exact Grave.eq_nil_of_faultless grave_check
  · intro none
    rw [none]
    exact Faultless.nil

/-- What is made comes without a finding. -/
theorem findings_eq_nil_of_check {name : String} {value : Json} {attr : Attribute}
    (made : (check name value).value = some attr) : (check name value).findings = [] :=
  isSome_value_check_iff_findings.mp (Option.isSome_of_eq_some made)

/-- What is refused comes with an error. -/
theorem exists_error_of_check {name : String} {value : Json}
    (refused : (check name value).value = none) :
    ∃ finding ∈ (check name value).findings, finding.isError = true := by
  have some : (check name value).findings ≠ [] := by
    intro none
    have made := isSome_value_check_iff_findings.mpr none
    rw [refused] at made
    cases made
  obtain ⟨finding, found⟩ := List.exists_mem_of_ne_nil _ some
  exact ⟨finding, found, grave_check finding found⟩

end Attribute

end NodeDescriptor
