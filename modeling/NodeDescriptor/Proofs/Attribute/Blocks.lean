import NodeDescriptor.Proofs.Legality.Attribute
import NodeDescriptor.Proofs.Paths

/-!
# Findings member by member

What is found about an attribute is told in one block for each member that is read, in a fixed
order. A block looks at its own member; the blocks of the default and of the bounds look at the type
as well. So nothing that is wrong elsewhere in the attribute adds to a block or takes from it.
-/

set_option autoImplicit false

namespace NodeDescriptor.Attribute

open Member (Present)

variable {members others : List (String × Json)} {key : String}

/-- The keys of the members that are read, in the order of their blocks. -/
def reportedKeys : List String :=
  ["description", "type", "default", "minimum", "maximum", "optional", "unvalidated", "deprecated",
    "uiName", "memoryType", "metadata"]

/-- The keys of the members that have to fit the type. -/
def fittedKeys : List String := ["default", "minimum", "maximum"]

/-! ## Blocks -/

namespace Reading

/-- What was found about the member under a key. -/
def about (reading : Reading) : String → List Finding
  | "description" => reading.description.findings
  | "type" => reading.type.findings
  | "default" => reading.default.findings
  | "minimum" => reading.minimum.findings
  | "maximum" => reading.maximum.findings
  | "optional" => reading.optional.findings
  | "unvalidated" => reading.unvalidated.findings
  | "deprecated" => reading.deprecated.findings
  | "uiName" => reading.uiName.findings
  | "memoryType" => reading.memoryType.findings
  | "metadata" => reading.metadata.findings
  | _ => []

private theorem findings_eq_flatMap (reading : Reading) :
    reading.findings = reportedKeys.flatMap reading.about := by
  simp [findings, reportedKeys, about]

private theorem concerns_of_mem_about {finding : Finding}
    (found : finding ∈ (ofMembers members).about key) : finding.Concerns key := by
  unfold about at found
  split at found
  case h_1 | h_2 => exact Member.concerns_required found
  case h_12 => cases found
  all_goals exact Member.concerns_optional found

/-- A block looks at its own member, and at the type if the member has to fit it. -/
theorem about_congr (same : members.lookup key = others.lookup key)
    (sameType : key ∈ fittedKeys → members.lookup "type" = others.lookup "type") :
    (ofMembers members).about key = (ofMembers others).about key := by
  unfold about
  split
  case h_3 | h_4 | h_5 =>
    have types := sameType (by decide)
    simp only [ofMembers, Member.required, Member.optional, same, types]
  case h_12 => rfl
  all_goals simp only [ofMembers, Member.required, Member.optional, same]

private theorem value_type_eq_none
    (untyped : ¬Present members "type" fun value => ∃ type, value.NamesType type) :
    (ofMembers members).type.value = none := by
  rw [Option.eq_none_iff_forall_ne_some]
  intro type read
  simp only [ofMembers, Member.required] at read
  split at read
  · rename_i value found
    exact untyped ⟨value, found, type, value_checkType_eq_some_iff.mp read⟩
  · cases read

private theorem about_fitted_eq_nil
    (untyped : ¬Present members "type" fun value => ∃ type, value.NamesType type)
    (fitted : key ∈ fittedKeys) : (ofMembers members).about key = [] := by
  have unknown := value_type_eq_none untyped
  have silent {key : String} {check : Option AttributeType → Json → Checked (Option Json)}
      (none : ∀ value, (check .none value).findings = []) :
      (Member.optional members key (check (ofMembers members).type.value)).findings = [] := by
    rw [unknown, Member.optional]
    split
    · rw [Checked.findings_inside, none, List.map_nil]
    · rfl
  simp only [fittedKeys, List.mem_cons, List.not_mem_nil, or_false] at fitted
  rcases fitted with rfl | rfl | rfl
  · exact silent fun _ => rfl
  · exact silent fun _ => rfl
  · exact silent fun _ => rfl

end Reading

/-! ## Reports -/

/-- What is reported on the member under a key, of an attribute at a path. -/
def reports (path : FieldPath) (members : List (String × Json)) (key : String) : List Diagnostic :=
  ((Reading.ofMembers members).about key).map fun finding => (finding.inside path).diagnostic

theorem isWithin_of_mem_reports {path : FieldPath} {diagnostic : Diagnostic}
    (reported : diagnostic ∈ reports path members key) :
    diagnostic.IsWithin (path.key key).text := by
  obtain ⟨finding, found, rfl⟩ := List.mem_map.mp reported
  have filled : key ≠ "" := by
    rintro rfl
    cases found
  exact (Reading.concerns_of_mem_about found).isWithin filled path

theorem diagnostics_eq_flatMap (name : String) (path : FieldPath) (members : List (String × Json)) :
    ((check name (.object members)).inside path).diagnostics =
      reportedKeys.flatMap (reports path members) := by
  have findings : (check name (.object members)).findings =
      reportedKeys.flatMap (Reading.ofMembers members).about := Reading.findings_eq_flatMap _
  rw [Checked.diagnostics, Checked.findings_inside, findings, List.map_map, List.map_flatMap]
  rfl

/-- Whatever is wrong with an attribute, its diagnostics are the reports on its members, one after
another. A report on a member is about places in this member. It is the same for every attribute
with the same member and, where the member has to fit the type, the same type; where there is no
legal type, nothing is reported on such a member. -/
theorem reports_member_by_member (name : String) (path : FieldPath)
    (members : List (String × Json)) :
    ((check name (.object members)).inside path).diagnostics =
        reportedKeys.flatMap (reports path members) ∧
      (∀ key, ∀ diagnostic ∈ reports path members key, diagnostic.IsWithin (path.key key).text) ∧
      (∀ (others : List (String × Json)) (key : String), members.lookup key = others.lookup key →
        (key ∈ fittedKeys → members.lookup "type" = others.lookup "type") →
          reports path members key = reports path others key) ∧
      ((¬Present members "type" fun value => ∃ type, value.NamesType type) →
        ∀ key ∈ fittedKeys, reports path members key = []) := by
  refine ⟨diagnostics_eq_flatMap name path members, fun key diagnostic => isWithin_of_mem_reports,
    fun others key same sameType => ?_, fun untyped key fitted => ?_⟩
  · rw [reports, reports, Reading.about_congr same sameType]
  · rw [reports, Reading.about_fitted_eq_nil untyped fitted, List.map_nil]

def brokenMembers : List (String × Json) :=
  [("memoryType", .string "gpu"), ("default", .ofStrings ["a"]), ("type", .string "float[5]"),
    ("metadata", .object [("hidden", .ofNat 3)])]

/-- The wrong memory type is reported beside all the rest as it is where nothing else is wrong. -/
theorem brokenMembers_reports :
    brokenMembers.lookup "memoryType" = some (.string "gpu") ∧ "memoryType" ∉ fittedKeys ∧
      (¬Present brokenMembers "type" fun value => ∃ type, value.NamesType type) ∧
      "default" ∈ fittedKeys ∧
      reportedKeys.flatMap (reports (.entry "a") brokenMembers) =
        [⟨"a.description", .missing⟩, ⟨"a.type", .unknownType "float[5]"⟩,
          ⟨"a.memoryType", .wrongShape "one of cpu, cuda, any"⟩,
          ⟨"a.metadata.hidden", .wrongShape "\"1\", \"0\", \"true\", \"false\" or a boolean"⟩] ∧
      (∀ diagnostic ∈ reports (.entry "a") brokenMembers "metadata",
        diagnostic.IsWithin "a.metadata") ∧
      reports (.entry "a") brokenMembers "memoryType" =
        reports (.entry "a") [("description", .string "A."), ("type", .string "float[2]"),
          ("memoryType", .string "gpu")] "memoryType" ∧
      reports (.entry "a") brokenMembers "default" = [] := by
  have untyped : ¬Present brokenMembers "type" fun value => ∃ type, value.NamesType type := by
    rintro ⟨value, found, type, named⟩
    cases found
    have read := value_checkType_eq_some_iff.mpr named
    have unread : (checkType (.string "float[5]")).value = none := by decide +kernel
    rw [unread] at read
    cases read
  obtain ⟨all, within, agree, silent⟩ := reports_member_by_member "a" (.entry "a") brokenMembers
  refine ⟨rfl, by decide, untyped, by decide, ?_, within "metadata", ?_, silent untyped "default"
    (by decide)⟩
  · rw [← all]
    decide +kernel
  · exact agree _ "memoryType" rfl fun fitted => absurd fitted (by decide)

end NodeDescriptor.Attribute
