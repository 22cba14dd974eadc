import NodeDescriptor.Proofs.Legality.Forms

/-!
# Checks without errors

A check is faultless when none of its findings is an error; warnings do not count. What a check of
a member demands is said here once for every reader of members, so that the checks of whole
objects follow field by field.
-/

set_option autoImplicit false

namespace NodeDescriptor

/-- No finding is an error. -/
def Faultless (findings : List Finding) : Prop := ∀ finding ∈ findings, finding.isError = false

namespace Faultless

@[simp] theorem nil : Faultless [] := by simp [Faultless]

@[simp] theorem cons_iff {finding : Finding} {rest : List Finding} :
    Faultless (finding :: rest) ↔ finding.isError = false ∧ Faultless rest :=
  List.forall_mem_cons

@[simp] theorem append_iff {left right : List Finding} :
    Faultless (left ++ right) ↔ Faultless left ∧ Faultless right :=
  List.forall_mem_append

@[simp] theorem inside_iff {path : FieldPath} {findings : List Finding} :
    Faultless (findings.map (Finding.inside path)) ↔ Faultless findings :=
  List.forall_mem_map

theorem flatMap_iff {α : Type} {items : List α} {findings : α → List Finding} :
    Faultless (items.flatMap findings) ↔ ∀ item ∈ items, Faultless (findings item) := by
  simp only [Faultless, List.mem_flatMap]
  constructor
  · intro none item member finding found
    exact none finding ⟨item, member, found⟩
  · intro each finding found
    obtain ⟨item, member, found⟩ := found
    exact each item member finding found

theorem filterMap_iff {α : Type} {items : List α} {finding? : α → Option Finding} :
    Faultless (items.filterMap finding?) ↔
      ∀ item ∈ items, ∀ finding, finding? item = some finding → finding.isError = false := by
  simp only [Faultless, List.mem_filterMap]
  constructor
  · intro none item member finding found
    exact none finding ⟨item, member, found⟩
  · intro each finding found
    obtain ⟨item, member, found⟩ := found
    exact each item member finding found

end Faultless

theorem Checked.hasErrors_eq_false_iff {α : Type} {checked : Checked α} :
    checked.hasErrors = false ↔ Faultless checked.findings := by
  simp [Checked.hasErrors, Faultless]

@[simp] theorem Checked.findings_inside {α : Type} (path : FieldPath) (checked : Checked α) :
    (checked.inside path).findings = checked.findings.map (Finding.inside path) := rfl

@[simp] theorem Checked.value_inside {α : Type} (path : FieldPath) (checked : Checked α) :
    (checked.inside path).value = checked.value := rfl

@[simp] theorem Checked.findings_map {α β : Type} (f : α → β) (checked : Checked α) :
    (checked.map f).findings = checked.findings := rfl

@[simp] theorem Checked.value_map {α β : Type} (f : α → β) (checked : Checked α) :
    (checked.map f).value = f checked.value := rfl

@[simp] theorem Checked.findings_clean {α : Type} (value : α) :
    (Checked.clean value).findings = [] := rfl

@[simp] theorem Checked.value_clean {α : Type} (value : α) : (Checked.clean value).value = value :=
  rfl

@[simp] theorem Checked.findings_refused {α : Type} (problem : Problem) :
    (Checked.refused problem : Checked (Option α)).findings = [.here problem] := rfl

@[simp] theorem Checked.value_refused {α : Type} (problem : Problem) :
    (Checked.refused problem : Checked (Option α)).value = none := rfl

@[simp] theorem Finding.problem_here (problem : Problem) :
    (Finding.here problem).problem = problem := rfl

@[simp] theorem Finding.problem_inside (path : FieldPath) (finding : Finding) :
    (finding.inside path).problem = finding.problem := rfl

/-- Redundant scheduling flags are warned about, and all other problems are errors. -/
@[simp] theorem Finding.isError_eq_false_iff {finding : Finding} :
    finding.isError = false ↔ finding.problem.kind = .redundantScheduling := by
  cases shape : finding.problem.kind <;> simp [Finding.isError, shape, ProblemKind.severity]

namespace Member

variable {α : Type} {members : List (String × Json)} {key : String}

/-! ## Members of an object -/

/-- The member under a key, if there is one, has a form. -/
def AbsentOr (members : List (String × Json)) (key : String) (form : Json → Prop) : Prop :=
  ∀ value, members.lookup key = some value → form value

/-- There is a member under a key, and it has a form. -/
def Present (members : List (String × Json)) (key : String) (form : Json → Prop) : Prop :=
  ∃ value, members.lookup key = some value ∧ form value

theorem AbsentOr.congr {left right : Json → Prop} (same : ∀ value, left value ↔ right value) :
    AbsentOr members key left ↔ AbsentOr members key right := by
  simp only [AbsentOr, same]

theorem faultless_form {form? : Json → Option α} {expected : String} {value : Json} :
    Faultless (form form? expected value).findings ↔ (form? value).isSome = true := by
  unfold form
  cases form? value with
  | some result => simp
  | none => simp [Problem.kind]

theorem value_form {form? : Json → Option α} {expected : String} {value : Json} :
    (form form? expected value).value = form? value := by
  unfold form
  cases form? value <;> rfl

theorem faultless_optional {check : Json → Checked (Option α)} :
    Faultless (optional members key check).findings ↔
      AbsentOr members key fun value => Faultless (check value).findings := by
  unfold optional AbsentOr
  cases members.lookup key <;> simp

theorem faultless_withDefault {default : α} {check : Json → Checked (Option α)} :
    Faultless (withDefault members key default check).findings ↔
      AbsentOr members key fun value => Faultless (check value).findings := by
  unfold withDefault AbsentOr
  cases members.lookup key <;> simp

theorem faultless_required {check : Json → Checked (Option α)} :
    Faultless (required members key check).findings ↔
      Present members key fun value => Faultless (check value).findings := by
  unfold required Present
  cases members.lookup key with
  | some value => simp
  | none => simp [Problem.kind]

theorem value_required {check : Json → Checked (Option α)} {value : Json}
    (found : members.lookup key = some value) :
    (required members key check).value = (check value).value := by
  simp [required, found]

theorem value_optional {check : Json → Checked (Option α)} :
    (optional members key check).value =
      (members.lookup key).bind fun value => (check value).value := by
  unfold optional
  cases members.lookup key <;> rfl

theorem mem_getD_optional {check : Json → Checked (Option (List α))} {item : α}
    (listed : item ∈ (optional members key check).value.getD []) :
    ∃ value items, members.lookup key = some value ∧ (check value).value = some items ∧
      item ∈ items := by
  rw [value_optional] at listed
  cases found : members.lookup key with
  | none => simp [found] at listed
  | some value =>
      rw [found, Option.bind_some] at listed
      cases read : (check value).value with
      | none => simp [read] at listed
      | some items =>
          rw [read, Option.getD_some] at listed
          exact ⟨value, items, rfl, read, listed⟩

/-- A check that answers the value itself answers what is there. -/
theorem value_optional_self {check : Json → Checked (Option Json)}
    (self : ∀ value, (check value).value = some value) :
    (optional members key check).value = members.lookup key := by
  rw [value_optional]
  cases members.lookup key with
  | none => rfl
  | some value => exact self value

theorem faultless_word [Keyword α] {expected : String} {value : Json} :
    Faultless (word (α := α) expected value).findings ↔
      value.IsWordOf ((Keyword.all (α := α)).map Keyword.word) := by
  rw [← Json.keyword?_isSome_iff]
  cases value with
  | string text =>
      simp only [word, Record.keyword?, Json.asString?, Option.bind_some]
      cases (Keyword.ofWord? text : Option α) with
      | some meant => simp
      | none => simp [Problem.kind]
  | _ => simp [word, Record.keyword?, Json.asString?, Problem.kind]

theorem mem_withoutComments {β : Type} {entries : List (String × β)} {entry : String × β} :
    entry ∈ withoutComments entries ↔ entry ∈ entries ∧ isCommentKey entry.1 = false := by
  simp [withoutComments]

end Member

end NodeDescriptor
