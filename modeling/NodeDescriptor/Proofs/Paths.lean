import NodeDescriptor.Proofs.Legality.Faultless

/-!
# Texts below a place

Below a place whose text is not empty, a path adds a text that does not depend on the place. What a
check of an object finds is about a member of the object, so its path goes on with the key of the
member.
-/

set_option autoImplicit false

namespace NodeDescriptor

/-! ## Paths -/

/-- What a step adds to the text of a path that is not empty. -/
def PathStep.suffix : PathStep → String
  | .key name => "." ++ name
  | .index position => "[" ++ toString position ++ "]"

/-- What steps add to the text of a path that is not empty. -/
def PathStep.suffixes : List PathStep → String
  | [] => ""
  | step :: rest => step.suffix ++ suffixes rest

theorem PathStep.append_eq {before : String} (filled : before ≠ "") (step : PathStep) :
    append before step = before ++ step.suffix := by
  cases step with
  | key name => rw [append, if_neg filled, suffix, String.append_assoc]
  | index position => simp only [append, suffix, String.append_assoc]

theorem PathStep.foldl_append {before : String} (filled : before ≠ "") (steps : List PathStep) :
    steps.foldl append before = before ++ suffixes steps := by
  induction steps generalizing before with
  | nil => rw [List.foldl_nil, suffixes, String.append_empty]
  | cons step rest ih =>
      have longer : before ++ step.suffix ≠ "" := by
        intro empty
        apply filled
        exact (String.append_eq_empty_iff.mp empty).1
      rw [List.foldl_cons, append_eq filled, ih longer, suffixes, String.append_assoc]

/-- A step is told from the place before it by a point or a bracket. -/
theorem PathStep.suffixes_cases (steps : List PathStep) :
    suffixes steps = "" ∨ (∃ rest, suffixes steps = "." ++ rest) ∨
      ∃ rest, suffixes steps = "[" ++ rest := by
  cases steps with
  | nil => exact .inl rfl
  | cons step rest =>
      cases step with
      | key name => exact .inr (.inl ⟨name ++ suffixes rest, String.append_assoc⟩)
      | index position =>
          refine .inr (.inr ⟨toString position ++ "]" ++ suffixes rest, ?_⟩)
          rw [suffixes, suffix, String.append_assoc, String.append_assoc, String.append_assoc]

namespace FieldPath

theorem text_inside {path : FieldPath} (filled : path.text ≠ "") (inner : FieldPath) :
    (path.inside inner).text = path.text ++ PathStep.suffixes inner.steps := by
  rw [text, inside, List.foldl_append]
  exact PathStep.foldl_append filled inner.steps

/-- Below a name that is not empty, a path adds a text that does not depend on the name. -/
theorem text_inside_entry {name : String} (filled : name ≠ "") (path : FieldPath) :
    ((FieldPath.entry name).inside path).text = name ++ PathStep.suffixes path.steps :=
  @text_inside (.entry name) filled path

theorem text_key_ne_empty {name : String} (filled : name ≠ "") (path : FieldPath) :
    (path.key name).text ≠ "" := by
  rw [text_key]
  split
  · exact filled
  · intro empty
    exact filled (String.append_eq_empty_iff.mp empty).2

theorem inside_entry_inside (path : FieldPath) (name : String) (inner : FieldPath) :
    path.inside ((entry name).inside inner) = (path.key name).inside inner := by
  simp [inside, entry, key]

end FieldPath

/-! ## Findings about members -/

/-- The finding is about a member of the checked object, or about something inside one. -/
def Finding.AtMember (finding : Finding) : Prop :=
  ∃ key inner, finding.path = (FieldPath.entry key).inside inner

/-- The finding is about the member under a key, or about something inside it. -/
def Finding.Concerns (key : String) (finding : Finding) : Prop :=
  ∃ inner, finding.path = (FieldPath.entry key).inside inner

/-- Every finding is about a member of the checked object. -/
def AtMembers (findings : List Finding) : Prop := ∀ finding ∈ findings, finding.AtMember

namespace Member

variable {α : Type} {members : List (String × Json)} {key : String}
  {check : Json → Checked (Option α)} {finding : Finding}

theorem concerns_inside {findings : List Finding}
    (found : finding ∈ findings.map (Finding.inside (.entry key))) : finding.Concerns key := by
  obtain ⟨inner, -, rfl⟩ := List.mem_map.mp found
  exact ⟨inner.path, rfl⟩

theorem concerns_required (found : finding ∈ (required members key check).findings) :
    finding.Concerns key := by
  unfold required at found
  split at found <;> exact concerns_inside found

theorem concerns_optional (found : finding ∈ (optional members key check).findings) :
    finding.Concerns key := by
  unfold optional at found
  split at found
  · exact concerns_inside found
  · cases found

theorem concerns_withDefault {default : α}
    (found : finding ∈ (withDefault members key default check).findings) :
    finding.Concerns key := by
  unfold withDefault at found
  split at found
  · exact concerns_inside found
  · cases found

end Member

namespace AtMembers

@[simp] theorem nil : AtMembers [] := by simp [AtMembers]

@[simp] theorem append_iff {left right : List Finding} :
    AtMembers (left ++ right) ↔ AtMembers left ∧ AtMembers right :=
  List.forall_mem_append

section Readers

variable {α : Type} {members : List (String × Json)} {key : String}
  {check : Json → Checked (Option α)}

@[simp] theorem required : AtMembers (Member.required members key check).findings :=
  fun _ found => ⟨key, Member.concerns_required found⟩

@[simp] theorem withDefault {default : α} :
    AtMembers (Member.withDefault members key default check).findings :=
  fun _ found => ⟨key, Member.concerns_withDefault found⟩

@[simp] theorem optional : AtMembers (Member.optional members key check).findings :=
  fun _ found => ⟨key, Member.concerns_optional found⟩

end Readers

end AtMembers

/-! ## Diagnostics below a place -/

/-- Two diagnostics of the same problem at the same place below different names. -/
def Diagnostic.AlikeBelow (first second : String) (left right : Diagnostic) : Prop :=
  left.problem = right.problem ∧ ∃ suffix, left.path = first ++ suffix ∧
    right.path = second ++ suffix ∧ (suffix = "" ∨ ∃ rest, suffix = "." ++ rest)

/-- The diagnostic is about the value at a place, or about something inside it. -/
def Diagnostic.IsWithin (place : String) (diagnostic : Diagnostic) : Prop :=
  ∃ suffix, diagnostic.path = place ++ suffix ∧
    (suffix = "" ∨ (∃ rest, suffix = "." ++ rest) ∨ ∃ rest, suffix = "[" ++ rest)

namespace Finding

variable {finding : Finding}

theorem suffixes_of_place (place : finding.path = .root ∨ finding.AtMember) :
    PathStep.suffixes finding.path.steps = "" ∨
      ∃ rest, PathStep.suffixes finding.path.steps = "." ++ rest := by
  rcases place with here | ⟨key, inner, atMember⟩
  · rw [here]
    exact .inl rfl
  · rw [atMember]
    exact .inr ⟨key ++ PathStep.suffixes inner.steps, String.append_assoc⟩

theorem alikeBelow (place : finding.path = .root ∨ finding.AtMember) {first second : FieldPath}
    (firstFilled : first.text ≠ "") (secondFilled : second.text ≠ "") :
    Diagnostic.AlikeBelow first.text second.text (finding.inside first).diagnostic
      (finding.inside second).diagnostic :=
  ⟨rfl, PathStep.suffixes finding.path.steps, FieldPath.text_inside firstFilled finding.path,
    FieldPath.text_inside secondFilled finding.path, suffixes_of_place place⟩

theorem Concerns.isWithin {key : String} (concerns : finding.Concerns key) (filled : key ≠ "")
    (path : FieldPath) :
    (finding.inside path).diagnostic.IsWithin (path.key key).text := by
  obtain ⟨inner, below⟩ := concerns
  refine ⟨PathStep.suffixes inner.steps, ?_, PathStep.suffixes_cases inner.steps⟩
  rw [Finding.diagnostic, Finding.inside, below, FieldPath.inside_entry_inside]
  exact FieldPath.text_inside (FieldPath.text_key_ne_empty filled path) inner

end Finding

end NodeDescriptor
