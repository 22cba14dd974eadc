import NodeDescriptor.Entry.Stage
import NodeDescriptor.Proofs.Legality.Fields
import NodeDescriptor.Proofs.Legality.Tests

/-!
# Legal entries

What all stages together demand of an entry. A stage finds the same errors whatever node it is
given, so a run of stages finds no error exactly when the entry is legal for each of them.
-/

set_option autoImplicit false

namespace NodeDescriptor

/-- What the members of an entry have to look like. -/
structure Entry.Legal (options : Options) (members : List (String × Json)) : Prop where
  required : RequiredFields.Legal options members
  shorthand : Shorthand.Legal members
  exclude : ExcludeList.Legal members
  scheduling : SchedulingList.Legal members
  sections : AttributeSections.Legal members
  tests : TestList.Legal members

/-- An object with legal members. -/
def Json.IsEntry (options : Options) (value : Json) : Prop :=
  ∃ members, value = .object members ∧ Entry.Legal options members

namespace Stage

/-- What the members of an entry have to look like for one stage. -/
def Legal (stage : Stage) (options : Options) (members : List (String × Json)) : Prop :=
  match stage with
  | .requiredFields => RequiredFields.Legal options members
  | .shorthand => Shorthand.Legal members
  | .exclude => ExcludeList.Legal members
  | .scheduling => SchedulingList.Legal members
  | .attributes => AttributeSections.Legal members
  | .tests => TestList.Legal members

private theorem faultless_run {stage : Stage} {options : Options} {entry : Entry} {node : Node} :
    Faultless (stage.run options entry node).findings ↔ stage.Legal options entry.members := by
  cases stage with
  | requiredFields => exact RequiredFields.faultless_check
  | shorthand => exact Shorthand.faultless_check
  | exclude => exact ExcludeList.faultless_check
  | scheduling => exact SchedulingList.faultless_check
  | attributes => exact AttributeSections.faultless_check
  | tests => exact TestList.faultless_check

/-- A stage judges the entry alone, so the stages before it cannot change its verdict. -/
theorem faultless_runAll {stages : List Stage} {options : Options} {entry : Entry} {node : Node} :
    Faultless (runAll stages options entry node).findings ↔
      ∀ stage ∈ stages, stage.Legal options entry.members := by
  induction stages generalizing node with
  | nil => simp [runAll]
  | cons stage rest ih =>
      rw [List.forall_mem_cons, runAll, Faultless.append_iff, faultless_run, ih]

theorem legal_all_iff {options : Options} {members : List (String × Json)} :
    (∀ stage : Stage, stage.Legal options members) ↔ Entry.Legal options members := by
  constructor
  · intro legal
    exact ⟨legal .requiredFields, legal .shorthand, legal .exclude, legal .scheduling,
      legal .attributes, legal .tests⟩
  · intro legal stage
    obtain ⟨required, shorthand, exclude, scheduling, sections, tests⟩ := legal
    cases stage with
    | requiredFields => exact required
    | shorthand => exact shorthand
    | exclude => exact exclude
    | scheduling => exact scheduling
    | attributes => exact sections
    | tests => exact tests

end Stage

end NodeDescriptor
