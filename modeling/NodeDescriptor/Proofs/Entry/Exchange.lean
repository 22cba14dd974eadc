import NodeDescriptor.Proofs.Entry.Frame
import NodeDescriptor.Proofs.Legality.Fields

/-!
# Exchanging stages

No stage reads or writes a part of the node that another stage writes. So two different stages can
be exchanged, and a run of different stages finds, stage by stage, what each of them finds in the
node that the run starts with.
-/

set_option autoImplicit false

namespace NodeDescriptor.Stage

variable {options : Options} {entry : Entry} {node : Node}

/-! ## Two stages -/

private theorem scheduling_run {stage : Stage} (different : stage ≠ .scheduling) :
    (stage.run options entry node).value.scheduling = node.scheduling := by
  cases stage with
  | scheduling => exact absurd rfl different
  | attributes =>
      exact AttributeSections.check_leaves Node.scheduling fun _ part _ => by cases part <;> rfl
  | _ => rfl

/-- Of all findings only those about scheduling flags look at the node, and only at its flags. -/
theorem findings_run_after {first second : Stage} (different : first ≠ second) :
    (second.run options entry (first.run options entry node).value).findings =
      (second.run options entry node).findings := by
  cases second with
  | scheduling =>
      have same := @scheduling_run options entry node first different
      simp only [run, SchedulingList.check, Checked.findings_map] at same ⊢
      rw [same]
  | attributes => exact AttributeSections.findings_check.trans AttributeSections.findings_check.symm
  | _ => rfl

private theorem run_withAttribute {stage : Stage} (different : stage ≠ .attributes) (part : Section)
    (attr : Attribute) :
    (stage.run options entry (node.withAttribute part attr)).value =
      (stage.run options entry node).value.withAttribute part attr := by
  cases stage with
  | attributes => exact absurd rfl different
  | _ => cases part <;> rfl

/-- The check of the sections adds attributes one by one, and each of these steps can be exchanged
with a stage. -/
theorem run_attributes_comm {stage : Stage} (different : stage ≠ .attributes) :
    (stage.run options entry (Stage.attributes.run options entry node).value).value =
      (Stage.attributes.run options entry (stage.run options entry node).value).value := by
  have adding : ∀ left right part attr, (stage.run options entry left).value = right →
      (stage.run options entry (left.withAttribute part attr)).value =
        right.withAttribute part attr := by
    intro left right part attr before
    rw [run_withAttribute different, before]
  exact @AttributeSections.check_preserves entry
    (fun left right => (stage.run options entry left).value = right)
    (fun left right part attr _ => adding left right part attr) node
    (stage.run options entry node).value rfl

private theorem run_comm {first second : Stage} (different : first ≠ second) :
    (second.run options entry (first.run options entry node).value).value =
      (first.run options entry (second.run options entry node).value).value := by
  by_cases attributesFirst : first = .attributes
  · subst attributesFirst
    exact run_attributes_comm different.symm
  · by_cases attributesSecond : second = .attributes
    · subst attributesSecond
      exact (run_attributes_comm different).symm
    · cases first <;> cases second <;> first | rfl | contradiction

/-! ## Runs -/

/-- A run of different stages makes the same node in every order. -/
theorem value_runAll_perm {first second : List Stage} (permuted : first.Perm second)
    (distinct : first.Nodup) :
    (runAll first options entry node).value = (runAll second options entry node).value := by
  induction permuted generalizing node with
  | nil => rfl
  | cons stage _ ih => exact ih (List.nodup_cons.mp distinct).2
  | swap first second rest =>
      have different : second ≠ first := fun same =>
        (List.nodup_cons.mp distinct).1 (same ▸ List.mem_cons_self)
      simp only [runAll]
      rw [run_comm different]
  | trans left _ leftIH rightIH =>
      exact (leftIH distinct).trans (rightIH (left.nodup_iff.mp distinct))

/-- Every stage of a run finds what it finds in the node at the start. -/
theorem findings_runAll {stages : List Stage} (distinct : stages.Nodup) :
    (runAll stages options entry node).findings =
      stages.flatMap fun stage => (stage.run options entry node).findings := by
  induction stages generalizing node with
  | nil => rfl
  | cons stage rest ih =>
      obtain ⟨absent, distinctRest⟩ := List.nodup_cons.mp distinct
      -- The rest of the run starts with another node, in which its stages find the same.
      have others : ∀ other ∈ rest,
          (other.run options entry (stage.run options entry node).value).findings =
            (other.run options entry node).findings := by
        intro other listed
        have different : stage ≠ other := fun same => absent (same ▸ listed)
        exact findings_run_after different
      rw [runAll, ih distinctRest, List.flatMap_cons, List.flatMap_congr others]

theorem findings_runAll_perm {first second : List Stage} (permuted : first.Perm second)
    (distinct : first.Nodup) :
    (runAll first options entry node).findings.Perm
      (runAll second options entry node).findings := by
  rw [findings_runAll distinct, findings_runAll (permuted.nodup_iff.mp distinct)]
  exact permuted.flatMap_right _

end NodeDescriptor.Stage
