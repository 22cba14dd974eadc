import NodeDescriptor.Entry.Stage

/-!
# What stages leave alone

No stage renames a node, only one of them touches its attributes, and only one its tests. From
single stages this carries over to whole runs.
-/

set_option autoImplicit false

namespace NodeDescriptor

variable {options : Options} {entry : Entry} {node : Node} {part : Section}

/-! ## Adding attributes -/

namespace Node

@[simp] theorem name_withAttribute (node : Node) (part : Section) (attr : Attribute) :
    (node.withAttribute part attr).name = node.name := by
  cases part <;> rfl

@[simp] theorem tests_withAttribute (node : Node) (part : Section) (attr : Attribute) :
    (node.withAttribute part attr).tests = node.tests := by
  cases part <;> rfl

theorem attributes_withAttribute_self (node : Node) (part : Section) (attr : Attribute) :
    (node.withAttribute part attr).attributes part =
      (node.attributes part).insert attr.name attr := by
  cases part <;> rfl

theorem attributes_withAttribute_of_ne {part other : Section} (different : other ≠ part)
    (node : Node) (attr : Attribute) :
    (node.withAttribute part attr).attributes other = node.attributes other := by
  cases part <;> cases other <;> first | rfl | exact absurd rfl different

end Node

namespace AttributeSections

/-- Two nodes that stay related when an attribute that was read is added to both stay related when
the sections are checked. -/
theorem check_preserves {related : Node → Node → Prop}
    (adding : ∀ left right part, ∀ attr ∈ (ofEntry entry part).value.getD [], related left right →
      related (left.withAttribute part attr) (right.withAttribute part attr))
    {left right : Node} (start : related left right) :
    related (check entry left).value (check entry right).value := by
  have oneSection : ∀ (part : Section) (left right : Node), related left right →
      related (checkSection entry left part).value (checkSection entry right part).value := by
    intro part
    have each := fun left right => adding left right part
    simp only [checkSection, Checked.map]
    generalize (ofEntry entry part).value.getD [] = attributes at each ⊢
    induction attributes with
    | nil => exact fun _ _ before => before
    | cons attr rest ih =>
        intro left right before
        refine ih (fun left right other listed => ?_) _ _ ?_
        · exact each left right other (List.mem_cons_of_mem _ listed)
        · exact each left right attr List.mem_cons_self before
  have sections : ∀ (parts : List Section) (left right : Checked Node),
      related left.value right.value →
      related
        (parts.foldl (fun checked part =>
          let next := checkSection entry checked.value part
          ⟨next.value, checked.findings ++ next.findings⟩) left).value
        (parts.foldl (fun checked part =>
          let next := checkSection entry checked.value part
          ⟨next.value, checked.findings ++ next.findings⟩) right).value := by
    intro parts
    induction parts with
    | nil => exact fun _ _ before => before
    | cons part rest ih =>
        exact fun left right before => ih _ _ (oneSection part left.value right.value before)
  exact sections Keyword.all (.clean left) (.clean right) start

/-- What adding an attribute leaves alone, checking the sections leaves alone. -/
theorem check_leaves {γ : Type} (field : Node → γ)
    (untouched : ∀ node part attr, field (node.withAttribute part attr) = field node) :
    field (check entry node).value = field node := by
  have kept : ∀ other part attr,
      field other = field node → field (other.withAttribute part attr) = field node :=
    fun other part attr before => (untouched other part attr).trans before
  exact @check_preserves entry (fun left _ => field left = field node)
    (fun left _ part attr _ => kept left part attr) node node rfl

end AttributeSections

namespace Stage

private theorem name_run (stage : Stage) :
    (stage.run options entry node).value.name = node.name := by
  cases stage with
  | attributes =>
      exact AttributeSections.check_leaves Node.name Node.name_withAttribute
  | _ => rfl

theorem attributes_run {stage : Stage} (different : stage ≠ .attributes) :
    (stage.run options entry node).value.attributes part = node.attributes part := by
  cases stage with
  | attributes => exact absurd rfl different
  | _ => cases part <;> rfl

theorem tests_run {stage : Stage} (different : stage ≠ .tests) :
    (stage.run options entry node).value.tests = node.tests := by
  cases stage with
  | attributes =>
      exact AttributeSections.check_leaves Node.tests Node.tests_withAttribute
  | tests => exact absurd rfl different
  | _ => rfl

/-! ## Runs -/

theorem name_runAll (stages : List Stage) :
    (runAll stages options entry node).value.name = node.name := by
  induction stages generalizing node with
  | nil => rfl
  | cons stage rest ih => exact ih.trans (name_run stage)

theorem attributes_runAll {stages : List Stage} (absent : .attributes ∉ stages) :
    (runAll stages options entry node).value.attributes part = node.attributes part := by
  induction stages generalizing node with
  | nil => rfl
  | cons stage rest ih =>
      rw [List.mem_cons, not_or] at absent
      exact (ih absent.2).trans (attributes_run fun same => absent.1 same.symm)

theorem tests_runAll {stages : List Stage} (absent : .tests ∉ stages) :
    (runAll stages options entry node).value.tests = node.tests := by
  induction stages generalizing node with
  | nil => rfl
  | cons stage rest ih =>
      rw [List.mem_cons, not_or] at absent
      exact (ih absent.2).trans (tests_run fun same => absent.1 same.symm)

end Stage

end NodeDescriptor
