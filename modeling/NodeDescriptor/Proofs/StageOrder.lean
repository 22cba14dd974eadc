import Mathlib.Data.List.Perm.Basic
import NodeDescriptor.Proofs.Entry.Exchange
import NodeDescriptor.Proofs.Independence

/-!
# The order of stages

Different stages may be run in any order: the model and the verdict on a document stay the same,
and the report on an entry is made of the same blocks, one for each stage, in the order in which
the stages are run. A stage that is listed twice is another matter, since the second run finds the
scheduling flags of the first.
-/

set_option autoImplicit false

namespace NodeDescriptor

private theorem Model.eq_of_entries {left right : Model} (version : left.version = right.version)
    (entries : left.nodes.entries = right.nodes.entries) : left = right := by
  cases left
  cases right
  cases version
  exact congrArg (Model.mk _) (Dict.ext_entries entries)

namespace Pipeline

variable {pipeline : Pipeline} {options : Options}

/-! ## Models -/

private theorem version_foldl_addEntry (members : List (String × Json)) (outcome : Outcome) :
    (members.foldl pipeline.addEntry outcome).model.version = outcome.model.version := by
  induction members generalizing outcome with
  | nil => rfl
  | cons member rest ih =>
      rw [List.foldl_cons, ih, addEntry]
      dsimp only
      split <;> rfl

/-- Every model has the version of the format. -/
theorem version_check (document : Json) :
    (pipeline.check document).model.version = Model.formatVersion := by
  cases document with
  | object members =>
      rw [check]
      split
      · rfl
      · exact version_foldl_addEntry _ _
  | _ => rfl

/-- A model depends on nothing but the nodes that the entries make. -/
theorem model_check_congr {first second : Pipeline}
    (same : ∀ name value,
      (first.checkEntry name value).value = (second.checkEntry name value).value)
    (document : Json) : (first.check document).model = (second.check document).model := by
  have made : first.made? = second.made? := by
    funext member
    rw [made?, made?, same]
  refine Model.eq_of_entries ?_ ?_
  · rw [version_check, version_check]
  · cases document with
    | object members => rw [entries_check, entries_check, made]
    | _ => rfl

/-! ## Entries -/

section Permuted

variable {first second : List Stage} (distinct : first.Nodup) (permuted : first.Perm second)
include distinct permuted

private theorem value_checkEntry_perm (name : String) (value : Json) :
    (checkEntry ⟨first, options⟩ name value).value =
      (checkEntry ⟨second, options⟩ name value).value := by
  cases value with
  | object members =>
      have node : (Stage.runAll first options ⟨name, members⟩ (Node.ofName name)).value =
          (Stage.runAll second options ⟨name, members⟩ (Node.ofName name)).value :=
        Stage.value_runAll_perm permuted distinct
      have errors : (Stage.runAll first options ⟨name, members⟩ (Node.ofName name)).hasErrors =
          (Stage.runAll second options ⟨name, members⟩ (Node.ofName name)).hasErrors :=
        (Stage.findings_runAll_perm permuted distinct).any_eq
      simp only [checkEntry, Checked.value_map]
      rw [node, errors]
  | _ => rfl

private theorem raised_perm (member : String × Json) :
    (raised ⟨first, options⟩ member).Perm (raised ⟨second, options⟩ member) := by
  obtain ⟨name, value⟩ := member
  cases value with
  | object members =>
      exact ((Stage.findings_runAll_perm permuted distinct).map _).map _
  | _ => exact List.Perm.refl _

private theorem diagnostics_check_perm (document : Json) :
    (check ⟨first, options⟩ document).report.diagnostics.Perm
      (check ⟨second, options⟩ document).report.diagnostics := by
  cases document with
  | object members =>
      by_cases entered : Member.withoutComments members = []
      · simp only [check, entered]
        exact List.Perm.refl _
      · rw [diagnostics_check entered, diagnostics_check entered]
        exact List.Perm.flatMap_left _ fun member _ => raised_perm distinct permuted member
  | _ => exact List.Perm.refl _

private theorem isAccepted_check_perm (strict : Bool) (document : Json) :
    (check ⟨first, options⟩ document).isAccepted strict =
      (check ⟨second, options⟩ document).isAccepted strict := by
  have reports := @diagnostics_check_perm options first second distinct permuted document
  have empty : (check ⟨first, options⟩ document).report.isEmpty =
      (check ⟨second, options⟩ document).report.isEmpty := by
    rw [Report.isEmpty, Report.isEmpty, Bool.eq_iff_iff, List.isEmpty_iff, List.isEmpty_iff]
    exact ⟨fun none => (none ▸ reports).nil_eq.symm, fun none => (none ▸ reports).eq_nil⟩
  have errors : (check ⟨first, options⟩ document).report.hasErrors =
      (check ⟨second, options⟩ document).report.hasErrors := reports.any_eq
  rw [Outcome.isAccepted, Outcome.isAccepted, empty, errors]

end Permuted

/-- What different stages report about an entry: each of them what it reports alone. -/
private theorem raised_object {stages : List Stage} (distinct : stages.Nodup) (name : String)
    (members : List (String × Json)) :
    raised ⟨stages, options⟩ (name, .object members) =
      stages.flatMap fun stage => raised ⟨[stage], options⟩ (name, .object members) := by
  have alone : ∀ stage : Stage,
      (Stage.runAll [stage] options ⟨name, members⟩ (Node.ofName name)).findings =
        (stage.run options ⟨name, members⟩ (Node.ofName name)).findings :=
    fun stage => List.append_nil _
  simp only [raised, checkEntry, Checked.diagnostics, Checked.findings_inside,
    Checked.findings_map, alone, Stage.findings_runAll distinct, List.map_flatMap]

/-! ## Documents -/

/-- Different stages in two orders, for any options and any document: the models are equal and the
verdicts agree, normally and strictly. The report on the document is that on its entries one after
another. After every number of stages, in either order, the report on an entry consists of one
block for each stage so far, and the block is what the stage reports alone; so each stage appends
the same block in both orders. An entry that is no object is reported alike. -/
theorem stage_order_irrelevant {first second : List Stage} (distinct : first.Nodup)
    (permuted : first.Perm second) (options : Options) (document : Json) :
    (check ⟨first, options⟩ document).model = (check ⟨second, options⟩ document).model ∧
    (∀ strict, (check ⟨first, options⟩ document).isAccepted strict =
      (check ⟨second, options⟩ document).isAccepted strict) ∧
    (∀ members, document = .object members → Member.withoutComments members ≠ [] →
      (check ⟨first, options⟩ document).report.diagnostics =
          (Member.withoutComments members).flatMap (raised ⟨first, options⟩) ∧
        (check ⟨second, options⟩ document).report.diagnostics =
          (Member.withoutComments members).flatMap (raised ⟨second, options⟩)) ∧
    (∀ name members stages, stages <+: first ∨ stages <+: second →
      raised ⟨stages, options⟩ (name, .object members) =
        stages.flatMap fun stage => raised ⟨[stage], options⟩ (name, .object members)) ∧
    ∀ name value, (∀ members, value ≠ .object members) →
      raised ⟨first, options⟩ (name, value) = raised ⟨second, options⟩ (name, value) := by
  refine ⟨?_, ?_, ?_, ?_, ?_⟩
  · exact model_check_congr (value_checkEntry_perm distinct permuted) document
  · exact fun strict => isAccepted_check_perm distinct permuted strict document
  · intro members shape entered
    subst shape
    exact ⟨diagnostics_check entered, diagnostics_check entered⟩
  · intro name members stages before
    have distinctBefore : stages.Nodup := by
      rcases before with before | before
      · exact distinct.sublist before.sublist
      · exact (permuted.nodup_iff.mp distinct).sublist before.sublist
    exact raised_object distinctBefore name members
  · intro name value other
    cases value with
    | object members => exact absurd rfl (other members)
    | _ => rfl

/-- An entry about which the lists of artifacts and of flags are reported, one of them with an
error. -/
def listsEntry : List (String × Json) :=
  [("exclude", .array [.string "docs", .string "rust"]), ("scheduling", .string "pure, pure")]

/-- The two blocks of the report on that entry follow the order of the stages. -/
theorem list_reports_exchanged :
    [Stage.exclude, .scheduling].Nodup ∧
      [Stage.exclude, .scheduling].Perm [.scheduling, .exclude] ∧
      raised ⟨[.exclude, .scheduling], .standard⟩ ("A", .object listsEntry) =
        [⟨"A.exclude[1]", .illegalExclude "rust"⟩,
          ⟨"A.scheduling[1]", .redundantScheduling "'pure' is listed more than once"⟩] ∧
      raised ⟨[.scheduling, .exclude], .standard⟩ ("A", .object listsEntry) =
        [⟨"A.scheduling[1]", .redundantScheduling "'pure' is listed more than once"⟩,
          ⟨"A.exclude[1]", .illegalExclude "rust"⟩] ∧
      (check ⟨[.exclude, .scheduling], .standard⟩ (.object [("A", .object listsEntry)])).model =
        (check ⟨[.scheduling, .exclude], .standard⟩
          (.object [("A", .object listsEntry)])).model := by
  have distinct : [Stage.exclude, .scheduling].Nodup := by decide
  have permuted : [Stage.exclude, .scheduling].Perm [.scheduling, .exclude] := by decide
  have artifacts : raised ⟨[.exclude], .standard⟩ ("A", .object listsEntry) =
      [⟨"A.exclude[1]", .illegalExclude "rust"⟩] := by decide +kernel
  have flags : raised ⟨[.scheduling], .standard⟩ ("A", .object listsEntry) =
      [⟨"A.scheduling[1]", .redundantScheduling "'pure' is listed more than once"⟩] := by
    decide +kernel
  obtain ⟨model, -, -, blocks, -⟩ := stage_order_irrelevant distinct permuted .standard
    (.object [("A", .object listsEntry)])
  refine ⟨distinct, permuted, ?_, ?_, model⟩
  · rw [blocks "A" listsEntry _ (Or.inl (List.prefix_refl _))]
    simp only [List.flatMap_cons, List.flatMap_nil, artifacts, flags]
    rfl
  · rw [blocks "A" listsEntry _ (Or.inr (List.prefix_refl _))]
    simp only [List.flatMap_cons, List.flatMap_nil, artifacts, flags]
    rfl

end Pipeline

end NodeDescriptor
