import NodeDescriptor.Proofs.Independence
import NodeDescriptor.Proofs.Json.DistinctKeys

/-!
# What acceptance means

A document is accepted exactly when its model has a node for every entry. The model, the errors
that keep single entries out of it and the verdict on the whole report are kept apart while a
document is checked; here they are seen to agree, for any list of stages and for documents without
entries as well.
-/

set_option autoImplicit false

namespace NodeDescriptor

/-! ## Verdicts on reports -/

theorem Diagnostic.isError_eq_false_iff {diagnostic : Diagnostic} :
    diagnostic.isError = false ↔ diagnostic.kind = .redundantScheduling := by
  cases shape : diagnostic.kind <;>
    simp [Diagnostic.isError, Diagnostic.severity, shape, ProblemKind.severity]

theorem Report.hasErrors_eq_false_iff {report : Report} :
    report.hasErrors = false ↔
      ∀ diagnostic ∈ report.diagnostics, diagnostic.isError = false := by
  simp [hasErrors]

/-- A report is empty when it has neither errors nor warnings. -/
theorem Report.isEmpty_iff {report : Report} :
    report.isEmpty = true ↔ report.hasErrors = false ∧
      ∀ diagnostic ∈ report.diagnostics, diagnostic.kind ≠ .redundantScheduling := by
  rw [isEmpty, List.isEmpty_iff, hasErrors_eq_false_iff]
  constructor
  · intro none
    simp [none]
  · intro neither
    obtain ⟨noErrors, noWarnings⟩ := neither
    refine List.eq_nil_iff_forall_not_mem.mpr fun diagnostic reported => ?_
    have harmless := Diagnostic.isError_eq_false_iff.mp (noErrors diagnostic reported)
    exact noWarnings diagnostic reported harmless

/-! ## Covered documents -/

/-- The document is an object with at least one entry, and the nodes of the model are those of its
entries, all of them and in their order. -/
def Model.Covers (model : Model) (document : Json) : Prop :=
  ∃ members, document = .object members ∧ Member.withoutComments members ≠ [] ∧
    model.nodes.keys = Entries.keys (Member.withoutComments members)

/-- Nothing was dropped from a document and, where rules are strict, nothing was warned about. -/
def Outcome.Passes (outcome : Outcome) (document : Json) (strict : Bool) : Prop :=
  outcome.model.Covers document ∧ (strict = true →
    ∀ diagnostic ∈ outcome.report.diagnostics, diagnostic.kind ≠ .redundantScheduling)

namespace Pipeline

variable {pipeline : Pipeline}

/-- An entry makes a node when no error is raised for it; one that is no object raises an error. -/
theorem isSome_checkEntry_iff_raised {name : String} {value : Json} :
    (pipeline.checkEntry name value).value.isSome = true ↔
      ∀ diagnostic ∈ pipeline.raised (name, value), diagnostic.isError = false := by
  rw [isSome_checkEntry_iff, List.any_eq_false]
  simp only [Bool.not_eq_true]
  constructor
  · exact fun both => both.2
  · intro noErrors
    cases value with
    | object members => exact ⟨⟨members, rfl⟩, noErrors⟩
    | _ =>
        have error := noErrors _ (List.mem_singleton_self _)
        cases error

private theorem keys_filterMap_made?_eq_iff {members : List (String × Json)} :
    Entries.keys (members.filterMap pipeline.made?) = Entries.keys members ↔
      ∀ member ∈ members, (pipeline.checkEntry member.1 member.2).value.isSome = true := by
  induction members with
  | nil => simp
  | cons member rest ih =>
      rw [List.forall_mem_cons, List.filterMap_cons]
      cases made : pipeline.made? member with
      | none =>
          have refused : (pipeline.checkEntry member.1 member.2).value = none :=
            Option.map_eq_none_iff.mp made
          -- One key is missing already, and the others cannot make up for it.
          have shorter := (@keys_filterMap_made?_sublist pipeline rest).length_le
          simp only [refused, Option.isSome_none, Bool.false_eq_true, false_and, iff_false]
          intro same
          have lengths := congrArg List.length same
          rw [Entries.keys_cons, List.length_cons] at lengths
          omega
      | some entry =>
          obtain ⟨name, node⟩ := entry
          obtain ⟨rfl, produced⟩ := made?_eq_some_iff.mp made
          simp [produced, ih]

/-- For a document with entries, the report holds no error exactly when every entry makes a
node. -/
theorem hasErrors_check_iff {members : List (String × Json)}
    (entered : Member.withoutComments members ≠ []) :
    (pipeline.check (.object members)).report.hasErrors = false ↔
      ∀ member ∈ Member.withoutComments members,
        (pipeline.checkEntry member.1 member.2).value.isSome = true := by
  rw [Report.hasErrors_eq_false_iff, diagnostics_check entered]
  simp only [List.forall_mem_flatMap]
  exact forall₂_congr fun member _ => isSome_checkEntry_iff_raised.symm

private theorem hasErrors_problemOutcome {problem : Problem}
    (grave : problem.kind ≠ .redundantScheduling) :
    (problemOutcome problem).report.hasErrors = true := by
  have error : (Finding.here problem).diagnostic.isError = true := by
    rw [← Bool.not_eq_false, Diagnostic.isError_eq_false_iff]
    exact grave
  simp [problemOutcome, Report.hasErrors, error]

private theorem hasErrors_check_eq_false_iff {document : Json}
    (distinct : document.hasDistinctKeys = true) :
    (pipeline.check document).report.hasErrors = false ↔
      (pipeline.check document).model.Covers document := by
  cases document with
  | object members =>
      by_cases entered : Member.withoutComments members = []
      · have refused : (pipeline.check (.object members)).report.hasErrors = true := by
          simp only [check, entered]
          exact hasErrors_problemOutcome (by simp [Problem.kind])
        simp [refused, Model.Covers, entered]
      · have distinctKeys := (Json.hasDistinctKeys_object_iff.mp distinct).1
        have keys : (pipeline.check (.object members)).model.nodes.keys =
            Entries.keys ((Member.withoutComments members).filterMap pipeline.made?) :=
          congrArg Entries.keys (entries_check_of_nodup distinctKeys)
        rw [hasErrors_check_iff entered, ← keys_filterMap_made?_eq_iff, ← keys]
        simp [Model.Covers, entered]
  | _ =>
      have refused := @hasErrors_problemOutcome (.wrongShape "an object of node definitions")
        (by simp [Problem.kind])
      simp [check, refused, Model.Covers]

/-- A document is accepted exactly when it is an object with entries and its model has a node for
each of them, in order and no other; strictly, when moreover no redundant flag was reported. In
these cases the result is the model, and in all others a rejection with the whole report. -/
theorem isAccepted_iff_passes (pipeline : Pipeline) {document : Json}
    (distinct : document.hasDistinctKeys = true) (strict : Bool) :
    ((pipeline.check document).isAccepted strict = true ↔
        (pipeline.check document).Passes document strict) ∧
      ((pipeline.check document).Passes document strict →
        (pipeline.check document).result strict = .ok (pipeline.check document).model) ∧
      (¬(pipeline.check document).Passes document strict →
        (pipeline.check document).result strict =
          .error ⟨(pipeline.check document).report.diagnostics⟩) := by
  have accepted : (pipeline.check document).isAccepted strict = true ↔
      (pipeline.check document).Passes document strict := by
    rw [Outcome.Passes, ← hasErrors_check_eq_false_iff distinct]
    cases strict with
    | false => simp [Outcome.isAccepted]
    | true => simp [Outcome.isAccepted, Report.isEmpty_iff]
  refine ⟨accepted, fun passes => ?_, fun fails => ?_⟩
  · rw [Outcome.result, if_pos (accepted.mpr passes)]
  · rw [Outcome.result, if_neg fun isAccepted => fails (accepted.mp isAccepted)]

/-- A warning does not keep an entry out of the model; strictly it rejects the document. -/
theorem warnedDocument_passes :
    (Json.object warnedDocument.entries).hasDistinctKeys = true ∧
      (listStages.check (.object warnedDocument.entries)).Passes
        (.object warnedDocument.entries) false ∧
      (listStages.check (.object warnedDocument.entries)).result true =
        .error ⟨[⟨"B.scheduling[1]",
          .redundantScheduling "'pure' is listed more than once"⟩]⟩ := by
  have distinct : (Json.object warnedDocument.entries).hasDistinctKeys = true := by decide +kernel
  have warned : (listStages.check (.object warnedDocument.entries)).report.diagnostics =
      [⟨"B.scheduling[1]", .redundantScheduling "'pure' is listed more than once"⟩] := by
    decide +kernel
  have normally := (isAccepted_iff_passes listStages distinct false).1.mp (by decide +kernel)
  have strictly : ¬(listStages.check (.object warnedDocument.entries)).Passes
      (.object warnedDocument.entries) true := by
    intro passes
    have accepted := (isAccepted_iff_passes listStages distinct true).1.mpr passes
    revert accepted
    decide +kernel
  refine ⟨distinct, normally, ?_⟩
  rw [(isAccepted_iff_passes listStages distinct true).2.2 strictly, warned]

end Pipeline

end NodeDescriptor
