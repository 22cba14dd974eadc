import NodeDescriptor.Proofs.Comments
import NodeDescriptor.Proofs.Document

/-!
# Entries of a document are independent

A pipeline reports on the entries of a document one after another and keeps nodes in the same
order, and neither the report on an entry nor its verdict depends on the entries around it. This
holds for any list of stages. Two documents put together therefore amount to both of them.
-/

set_option autoImplicit false

namespace NodeDescriptor.Pipeline

variable {pipeline : Pipeline}

/-! ## Reports -/

/-- What is reported about a member of a document. -/
def raised (pipeline : Pipeline) (member : String × Json) : List Diagnostic :=
  ((pipeline.checkEntry member.1 member.2).inside (.entry member.1)).diagnostics

private theorem diagnostics_foldl_addEntry (members : List (String × Json)) (outcome : Outcome) :
    (members.foldl pipeline.addEntry outcome).report.diagnostics =
      outcome.report.diagnostics ++ members.flatMap pipeline.raised := by
  induction members generalizing outcome with
  | nil => simp
  | cons member rest ih =>
      have step : (pipeline.addEntry outcome member).report.diagnostics =
          outcome.report.diagnostics ++ pipeline.raised member := rfl
      rw [List.foldl_cons, ih, step, List.append_assoc, List.flatMap_cons]

theorem diagnostics_check {members : List (String × Json)}
    (entered : Member.withoutComments members ≠ []) :
    (pipeline.check (.object members)).report.diagnostics =
      (Member.withoutComments members).flatMap pipeline.raised := by
  cases shape : Member.withoutComments members with
  | nil => exact absurd shape entered
  | cons member rest =>
      simp only [check, shape]
      exact diagnostics_foldl_addEntry (member :: rest) ⟨.empty, .empty⟩

theorem check_singleton {name : String} (uncommented : isCommentKey name = false) (value : Json) :
    pipeline.check (.object [(name, value)]) =
      pipeline.addEntry ⟨.empty, .empty⟩ (name, value) := by
  simp only [check, Member.withoutComments_singleton uncommented, List.foldl_cons, List.foldl_nil]

/-- The report on an entry is that on the document which holds nothing else. -/
theorem diagnostics_check_singleton {name : String} (uncommented : isCommentKey name = false)
    (value : Json) :
    (pipeline.check (.object [(name, value)])).report.diagnostics =
      pipeline.raised (name, value) := by
  rw [check_singleton uncommented]
  exact List.nil_append _

/-! ## Nodes -/

theorem keys_filterMap_made?_sublist (members : List (String × Json)) :
    (Entries.keys (members.filterMap pipeline.made?)).Sublist (Entries.keys members) := by
  induction members with
  | nil => exact List.Sublist.slnil
  | cons member rest ih =>
      rw [List.filterMap_cons]
      cases made : pipeline.made? member with
      | none => exact ih.cons member.1
      | some entry =>
          obtain ⟨name, node⟩ := entry
          obtain ⟨rfl, -⟩ := made?_eq_some_iff.mp made
          exact ih.cons_cons member.1

theorem entries_check_of_nodup {members : List (String × Json)}
    (distinct : (Entries.keys members).Nodup) :
    (pipeline.check (.object members)).model.nodes.entries =
      (Member.withoutComments members).filterMap pipeline.made? := by
  have distinctNodes : (Entries.keys ([] ++
      (Member.withoutComments members).filterMap pipeline.made?)).Nodup :=
    distinct.sublist ((keys_filterMap_made?_sublist _).trans
      (Member.keys_withoutComments_sublist members))
  rw [entries_check, Entries.merge_of_nodup distinctNodes, List.nil_append]

/-- An entry makes a node when it is an object and no error is raised for it. -/
theorem isSome_checkEntry_iff {name : String} {value : Json} :
    (pipeline.checkEntry name value).value.isSome = true ↔
      (∃ members, value = .object members) ∧
        (pipeline.raised (name, value)).any Diagnostic.isError = false := by
  -- Writing out a path leaves the problem as it is, and with it the severity.
  have sameErrors : (pipeline.raised (name, value)).any Diagnostic.isError =
      (pipeline.checkEntry name value).findings.any Finding.isError := by
    simp only [raised, Checked.diagnostics, Checked.findings_inside, List.any_map]
    rfl
  rw [sameErrors]
  cases value with
  | object members =>
      simp only [checkEntry, Checked.value_map, Checked.findings_map, Json.object.injEq,
        exists_eq', true_and]
      rw [Checked.hasErrors]
      cases (Stage.runAll pipeline.stages pipeline.options ⟨name, members⟩
        (Node.ofName name)).findings.any Finding.isError <;> simp
  | _ => simp [checkEntry]

/-! ## Documents -/

private theorem nodup_keys_append {left right : Dict Json}
    (disjoint : ∀ key ∈ left.keys, key ∉ right.keys) :
    (Entries.keys (left.entries ++ right.entries)).Nodup := by
  rw [Entries.keys, List.map_append, List.nodup_append]
  refine ⟨left.distinct, right.distinct, fun key inLeft other inRight same => ?_⟩
  subst same
  exact disjoint key inLeft inRight

private theorem contains_check_dict_iff {document : Dict Json} {name : String} {value : Json}
    (found : document.get? name = some value) (uncommented : isCommentKey name = false) :
    (pipeline.check (.object document.entries)).model.nodes.contains name = true ↔
      (pipeline.checkEntry name value).value.isSome = true := by
  rw [contains_check_iff, Option.isSome_iff_exists]
  constructor
  · intro kept
    obtain ⟨other, node, listed, -, made⟩ := kept
    have same : some other = some value := (Dict.get?_eq_some_iff.mpr listed).symm.trans found
    cases same
    exact ⟨node, made⟩
  · intro kept
    obtain ⟨node, made⟩ := kept
    exact ⟨value, node, Dict.get?_eq_some_iff.mp found, uncommented, made⟩

/-- For any stages: the report on a document is made of the reports on its entries alone, two
documents without a common key are checked together as they are one by one, and an entry is kept
exactly when it is an object and the report on it alone holds no error. -/
theorem entries_independent (pipeline : Pipeline) :
    (∀ document : Dict Json, (∃ key ∈ document.keys, isCommentKey key = false) →
      (pipeline.check (.object document.entries)).report.diagnostics =
        (Member.withoutComments document.entries).flatMap fun member =>
          (pipeline.check (.object [member])).report.diagnostics) ∧
    (∀ left right : Dict Json, (∀ key ∈ left.keys, key ∉ right.keys) →
      (∃ key ∈ left.keys, isCommentKey key = false) →
      (∃ key ∈ right.keys, isCommentKey key = false) →
      (pipeline.check (.object (left.entries ++ right.entries))).report.diagnostics =
          (pipeline.check (.object left.entries)).report.diagnostics ++
            (pipeline.check (.object right.entries)).report.diagnostics ∧
        (pipeline.check (.object (left.entries ++ right.entries))).model.nodes.entries =
          (pipeline.check (.object left.entries)).model.nodes.entries ++
            (pipeline.check (.object right.entries)).model.nodes.entries) ∧
    ∀ (document : Dict Json) (name : String) (value : Json),
      document.get? name = some value → isCommentKey name = false →
        ((pipeline.check (.object document.entries)).model.nodes.contains name = true ↔
          (∃ members, value = .object members) ∧
            (pipeline.check (.object [(name, value)])).report.hasErrors = false) := by
  refine ⟨?_, ?_, ?_⟩
  · intro document entry
    obtain ⟨key, listed, uncommented⟩ := entry
    rw [diagnostics_check (Member.withoutComments_ne_nil listed uncommented)]
    refine List.flatMap_congr fun member inDocument => ?_
    exact (diagnostics_check_singleton (Member.mem_withoutComments.mp inDocument).2 _).symm
  · intro left right disjoint leftEntry rightEntry
    obtain ⟨leftKey, inLeft, leftUncommented⟩ := leftEntry
    obtain ⟨rightKey, inRight, rightUncommented⟩ := rightEntry
    have leftEntered := Member.withoutComments_ne_nil inLeft leftUncommented
    have rightEntered := Member.withoutComments_ne_nil inRight rightUncommented
    have bothEntered : Member.withoutComments (left.entries ++ right.entries) ≠ [] := by
      rw [Member.withoutComments_append]
      exact List.append_ne_nil_of_left_ne_nil leftEntered _
    constructor
    · rw [diagnostics_check bothEntered, diagnostics_check leftEntered,
        diagnostics_check rightEntered, Member.withoutComments_append, List.flatMap_append]
    · rw [entries_check_of_nodup (nodup_keys_append disjoint),
        entries_check_of_nodup left.distinct, entries_check_of_nodup right.distinct,
        Member.withoutComments_append, List.filterMap_append]
  · intro document name value found uncommented
    rw [contains_check_dict_iff found uncommented, isSome_checkEntry_iff, Report.hasErrors,
      diagnostics_check_singleton uncommented]

/-- Two stages, one of which warns. -/
def listStages : Pipeline := ⟨[.scheduling, .exclude], .standard⟩

/-- A comment, and an entry that excludes something that is never made. -/
def refusedDocument : Dict Json :=
  ⟨[("$comment", .string "first"), ("A", .object [("exclude", .array [.string "rust"])])],
    by decide⟩

/-- An entry with a flag that is given twice. -/
def warnedEntry : Json := .object [("scheduling", .string "pure, pure")]

def warnedDocument : Dict Json := ⟨[("B", warnedEntry)], by decide⟩

/-- One entry is refused and the other is kept with a warning, together as alone. -/
theorem refused_beside_warned :
    (∀ key ∈ refusedDocument.keys, key ∉ warnedDocument.keys) ∧
      (∃ key ∈ refusedDocument.keys, isCommentKey key = false) ∧
      (∃ key ∈ warnedDocument.keys, isCommentKey key = false) ∧
      (listStages.check (.object (refusedDocument.entries ++ warnedDocument.entries))).report =
        ⟨[⟨"A.exclude[0]", .illegalExclude "rust"⟩,
          ⟨"B.scheduling[1]", .redundantScheduling "'pure' is listed more than once"⟩]⟩ ∧
      (listStages.check (.object warnedDocument.entries)).model.nodes.contains "B" = true := by
  have disjoint : ∀ key ∈ refusedDocument.keys, key ∉ warnedDocument.keys := by decide
  have refusedEntry : ∃ key ∈ refusedDocument.keys, isCommentKey key = false := by decide
  have keptEntry : ∃ key ∈ warnedDocument.keys, isCommentKey key = false := by decide
  obtain ⟨-, together, kept⟩ := entries_independent listStages
  have appended := (together refusedDocument warnedDocument disjoint refusedEntry keptEntry).1
  refine ⟨disjoint, refusedEntry, keptEntry, ?_, ?_⟩
  · have refusedAlone : (listStages.check (.object refusedDocument.entries)).report.diagnostics =
        [⟨"A.exclude[0]", .illegalExclude "rust"⟩] := by decide +kernel
    have warnedAlone : (listStages.check (.object warnedDocument.entries)).report.diagnostics =
        [⟨"B.scheduling[1]", .redundantScheduling "'pure' is listed more than once"⟩] := by
      decide +kernel
    rw [refusedAlone, warnedAlone] at appended
    exact congrArg Report.mk appended
  · have found : warnedDocument.get? "B" = some warnedEntry := by decide +kernel
    have noErrors : (listStages.check (.object [("B", warnedEntry)])).report.hasErrors = false := by
      decide +kernel
    exact (kept warnedDocument "B" warnedEntry found (by decide)).mpr ⟨⟨_, rfl⟩, noErrors⟩

end NodeDescriptor.Pipeline
