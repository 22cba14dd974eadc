import NodeDescriptor.Proofs.Entry.Result
import NodeDescriptor.Proofs.FixedPoint.Stages
import NodeDescriptor.Proofs.Scheduling

/-!
# Stages that are applied twice

A stage that is applied to a node for the second time finds the node filled in by the first time.
What it writes depends on the entry only, so the node stays as it is. What it reports depends on the
entry only as well, except that a scheduling flag which the node has already is redundant.
-/

set_option autoImplicit false

namespace NodeDescriptor

variable {options : Options} {entry : Entry} {node : Node}

/-! ## Fields -/

private theorem getD_getD_self {α : Type} (read : Option α) (before : α) :
    read.getD (read.getD before) = read.getD before := by
  cases read <;> rfl

private theorem RequiredFields.fill_fill (fields : RequiredFields) (node : Node) :
    fields.fill (fields.fill node) = fields.fill node := by
  simp only [fill, getD_getD_self]

private theorem Shorthand.fill_fill (fields : Shorthand) (node : Node) :
    fields.fill (fields.fill node) = fields.fill node := by
  simp only [fill, getD_getD_self]

private theorem ExcludeList.value_check_check :
    (check entry (check entry node).value).value = (check entry node).value := by
  simp only [check, Checked.value_map, Distinct.addAll_addAll_self]

/-! ## Attributes -/

/-- A dictionary to which entries are written one after another. -/
def Dict.merge {α : Type} (dict : Dict α) (additions : List (String × α)) : Dict α :=
  ⟨Entries.merge dict.entries additions, Entries.nodup_keys_merge dict.distinct additions⟩

theorem Dict.merge_merge_self {α : Type} (dict : Dict α) (additions : List (String × α)) :
    (dict.merge additions).merge additions = dict.merge additions :=
  Dict.ext_entries (Entries.merge_merge_self dict.distinct)

namespace AttributeSections

/-- The attributes that were read of a section, each with its name. -/
def added (entry : Entry) (part : Section) : List (String × Attribute) :=
  ((ofEntry entry part).value.getD []).map fun attr => (attr.name, attr)

private theorem value_checkSection_eq (part : Section) :
    (checkSection entry node part).value =
      node.withAttributes part ((node.attributes part).merge (added entry part)) :=
  foldl_withAttribute rfl

private theorem value_check_eq :
    (check entry node).value =
      { node with
        inputs := node.inputs.merge (added entry .inputs)
        outputs := node.outputs.merge (added entry .outputs)
        state := node.state.merge (added entry .state) } := by
  have steps : (check entry node).value = (checkSection entry (checkSection entry
      (checkSection entry node .inputs).value .outputs).value .state).value := rfl
  rw [steps, value_checkSection_eq, value_checkSection_eq, value_checkSection_eq]
  rfl

private theorem value_check_check :
    (check entry (check entry node).value).value = (check entry node).value := by
  simp only [value_check_eq, Dict.merge_merge_self]

end AttributeSections

/-! ## Scheduling flags -/

namespace SchedulingList

variable {items : List Json}

/-- What is found in an item if the node has its flag already. -/
def findAgain (item : Json × Nat) : Finding :=
  ⟨FieldPath.root.index item.2, match (Record.keyword? item.1 : Option SchedulingFlag) with
    | some flag => .redundantScheduling (quoted flag ++ " is listed more than once")
    | none => .wrongShape "a scheduling flag"⟩

private theorem addItems_of_known {flags : List SchedulingFlag}
    (known : items.filterMap Record.keyword? ⊆ flags) (position : Nat) :
    addItems position flags items = ⟨flags, (items.zipIdx position).map findAgain⟩ := by
  induction items generalizing position with
  | nil => rfl
  | cons item rest ih =>
      rw [addItems]
      cases read : (Record.keyword? item : Option SchedulingFlag) with
      | none =>
          rw [List.filterMap_cons_none read] at known
          simp only [ih known, List.zipIdx_cons, List.map_cons, findAgain, read]
      | some flag =>
          rw [List.filterMap_cons_some read, List.cons_subset] at known
          simp only [known.1, if_true, ih known.2, List.zipIdx_cons, List.map_cons, findAgain, read]

private theorem wrongShapes_addItems (flags : List SchedulingFlag) (position : Nat) :
    (addItems position flags items).findings.filter
        (fun finding => finding.problem.kind = .wrongShape) =
      ((items.zipIdx position).map findAgain).filter
        fun finding => finding.problem.kind = .wrongShape := by
  -- The flags before an item decide only whether it is kept or redundant.
  induction items generalizing position flags with
  | nil => rfl
  | cons item rest ih =>
      rw [addItems, List.zipIdx_cons, List.map_cons]
      cases read : (Record.keyword? item : Option SchedulingFlag) with
      | none =>
          have again : findAgain (item, position) =
              ⟨FieldPath.root.index position, .wrongShape "a scheduling flag"⟩ := by
            rw [findAgain, read]
          rw [again, List.filter_cons_of_pos rfl, List.filter_cons_of_pos rfl, ih]
      | some flag =>
          have again : findAgain (item, position) = ⟨FieldPath.root.index position,
              .redundantScheduling (quoted flag ++ " is listed more than once")⟩ := by
            rw [findAgain, read]
          rw [again, List.filter_cons_of_neg (by simp [Problem.kind])]
          dsimp only
          split
          · rw [List.filter_cons_of_neg (by simp [Problem.kind]), ih]
          · exact ih (flags ++ [flag]) (position + 1)

private theorem known_of_added (flags : List SchedulingFlag) (position : Nat) :
    items.filterMap Record.keyword? ⊆ (addItems position flags items).value := by
  rw [value_addItems]
  exact fun flag listed => Distinct.mem_addAll.mpr (.inr listed)

private theorem check_of_not_given (missing : ∀ items, ¬Given entry.members items) :
    ∃ findings, ∀ node, check entry node = ⟨node, findings⟩ := by
  cases written : entry.members.lookup "scheduling" with
  | none =>
      refine ⟨[], fun node => ?_⟩
      simp only [check, Member.optional, written]
      rfl
  | some value =>
      have unlisted : items? value = none := by
        refine Option.eq_none_iff_forall_ne_some.mpr fun items listed => missing items ?_
        rw [Given, written, Option.bind_some, listed]
      refine ⟨[⟨.entry "scheduling",
        .wrongShape "a scheduling flag or a list of scheduling flags"⟩], fun node => ?_⟩
      simp only [check, Member.optional, written, read, unlisted]
      rfl

end SchedulingList

/-! ## Stages -/

namespace Stage

/-- Apply a stage to a node in a context; what it finds goes behind what was reported before. -/
def apply (stage : Stage) (options : Options) (entry : Entry) (state : Node × List Diagnostic) :
    Node × List Diagnostic :=
  let outcome := (stage.run options entry state.1).inside (.entry entry.name)
  (outcome.value, state.2 ++ outcome.diagnostics)

/-- A run of stages applies them one after another. -/
theorem foldl_apply (stages : List Stage) (state : Node × List Diagnostic) :
    stages.foldl (fun state stage => stage.apply options entry state) state =
      let outcome := (runAll stages options entry state.1).inside (.entry entry.name)
      (outcome.value, state.2 ++ outcome.diagnostics) := by
  induction stages generalizing state with
  | nil => simp [runAll, Checked.inside, Checked.diagnostics, Checked.clean]
  | cons stage rest ih =>
      rw [List.foldl_cons, ih]
      simp [apply, runAll, Checked.inside, Checked.diagnostics]

/-- Applying the stage again leaves the node as it is and reports the same block again. -/
def Repeats (stage : Stage) (options : Options) (entry : Entry)
    (state : Node × List Diagnostic) : Prop :=
  let once := stage.apply options entry state
  ∃ block, once.2 = state.2 ++ block ∧ stage.apply options entry once = (once.1, once.2 ++ block)

variable {stage : Stage} {state : Node × List Diagnostic}

private theorem repeats_of_run {findings : List Finding}
    (sameFindings : ∀ node, (stage.run options entry node).findings = findings)
    (sameNode : ∀ node, (stage.run options entry (stage.run options entry node).value).value =
      (stage.run options entry node).value) : stage.Repeats options entry state := by
  refine ⟨(Checked.mk () findings |>.inside (.entry entry.name)).diagnostics, ?_, ?_⟩
  · simp only [apply, Checked.diagnostics, Checked.findings_inside, sameFindings]
  · simp only [apply, Checked.diagnostics, Checked.findings_inside, Checked.value_inside,
      sameFindings, sameNode]

private theorem repeats_of_ne (first : stage ≠ .scheduling) (second : stage ≠ .tests) :
    stage.Repeats options entry state := by
  cases stage with
  | requiredFields => exact repeats_of_run (fun _ => rfl) fun _ => RequiredFields.fill_fill _ _
  | shorthand => exact repeats_of_run (fun _ => rfl) fun _ => Shorthand.fill_fill _ _
  | exclude => exact repeats_of_run (fun _ => rfl) fun _ => ExcludeList.value_check_check
  | attributes =>
      exact repeats_of_run (fun _ => AttributeSections.findings_check) fun _ =>
        AttributeSections.value_check_check
  | scheduling => exact absurd rfl first
  | tests => exact absurd rfl second

open SchedulingList

private theorem apply_scheduling {items : List Json} (given : Given entry.members items) :
    Stage.scheduling.apply options entry state =
      let added := addItems 0 state.1.scheduling items
      ({ state.1 with scheduling := added.value },
        state.2 ++ (added.findings.map
            (fun finding => (finding.inside (placeIn entry.name)).diagnostic) ++
          scopeReports (placeIn entry.name) (added.value.map Record.ofKeyword))) := by
  simp only [apply, run, check_of_given given, Checked.diagnostics, Checked.findings_inside,
    Checked.value_inside, List.map_append, List.map_map,
    ← diagnostics_scopeFindings (Tracks.words _)]
  rfl

/-- Whatever a node and a context are like, the stages for single fields, excluded artifacts and
attributes leave the node alone when they are applied again, and report what they reported before.
So does the stage for scheduling flags where no list is given. Where one is given the node is left
alone as well; then every item that is a flag is redundant, and the other reports stay the same. -/
theorem applied_twice (options : Options) (entry : Entry) (state : Node × List Diagnostic) :
    (∀ stage ∈ [Stage.requiredFields, .shorthand, .exclude, .attributes],
        stage.Repeats options entry state) ∧
      ((∀ items, ¬Given entry.members items) → Stage.scheduling.Repeats options entry state) ∧
      ∀ items, Given entry.members items →
        let once := Stage.scheduling.apply options entry state
        let again := (items.zipIdx.map findAgain).map fun finding =>
          (finding.inside (placeIn entry.name)).diagnostic
        let scopes := scopeReports (placeIn entry.name) (once.1.scheduling.map Record.ofKeyword)
        ∃ first, once.2 = state.2 ++ (first ++ scopes) ∧
          Stage.scheduling.apply options entry once = (once.1, once.2 ++ (again ++ scopes)) ∧
          first.filter (fun diagnostic => diagnostic.kind = .wrongShape) =
            again.filter fun diagnostic => diagnostic.kind = .wrongShape := by
  refine ⟨?_, ?_, ?_⟩
  · intro stage listed
    refine repeats_of_ne ?_ ?_
    · rintro rfl
      simp at listed
    · rintro rfl
      simp at listed
  · intro missing
    obtain ⟨findings, checked⟩ := check_of_not_given missing
    have sameFindings (node : Node) :
        (Stage.scheduling.run options entry node).findings = findings :=
      congrArg Checked.findings (checked node)
    have sameNode (node : Node) : (Stage.scheduling.run options entry node).value = node :=
      congrArg Checked.value (checked node)
    exact repeats_of_run sameFindings fun node => sameNode _
  · intro items given
    let added := addItems 0 state.1.scheduling items
    let report (finding : Finding) : Diagnostic := (finding.inside (placeIn entry.name)).diagnostic
    have known : addItems 0 added.value items = ⟨added.value, items.zipIdx.map findAgain⟩ :=
      addItems_of_known (known_of_added state.1.scheduling 0) 0
    refine ⟨added.findings.map report, ?_, ?_, ?_⟩
    · rw [apply_scheduling given]
    · rw [apply_scheduling given, apply_scheduling given]
      simp only [known, added]
    · rw [List.filter_map, List.filter_map]
      exact congrArg (List.map report) (wrongShapes_addItems state.1.scheduling 0)

def flaggedEntry : Entry :=
  ⟨"N", [("exclude", .array [.string "docs"]),
    ("scheduling", .array [.string "pure", .null, .string "usd"])]⟩

def unlistedEntry : Entry := ⟨"N", [("scheduling", .ofNat 3)]⟩

def usdState : Node × List Diagnostic :=
  ({ Node.ofName "N" with scheduling := [.touches .usd .readWrite] }, [⟨"N.version", .missing⟩])

theorem flaggedEntry_applied_twice :
    Stage.exclude.Repeats .standard flaggedEntry usdState ∧
      (∀ items, ¬Given unlistedEntry.members items) ∧
      Stage.scheduling.Repeats .standard unlistedEntry usdState ∧
      Given flaggedEntry.members [.string "pure", .null, .string "usd"] ∧
      let once := Stage.scheduling.apply .standard flaggedEntry usdState
      let twice := Stage.scheduling.apply .standard flaggedEntry once
      twice.1 = once.1 ∧ twice.2 = [⟨"N.version", .missing⟩,
        ⟨"N.scheduling[1]", .wrongShape "a scheduling flag"⟩,
        ⟨"N.scheduling[2]", .redundantScheduling "'usd' is listed more than once"⟩,
        ⟨"N.scheduling[0]", .redundantScheduling "'pure' is listed more than once"⟩,
        ⟨"N.scheduling[1]", .wrongShape "a scheduling flag"⟩,
        ⟨"N.scheduling[2]", .redundantScheduling "'usd' is listed more than once"⟩] := by
  have missing : ∀ items, ¬Given unlistedEntry.members items := by
    intro items given
    cases given
  have given : Given flaggedEntry.members [.string "pure", .null, .string "usd"] := rfl
  obtain ⟨others, -, listed⟩ := applied_twice .standard flaggedEntry usdState
  obtain ⟨-, unlisted, -⟩ := applied_twice .standard unlistedEntry usdState
  obtain ⟨first, -, twice, -⟩ := listed _ given
  refine ⟨others .exclude (by decide), missing, unlisted missing, given, ?_, ?_⟩
  · rw [twice]
  · rw [twice]
    decide +kernel

end Stage

end NodeDescriptor
