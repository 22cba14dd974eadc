import NodeDescriptor.Proofs.FirstOccurrences
import NodeDescriptor.Proofs.Independence
import NodeDescriptor.Proofs.Legality.Forms

/-!
# Scheduling lists

An item of a scheduling list is kept, or it is the word of a flag that stands before it in the list,
or it is the word of no flag. Nothing else is said about single items. About the list as a whole it
is said which scopes have all of their flags in it, and for that the order of the items does not
matter.
-/

set_option autoImplicit false

namespace NodeDescriptor

namespace SchedulingList

/-! ## Verdicts -/

/-- What becomes of an item of a scheduling list. -/
inductive Verdict where
  | kept (flag : SchedulingFlag)
  | repeated (flag : SchedulingFlag)
  | illegal
  deriving DecidableEq

/-- The verdict on an item, given the items before it. -/
inductive Judged (before : List Json) : Json → Verdict → Prop where
  | kept (flag : SchedulingFlag) (fresh : .string (Keyword.word flag) ∉ before) :
      Judged before (.string (Keyword.word flag)) (.kept flag)
  | repeated (flag : SchedulingFlag) (again : .string (Keyword.word flag) ∈ before) :
      Judged before (.string (Keyword.word flag)) (.repeated flag)
  | illegal {item : Json} (other : ∀ flag : SchedulingFlag, item ≠ .string (Keyword.word flag)) :
      Judged before item .illegal

/-- The verdicts on items, one after another, given the items before them. -/
inductive Verdicts : List Json → List Json → List Verdict → Prop where
  | nil {before : List Json} : Verdicts before [] []
  | cons {before rest : List Json} {item : Json} {verdict : Verdict} {verdicts : List Verdict}
      (head : Judged before item verdict) (tail : Verdicts (before ++ [item]) rest verdicts) :
      Verdicts before (item :: rest) (verdict :: verdicts)

namespace Verdict

def flag? : Verdict → Option SchedulingFlag
  | .kept flag => some flag
  | .repeated _ | .illegal => none

def problem? : Verdict → Option Problem
  | .kept _ => none
  | .repeated flag => some (.redundantScheduling (quoted flag ++ " is listed more than once"))
  | .illegal => some (.wrongShape "a scheduling flag")

end Verdict

variable {before items others : List Json} {item : Json} {verdict : Verdict}
  {verdicts : List Verdict}

theorem spelling_injective :
    Function.Injective fun flag : SchedulingFlag => Json.string (Keyword.word flag) :=
  fun _ _ same => Keyword.word_injective (Json.string.inj same)

private theorem keyword?_word (flag : SchedulingFlag) :
    Record.keyword? (Json.string (Keyword.word flag)) = some flag :=
  Json.keyword?_eq_some_iff.mpr rfl

private theorem keyword?_eq_none_iff : (Record.keyword? item : Option SchedulingFlag) = none ↔
    ∀ flag : SchedulingFlag, item ≠ .string (Keyword.word flag) := by
  rw [Option.eq_none_iff_forall_ne_some]
  exact forall_congr' fun flag => not_congr Json.keyword?_eq_some_iff

private theorem exists_judged (before : List Json) (item : Json) :
    ∃ verdict, Judged before item verdict := by
  by_cases spelled : ∃ flag : SchedulingFlag, item = .string (Keyword.word flag)
  · obtain ⟨flag, rfl⟩ := spelled
    by_cases again : Json.string (Keyword.word flag) ∈ before
    · exact ⟨_, .repeated flag again⟩
    · exact ⟨_, .kept flag again⟩
  · exact ⟨_, .illegal (not_exists.mp spelled)⟩

theorem Judged.unique {other : Verdict} (one : Judged before item verdict)
    (same : Judged before item other) : verdict = other := by
  generalize written : item = value at same
  cases one with
  | kept flag fresh =>
      cases same with
      | kept => rw [spelling_injective written]
      | repeated _ again => exact absurd (written ▸ again) fresh
      | illegal other => exact absurd written.symm (other flag)
  | repeated flag again =>
      cases same with
      | kept _ fresh => exact absurd (written ▸ again) fresh
      | repeated => rw [spelling_injective written]
      | illegal other => exact absurd written.symm (other flag)
  | illegal other =>
      cases same with
      | kept flag => exact absurd written (other flag)
      | repeated flag => exact absurd written (other flag)
      | illegal => rfl

private theorem exists_verdicts (before items : List Json) :
    ∃ verdicts, Verdicts before items verdicts := by
  induction items generalizing before with
  | nil => exact ⟨[], .nil⟩
  | cons item rest ih =>
      obtain ⟨verdict, head⟩ := exists_judged before item
      obtain ⟨verdicts, tail⟩ := ih (before ++ [item])
      exact ⟨_, .cons head tail⟩

theorem Verdicts.unique {otherVerdicts : List Verdict} (one : Verdicts before items verdicts)
    (same : Verdicts before items otherVerdicts) : verdicts = otherVerdicts := by
  induction one generalizing otherVerdicts with
  | nil =>
      cases same
      rfl
  | cons head _ ih =>
      cases same with
      | cons sameHead sameTail => rw [head.unique sameHead, ih sameTail]

theorem Verdicts.length_eq (judged : Verdicts before items verdicts) :
    verdicts.length = items.length := by
  induction judged with
  | nil => rfl
  | cons _ _ ih => rw [List.length_cons, List.length_cons, ih]

/-! ## Flags -/

theorem value_addItems (position : Nat) (flags : List SchedulingFlag) (items : List Json) :
    (addItems position flags items).value =
      Distinct.addAll flags (items.filterMap Record.keyword?) := by
  induction items generalizing position flags with
  | nil => rfl
  | cons item rest ih =>
      rw [addItems]
      cases read : (Record.keyword? item : Option SchedulingFlag) with
      | none =>
          rw [List.filterMap_cons_none read]
          exact ih (position + 1) flags
      | some flag =>
          have step : Distinct.addAll flags (flag :: rest.filterMap Record.keyword?) =
              Distinct.addAll (Distinct.add flags flag) (rest.filterMap Record.keyword?) := rfl
          rw [List.filterMap_cons_some read, step, Distinct.add]
          dsimp only
          split
          · exact ih (position + 1) flags
          · exact ih (position + 1) (flags ++ [flag])

/-- The flags are those whose words are among the items that were seen. -/
def Tracks (flags : List SchedulingFlag) (seen : List Json) : Prop :=
  ∀ flag, flag ∈ flags ↔ .string (Keyword.word flag) ∈ seen

namespace Tracks

variable {flags : List SchedulingFlag} {seen : List Json}

theorem nil : Tracks [] [] := by simp [Tracks]

private theorem keep (tracks : Tracks flags seen) (flag : SchedulingFlag) :
    Tracks (flags ++ [flag]) (seen ++ [.string (Keyword.word flag)]) := by
  intro other
  have same : Json.string (Keyword.word other) = .string (Keyword.word flag) ↔ other = flag :=
    spelling_injective.eq_iff
  simp only [List.mem_append, List.mem_singleton, tracks other, same]

private theorem pass (tracks : Tracks flags seen)
    (known : ∀ flag : SchedulingFlag, item = .string (Keyword.word flag) → item ∈ seen) :
    Tracks flags (seen ++ [item]) := by
  intro flag
  rw [tracks flag, List.mem_append, List.mem_singleton]
  refine ⟨.inl, fun listed => listed.elim id fun spelled => ?_⟩
  rw [spelled]
  exact known flag spelled.symm

theorem ofList (items : List Json) :
    Tracks (Distinct.ofList (items.filterMap Record.keyword?)) items := by
  intro flag
  rw [(FirstOccurrences.ofList _).mem_iff, List.mem_filterMap]
  simp only [Json.keyword?_eq_some_iff, exists_eq_right]

theorem words (flags : List SchedulingFlag) : Tracks flags (flags.map Record.ofKeyword) :=
  fun _ => (List.mem_map_of_injective spelling_injective).symm

end Tracks

/-! ## Findings -/

def itemFinding? (place : Verdict × Nat) : Option Finding :=
  place.1.problem?.map fun problem => ⟨FieldPath.root.index place.2, problem⟩

private theorem Verdicts.addItems_eq {seen : List Json} {flags : List SchedulingFlag}
    (judged : Verdicts seen items verdicts) (tracks : Tracks flags seen) :
    addItems seen.length flags items =
      ⟨flags ++ verdicts.filterMap Verdict.flag?,
        (verdicts.zipIdx seen.length).filterMap itemFinding?⟩ := by
  -- With each item the flags keep tracking the items that were seen.
  induction judged generalizing flags with
  | nil => simp [addItems, Checked.clean]
  | @cons seen rest item verdict verdicts head _ ih =>
      rw [List.length_append, List.length_singleton] at ih
      cases head with
      | kept flag fresh =>
          have absent : flag ∉ flags := fun listed => fresh ((tracks flag).mp listed)
          simp only [addItems, keyword?_word, absent, if_false, ih (tracks.keep flag),
            List.zipIdx_cons]
          simp [List.filterMap_cons, Verdict.flag?, itemFinding?, Verdict.problem?]
      | repeated flag again =>
          have present : flag ∈ flags := (tracks flag).mpr again
          simp only [addItems, keyword?_word, present, if_true, ih (tracks.pass fun _ _ => again),
            List.zipIdx_cons]
          simp [List.filterMap_cons, Verdict.flag?, itemFinding?, Verdict.problem?]
      | illegal other =>
          have unread := keyword?_eq_none_iff.mpr other
          have passed := tracks.pass fun flag spelled => absurd spelled (other flag)
          simp only [addItems, unread, ih passed, List.zipIdx_cons]
          simp [List.filterMap_cons, Verdict.flag?, itemFinding?, Verdict.problem?]

theorem Verdicts.value_addItems (judged : Verdicts [] items verdicts) :
    (addItems 0 [] items).value = verdicts.filterMap Verdict.flag? :=
  congrArg Checked.value (judged.addItems_eq Tracks.nil)

private theorem Verdicts.firstOccurrences (judged : Verdicts [] items verdicts) :
    FirstOccurrences (items.filterMap Record.keyword?) (verdicts.filterMap Verdict.flag?) := by
  rw [← judged.value_addItems, SchedulingList.value_addItems]
  exact FirstOccurrences.ofList _

/-! ## Reports -/

/-- What is reported about single items of a list at a place. -/
def itemReports (place : FieldPath) (verdicts : List Verdict) : List Diagnostic :=
  verdicts.zipIdx.filterMap fun judged =>
    judged.1.problem?.map fun problem => ⟨(place.index judged.2).text, problem⟩

/-- All three flags of a scope are in the list. -/
def Covered (items : List Json) (scope : SchedulingScope) : Prop :=
  ∀ ending ∈ ["", "-read", "-write"], .string (Keyword.word scope ++ ending) ∈ items

instance {scope : SchedulingScope} : Decidable (Covered items scope) :=
  inferInstanceAs (Decidable (∀ ending ∈ _, _))

def scopeReport (place : FieldPath) (scope : SchedulingScope) : Diagnostic :=
  let word := Keyword.word scope
  ⟨place.text, .redundantScheduling
    ("'" ++ word ++ "' already covers '" ++ word ++ "-read' and '" ++ word ++ "-write'")⟩

/-- What is reported about a list at a place as a whole. -/
def scopeReports (place : FieldPath) (items : List Json) : List Diagnostic :=
  ([.global, .static, .topology, .usd].filter fun scope => Covered items scope).map
    (scopeReport place)

private theorem diagnostics_itemFindings (place : FieldPath) (verdicts : List Verdict) :
    (verdicts.zipIdx.filterMap itemFinding?).map
        (fun finding => (finding.inside place).diagnostic) = itemReports place verdicts := by
  rw [List.map_filterMap, itemReports]
  refine List.filterMap_congr fun judged _ => ?_
  rw [itemFinding?, Option.map_map]
  rfl

private theorem all_mem_ofScope_iff {flags : List SchedulingFlag} (tracks : Tracks flags items)
    (scope : SchedulingScope) :
    (SchedulingFlag.ofScope scope).all (· ∈ flags) = true ↔ Covered items scope := by
  have endings : ["", "-read", "-write"] = SchedulingAccess.all.map SchedulingAccess.ending := rfl
  rw [List.all_eq_true, Covered, endings, SchedulingFlag.ofScope, List.forall_mem_map,
    List.forall_mem_map]
  refine forall₂_congr fun access _ => ?_
  rw [decide_eq_true_iff, tracks]
  rfl

private theorem diagnostic_scopeFinding (place : FieldPath) (scope : SchedulingScope) :
    ((Finding.here (.redundantScheduling (quoted (.touches scope .readWrite) ++
        " already covers " ++ quoted (.touches scope .read) ++ " and " ++
        quoted (.touches scope .write)))).inside place).diagnostic = scopeReport place scope := by
  have here : (place.inside .root).text = place.text := by simp [FieldPath.inside, FieldPath.root]
  rw [Finding.diagnostic, Finding.inside, Finding.here, here, scopeReport]
  cases scope <;> rfl

theorem diagnostics_scopeFindings {flags : List SchedulingFlag} (tracks : Tracks flags items)
    (place : FieldPath) :
    (Keyword.all.filterMap (scopeFinding? flags)).map
        (fun finding => (finding.inside place).diagnostic) = scopeReports place items := by
  have each (scopes : List SchedulingScope) :
      (scopes.filterMap (scopeFinding? flags)).map
          (fun finding => (finding.inside place).diagnostic) =
        (scopes.filter fun scope => Covered items scope).map (scopeReport place) := by
    induction scopes with
    | nil => rfl
    | cons scope rest ih =>
        by_cases covered : Covered items scope
        · have found : scopeFinding? flags scope = some _ :=
            (scopeFinding?_eq flags scope).trans
              (if_pos ((all_mem_ofScope_iff tracks scope).mpr covered))
          rw [List.filterMap_cons_some found, List.map_cons, ih, diagnostic_scopeFinding,
            List.filter_cons_of_pos (by simpa using covered), List.map_cons]
        · have silent : scopeFinding? flags scope = none :=
            (scopeFinding?_eq flags scope).trans
              (if_neg (mt (all_mem_ofScope_iff tracks scope).mp covered))
          rw [List.filterMap_cons_none silent, ih,
            List.filter_cons_of_neg (by simpa using covered)]
  exact each Keyword.all

/-! ## Counting -/

def Verdict.kind? (verdict : Verdict) : Option ProblemKind := verdict.problem?.map Problem.kind

private theorem map_kind_itemReports (place : FieldPath) (verdicts : List Verdict) :
    (itemReports place verdicts).map Diagnostic.kind = verdicts.filterMap Verdict.kind? := by
  have unnumbered : verdicts.filterMap Verdict.kind? =
      verdicts.zipIdx.filterMap (Verdict.kind? ∘ Prod.fst) := by
    rw [← List.filterMap_map, List.zipIdx_map_fst]
  rw [unnumbered, itemReports, List.map_filterMap]
  refine List.filterMap_congr fun judged _ => ?_
  rw [Option.map_map]
  rfl

private theorem length_verdicts (verdicts : List Verdict) :
    verdicts.length = (verdicts.filterMap Verdict.flag?).length +
      (verdicts.filterMap Verdict.kind?).count .redundantScheduling +
        (verdicts.filterMap Verdict.kind?).count .wrongShape := by
  induction verdicts with
  | nil => rfl
  | cons verdict rest ih =>
      cases verdict <;>
        simp [List.filterMap_cons, Verdict.flag?, Verdict.kind?, Verdict.problem?, Problem.kind, ih]
      all_goals omega

private theorem kind?_cases {kind : ProblemKind} (verdict : Verdict)
    (same : verdict.kind? = some kind) :
    kind = .redundantScheduling ∨ kind = .wrongShape := by
  cases verdict with
  | kept flag => cases same
  | repeated flag =>
      cases same
      exact .inl rfl
  | illegal =>
      cases same
      exact .inr rfl

private theorem Verdicts.count_wrongShape (judged : Verdicts before items verdicts) :
    (verdicts.filterMap Verdict.kind?).count .wrongShape =
      items.countP fun item => (Record.keyword? item : Option SchedulingFlag).isNone := by
  induction judged with
  | nil => rfl
  | @cons before rest item verdict verdicts head _ ih =>
      cases head with
      | kept flag | repeated flag =>
          simp [List.filterMap_cons, Verdict.kind?, Verdict.problem?, Problem.kind, ih,
            keyword?_word]
      | illegal other =>
          have unread := keyword?_eq_none_iff.mpr other
          simp [Verdict.kind?, Verdict.problem?, Problem.kind, ih, unread]

/-! ## Permuted lists -/

private theorem perm_kinds {verdictsOfOthers : List Verdict} (permuted : items.Perm others)
    (judged : Verdicts [] items verdicts) (judgedOthers : Verdicts [] others verdictsOfOthers) :
    (verdicts.filterMap Verdict.kind?).Perm (verdictsOfOthers.filterMap Verdict.kind?) := by
  have sameFlags := judged.firstOccurrences.perm judgedOthers.firstOccurrences
    (permuted.filterMap Record.keyword?)
  have sameIllegal := permuted.countP_eq
    fun item => (Record.keyword? item : Option SchedulingFlag).isNone
  rw [← judged.count_wrongShape, ← judgedOthers.count_wrongShape] at sameIllegal
  -- What is neither kept nor illegal is redundant.
  have sameRedundant : (verdicts.filterMap Verdict.kind?).count .redundantScheduling =
      (verdictsOfOthers.filterMap Verdict.kind?).count .redundantScheduling := by
    have split := length_verdicts verdicts
    have splitOthers := length_verdicts verdictsOfOthers
    rw [judged.length_eq, permuted.length_eq] at split
    rw [judgedOthers.length_eq] at splitOthers
    have sameLength := sameFlags.length_eq
    omega
  rw [List.perm_iff_count]
  intro kind
  by_cases possible : kind = .redundantScheduling ∨ kind = .wrongShape
  · rcases possible with rfl | rfl
    · exact sameRedundant
    · exact sameIllegal
  · have absent (verdicts : List Verdict) : kind ∉ verdicts.filterMap Verdict.kind? := by
      intro listed
      obtain ⟨verdict, -, same⟩ := List.mem_filterMap.mp listed
      exact possible (kind?_cases verdict same)
    rw [List.count_eq_zero_of_not_mem (absent _), List.count_eq_zero_of_not_mem (absent _)]

private theorem Covered.of_perm {scope : SchedulingScope} (permuted : items.Perm others) :
    Covered items scope ↔ Covered others scope :=
  forall₂_congr fun _ _ => permuted.mem_iff

private theorem scopeReports_eq_of_perm (place : FieldPath) (permuted : items.Perm others) :
    scopeReports place items = scopeReports place others := by
  simp only [scopeReports, Covered.of_perm permuted]

private theorem text_index_ne (place : FieldPath) (position : Nat) :
    (place.index position).text ≠ place.text := by
  intro same
  have lengths := congrArg String.length same
  rw [FieldPath.text_index] at lengths
  simp only [String.length_append] at lengths
  have bracket : "[".length = 1 := rfl
  omega

private theorem filter_path_reports (place : FieldPath) (verdicts : List Verdict)
    (items : List Json) :
    (itemReports place verdicts ++ scopeReports place items).filter
        (fun diagnostic => diagnostic.path = place.text) = scopeReports place items := by
  have ofItems : (itemReports place verdicts).filter
      (fun diagnostic => diagnostic.path = place.text) = [] := by
    rw [List.filter_eq_nil_iff]
    intro diagnostic listed
    obtain ⟨judged, -, made⟩ := List.mem_filterMap.mp listed
    obtain ⟨problem, -, rfl⟩ := Option.map_eq_some_iff.mp made
    simpa using text_index_ne place judged.2
  have ofScopes : (scopeReports place items).filter
      (fun diagnostic => diagnostic.path = place.text) = scopeReports place items := by
    rw [List.filter_eq_self]
    intro diagnostic listed
    obtain ⟨scope, -, rfl⟩ := List.mem_map.mp listed
    exact decide_eq_true rfl
  rw [List.filter_append, ofItems, ofScopes, List.nil_append]

/-! ## The stage -/

/-- The members of an entry give these items as its scheduling list, in either form. -/
def Given (members : List (String × Json)) (items : List Json) : Prop :=
  (members.lookup "scheduling").bind items? = some items

/-- The flags that the stage gives to a new node. -/
def flagsOf (options : Options) (name : String) (members : List (String × Json)) :
    List SchedulingFlag :=
  (Stage.scheduling.run options ⟨name, members⟩ (Node.ofName name)).value.scheduling

/-- What the stage reports about an entry. -/
def reportsOn (options : Options) (name : String) (members : List (String × Json)) :
    List Diagnostic :=
  Pipeline.raised ⟨[.scheduling], options⟩ (name, .object members)

/-- Where the list stands in the document. -/
def placeIn (name : String) : FieldPath := (FieldPath.entry name).key "scheduling"

variable {options : Options} {name : String} {members : List (String × Json)}

private theorem Given.exists_value (given : Given members items) :
    ∃ value, members.lookup "scheduling" = some value ∧ items? value = some items :=
  Option.bind_eq_some_iff.mp given

theorem check_of_given {entry : Entry} (given : Given entry.members items) (node : Node) :
    check entry node =
      let flags := addItems 0 node.scheduling items
      ⟨{ node with scheduling := flags.value },
        (flags.findings ++ Keyword.all.filterMap (scopeFinding? flags.value)).map
          (Finding.inside (.entry "scheduling"))⟩ := by
  obtain ⟨value, written, listed⟩ := given.exists_value
  simp only [check, Member.optional, written, read, listed, Checked.inside, Checked.map,
    Option.getD_some]

private theorem flagsOf_eq (given : Given members items) :
    flagsOf options name members = (addItems 0 [] items).value := by
  have checked := @check_of_given items ⟨name, members⟩ given (Node.ofName name)
  rw [flagsOf, Stage.run, checked]
  rfl

private theorem reportsOn_eq (given : Given members items) :
    reportsOn options name members =
      ((addItems 0 [] items).findings ++
          Keyword.all.filterMap (scopeFinding? (addItems 0 [] items).value)).map
        fun finding => (finding.inside (placeIn name)).diagnostic := by
  have checked := @check_of_given items ⟨name, members⟩ given (Node.ofName name)
  simp only [reportsOn, Pipeline.raised, Pipeline.checkEntry, Stage.runAll, Stage.run, checked,
    Checked.diagnostics, Checked.findings_inside, Checked.findings_map, Checked.findings_clean,
    List.append_nil, List.map_map]
  rfl

private theorem flagsOf_verdicts (given : Given members items)
    (judged : Verdicts [] items verdicts) :
    flagsOf options name members = verdicts.filterMap Verdict.flag? := by
  rw [flagsOf_eq given, judged.value_addItems]

private theorem reportsOn_verdicts (given : Given members items)
    (judged : Verdicts [] items verdicts) :
    reportsOn options name members =
      itemReports (placeIn name) verdicts ++ scopeReports (placeIn name) items := by
  have added := congrArg Checked.findings (judged.addItems_eq Tracks.nil)
  have tracks : Tracks (addItems 0 [] items).value items := by
    rw [value_addItems]
    exact Tracks.ofList items
  rw [reportsOn_eq given, List.map_append, diagnostics_scopeFindings tracks,
    ← diagnostics_itemFindings]
  exact congrArg (fun findings : List Finding => findings.map _ ++ _) added

/-- Every item of a scheduling list gets one verdict. On a new node the flags are those that are
kept, each where it first occurs, and what is reported are the items that repeat a flag or are none,
followed by the scopes that have all of their flags in the list. A permuted list has the same flags,
as many reports of each kind, and the same reports about the list as a whole. -/
theorem scheduling_itemwise (options : Options) (name : String) (members : List (String × Json))
    (items : List Json) (given : Given members items) :
    (∃! verdicts, Verdicts [] items verdicts) ∧
      (∀ verdicts, Verdicts [] items verdicts →
        let kinds := (itemReports (placeIn name) verdicts).map Diagnostic.kind
        flagsOf options name members = verdicts.filterMap Verdict.flag? ∧
        FirstOccurrences (items.filterMap Record.keyword?) (flagsOf options name members) ∧
        reportsOn options name members =
          itemReports (placeIn name) verdicts ++ scopeReports (placeIn name) items ∧
        items.length = (flagsOf options name members).length +
          kinds.count .redundantScheduling + kinds.count .wrongShape) ∧
      ∀ (otherMembers : List (String × Json)) (others : List Json), Given otherMembers others →
        items.Perm others →
        (flagsOf options name members).Perm (flagsOf options name otherMembers) ∧
        ((reportsOn options name members).map Diagnostic.kind).Perm
          ((reportsOn options name otherMembers).map Diagnostic.kind) ∧
        (reportsOn options name members).filter
            (fun diagnostic => diagnostic.path = (placeIn name).text) =
          (reportsOn options name otherMembers).filter
            (fun diagnostic => diagnostic.path = (placeIn name).text) := by
  refine ⟨?_, ?_, ?_⟩
  · obtain ⟨verdicts, judged⟩ := exists_verdicts [] items
    exact ⟨verdicts, judged, fun other same => same.unique judged⟩
  · intro verdicts judged
    rw [flagsOf_verdicts given judged, map_kind_itemReports, ← judged.length_eq]
    exact ⟨rfl, judged.firstOccurrences, reportsOn_verdicts given judged, length_verdicts verdicts⟩
  · intro otherMembers others givenOther permuted
    obtain ⟨verdicts, judged⟩ := exists_verdicts [] items
    obtain ⟨otherVerdicts, judgedOthers⟩ := exists_verdicts [] others
    have sameScopes := scopeReports_eq_of_perm (placeIn name) permuted
    rw [flagsOf_verdicts given judged, flagsOf_verdicts givenOther judgedOthers,
      reportsOn_verdicts given judged, reportsOn_verdicts givenOther judgedOthers]
    refine ⟨?_, ?_, ?_⟩
    · exact judged.firstOccurrences.perm judgedOthers.firstOccurrences (permuted.filterMap _)
    · rw [List.map_append, List.map_append, map_kind_itemReports, map_kind_itemReports, sameScopes]
      exact (perm_kinds permuted judged judgedOthers).append_right _
    · rw [filter_path_reports, filter_path_reports, sameScopes]

def coveringFlags : List Json :=
  ["usd", "bogus", "usd-read", "usd", "pure", "usd-write"].map .string

def permutedText : String := "usd-write, usd, usd-read, pure, usd, bogus"

private theorem verdicts_coveringFlags :
    Verdicts [] coveringFlags [.kept (.touches .usd .readWrite), .illegal,
      .kept (.touches .usd .read), .repeated (.touches .usd .readWrite), .kept .pure,
      .kept (.touches .usd .write)] := by
  refine .cons (.kept (.touches .usd .readWrite) (by decide)) ?_
  refine .cons (.illegal (keyword?_eq_none_iff.mp (by decide))) ?_
  refine .cons (.kept (.touches .usd .read) (by decide)) ?_
  refine .cons (.repeated (.touches .usd .readWrite) (by decide)) ?_
  refine .cons (.kept .pure (by decide)) ?_
  exact .cons (.kept (.touches .usd .write) (by decide)) .nil

theorem coveringFlags_itemwise :
    let permuted := (Text.commaParts permutedText).map Json.string
    Given [("scheduling", .array coveringFlags)] coveringFlags ∧
      Given [("scheduling", .string permutedText)] permuted ∧ coveringFlags.Perm permuted ∧
      flagsOf .standard "N" [("scheduling", .array coveringFlags)] =
        [.touches .usd .readWrite, .touches .usd .read, .pure, .touches .usd .write] ∧
      reportsOn .standard "N" [("scheduling", .array coveringFlags)] =
        [⟨"N.scheduling[1]", .wrongShape "a scheduling flag"⟩,
          ⟨"N.scheduling[3]", .redundantScheduling "'usd' is listed more than once"⟩,
          ⟨"N.scheduling", .redundantScheduling
            "'usd' already covers 'usd-read' and 'usd-write'"⟩] ∧
      (reportsOn .standard "N" [("scheduling", .string permutedText)]).filter
          (fun diagnostic => diagnostic.path = (placeIn "N").text) =
        [⟨"N.scheduling", .redundantScheduling
          "'usd' already covers 'usd-read' and 'usd-write'"⟩] := by
  have given : Given [("scheduling", .array coveringFlags)] coveringFlags := rfl
  have givenText : Given [("scheduling", .string permutedText)]
      ((Text.commaParts permutedText).map .string) := rfl
  have permuted : coveringFlags.Perm ((Text.commaParts permutedText).map .string) := by
    decide +kernel
  obtain ⟨-, each, permutes⟩ :=
    scheduling_itemwise .standard "N" [("scheduling", .array coveringFlags)] coveringFlags given
  obtain ⟨flags, -, reports, -⟩ := each _ verdicts_coveringFlags
  obtain ⟨-, -, sameScopes⟩ := permutes _ _ givenText permuted
  rw [reports, filter_path_reports] at sameScopes
  refine ⟨given, givenText, permuted, flags, reports.trans ?_, sameScopes.symm.trans ?_⟩
  · decide +kernel
  · decide +kernel

end SchedulingList

end NodeDescriptor
