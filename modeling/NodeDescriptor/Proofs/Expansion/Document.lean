import NodeDescriptor.Proofs.Alike.Document
import NodeDescriptor.Proofs.Expansion.Forms

/-!
# Documents with expanded forms

A short form is read where its expansion is read, by the same checks. So a document has the same
model and the same report whichever of its short forms are written out, down to the positions of
the items that a short form only implies.
-/

set_option autoImplicit false

namespace NodeDescriptor

open Json Relation

/-- Documents of which the right one has some short forms of the left one written out. -/
def Json.ExpandedDocuments : Json → Json → Prop :=
  Json.AlikeObjects (InStep fun _ => Entry.Expanded)

variable {left right : Json} {lefts rights : List (String × Json)} {key : String}

/-! ## Tests -/

namespace TestList

variable {entry other : Entry}

private theorem readMember_expanded (expanded : MayExpand key left right) :
    readMember (key, left) = readMember (key, right) := by
  unfold MayExpand at expanded
  by_cases described : key = "description"
  · rw [if_pos described] at expanded
    simp only [readMember, described, if_true, checkDescription_expanded expanded]
  · rw [if_neg described] at expanded
    rw [expanded]

private theorem readTest_expanded (declared : entry.declares = other.declares)
    (expanded : ExpandedTest left right) : readTest entry left = readTest other right := by
  have judged : referenceFinding? entry = referenceFinding? other := by
    funext reference
    rw [referenceFinding?, referenceFinding?, declared]
  cases expanded with
  | same => cases left <;> simp only [readTest, judged]
  | @objects lefts rights members =>
      have outcomes : (Member.withoutComments lefts).map readMember =
          (Member.withoutComments rights).map readMember :=
        members.map_withoutComments (fun _ => False.elim)
          fun _ _ _ _ expanded => readMember_expanded expanded
      have setup : lefts.lookup "setup" = rights.lookup "setup" :=
        eq_of_rel_eq (members.lookup_all "setup")
      have description : ((lefts.lookup "description").bind fun value =>
          (checkDescription value).value) =
            (rights.lookup "description").bind fun value => (checkDescription value).value := by
        have found := members.lookup_all "description"
        generalize lefts.lookup "description" = leftFound at found ⊢
        generalize rights.lookup "description" = rightFound at found ⊢
        cases found with
        | none => rfl
        | some expanded => exact congrArg Checked.value (checkDescription_expanded expanded)
      simp only [readTest, outcomes, setup, description, judged]

theorem read_expanded (declared : entry.declares = other.declares)
    (expanded : TestList.Expanded left right) : read entry left = read other right := by
  -- Tests that are the same in both entries are still looked up in different declarations.
  have same : read entry left = read other left := by
    cases left with
    | array items =>
        apply read_array_congr
        exact List.forall₂_same.mpr fun item _ => readTest_expanded declared (.same item)
    | _ => rfl
  cases expanded with
  | same => exact same
  | arrays each =>
      apply read_array_congr
      exact each.imp fun _ _ expanded => readTest_expanded declared expanded

end TestList

/-! ## Entries -/

namespace Entry

/-- What is found under the keys of two entries. -/
structure FoundExpanded (lefts rights : List (String × Json)) : Prop where
  plain : ∀ key, key ∉ "icon" :: "tokens" :: "description" :: "tests" :: listKeys ++ sectionKeys →
    lefts.lookup key = rights.lookup key
  icon : Option.Rel (ReflGen IconExpansion) (lefts.lookup "icon") (rights.lookup "icon")
  lists : ∀ key ∈ listKeys,
    Option.Rel (ReflGen CommaExpansion) (lefts.lookup key) (rights.lookup key)
  tokens : Option.Rel (ReflGen TokenExpansion) (lefts.lookup "tokens") (rights.lookup "tokens")
  description : Option.Rel (ReflGen LineExpansion)
    (lefts.lookup "description") (rights.lookup "description")
  tests : Option.Rel TestList.Expanded (lefts.lookup "tests") (rights.lookup "tests")
  sections : ∀ part : Section, Option.Rel AttributeSections.Expanded
    (lefts.lookup (Keyword.word part)) (rights.lookup (Keyword.word part))

private theorem found_of_mayExpand (members : InStep MayExpand lefts rights) :
    FoundExpanded lefts rights := by
  refine ⟨fun key other => ?_, ?_, fun key listed => ?_, ?_, ?_, ?_, fun part => ?_⟩
  · have equal := members.lookup_all key
    simp only [List.mem_cons, List.mem_append, not_or, List.cons_append] at other
    simp only [MayExpand, other, if_false] at equal
    exact eq_of_rel_eq equal
  · exact members.lookup_all "icon"
  · have found := members.lookup_all key
    -- The icon is the only case of `MayExpand` before the lists.
    have notIcon : key ≠ "icon" := by
      rintro rfl
      exact absurd listed (by decide)
    simpa only [MayExpand, notIcon, listed, if_false, if_true] using found
  · exact members.lookup_all "tokens"
  · exact members.lookup_all "description"
  · exact members.lookup_all "tests"
  · cases part with
    | inputs => exact members.lookup_all "inputs"
    | outputs => exact members.lookup_all "outputs"
    | state => exact members.lookup_all "state"

namespace FoundExpanded

variable {options : Options} {name : String} (found : FoundExpanded lefts rights)
include found

private theorem declares_eq : (Entry.mk name lefts).declares = (Entry.mk name rights).declares := by
  funext part attr
  have sections := found.sections part
  unfold declares
  generalize lefts.lookup (Keyword.word part) = left at sections ⊢
  generalize rights.lookup (Keyword.word part) = right at sections ⊢
  cases sections with
  | none => rfl
  | some expanded =>
      cases expanded with
      | same => rfl
      | @objects lefts rights members =>
          have same : attr ∈ Entries.keys lefts ↔ attr ∈ Entries.keys rights :=
            members.mem_keys_iff not_false
          rw [← Entries.lookup_isSome_iff, ← Entries.lookup_isSome_iff] at same
          exact Bool.eq_iff_iff.mpr same

end FoundExpanded

end Entry

/-! ## Stages -/

namespace Stage

variable {options : Options} {name : String} (found : Entry.FoundExpanded lefts rights)
include found

private theorem requiredFields_expanded (node : Node) :
    RequiredFields.check options ⟨name, lefts⟩ node =
      RequiredFields.check options ⟨name, rights⟩ node := by
  have description : Member.required lefts "description" Member.strings =
      Member.required rights "description" Member.strings := by
    refine Member.required_congr found.description fun _ _ _ expanded => ?_
    exact Member.form_congr (strings?_expanded expanded) _
  -- The categories are only asked for here, and read with the other lists.
  have categories :
      (Member.required lefts "categories" fun value => Checked.clean (some value)).findings =
        (Member.required rights "categories" fun value => Checked.clean (some value)).findings := by
    have listed := found.lists "categories" (by decide)
    unfold Member.required
    generalize lefts.lookup "categories" = left at listed ⊢
    generalize rights.lookup "categories" = right at listed ⊢
    cases listed <;> rfl
  simp only [RequiredFields.check, RequiredFields.fill, RequiredFields.findings,
    RequiredFields.ofEntry, description, categories]
  simp (disch := decide) only [Member.required, Member.withDefault, Member.optional, found.plain]

private theorem shorthand_expanded :
    Shorthand.ofEntry options ⟨name, lefts⟩ = Shorthand.ofEntry options ⟨name, rights⟩ := by
  have icon := Member.optional_congr found.icon fun _ _ _ expanded =>
    congrArg (Checked.map some) (Shorthand.checkIcon_expanded expanded options.iconColors)
  have tags := Member.optional_congr (found.lists "tags" (by decide)) fun _ _ _ expanded =>
    Member.form_congr (commaList?_expanded expanded) "a comma-separated string or a list of strings"
  have tokens := Member.optional_congr found.tokens fun _ _ _ expanded =>
    Member.form_congr (tokenNames?_expanded expanded)
      "a string, a list of strings or a mapping of token to string"
  have categories := Member.optional_congr (found.lists "categories" (by decide))
    fun _ _ _ expanded => Shorthand.checkCategories_expanded expanded
  simp only [Shorthand.ofEntry, icon, tags, tokens, categories]

private theorem attributes_expanded (part : Section) :
    AttributeSections.ofEntry ⟨name, lefts⟩ part = AttributeSections.ofEntry ⟨name, rights⟩ part :=
  Member.optional_congr (found.sections part) fun _ _ _ =>
    AttributeSections.readSection_expanded

/-- No stage can tell a short form from its expansion. -/
theorem run_expanded (stage : Stage) (node : Node) :
    stage.run options ⟨name, lefts⟩ node = stage.run options ⟨name, rights⟩ node := by
  cases stage with
  | requiredFields => exact requiredFields_expanded found node
  | shorthand => simp only [run, Shorthand.check, shorthand_expanded found]
  | exclude => simp (disch := decide) only [run, ExcludeList.check, Member.optional, found.plain]
  | scheduling =>
      have read := Member.optional_congr (found.lists "scheduling" (by decide))
        fun _ _ _ expanded => SchedulingList.read_expanded expanded node.scheduling
      simp only [run, SchedulingList.check, read]
  | attributes =>
      simp only [run, AttributeSections.check, AttributeSections.checkSection,
        attributes_expanded found]
  | tests =>
      have declared : (Entry.mk name lefts).declares = (Entry.mk name rights).declares :=
        found.declares_eq
      have read := Member.optional_congr found.tests fun _ _ _ => TestList.read_expanded declared
      simp only [run, TestList.check, read]

private theorem runAll_expanded (stages : List Stage) (node : Node) :
    runAll stages options ⟨name, lefts⟩ node = runAll stages options ⟨name, rights⟩ node := by
  induction stages generalizing node with
  | nil => rfl
  | cons stage rest ih => simp only [runAll, run_expanded found, ih]

end Stage

/-! ## Documents -/

namespace Pipeline

variable {pipeline : Pipeline}

private theorem checkEntry_expanded (expanded : Entry.Expanded left right) (name : String) :
    pipeline.checkEntry name left = pipeline.checkEntry name right := by
  cases expanded with
  | same => rfl
  | objects members =>
      have runs := @Stage.runAll_expanded _ _ pipeline.options name
        (Entry.found_of_mayExpand members) pipeline.stages (Node.ofName name)
      simp only [checkEntry, runs]

/-- Writing out any short forms of a document leaves the model and the report as they are, under any
stages and options. -/
theorem check_eq_of_expanded (pipeline : Pipeline) (expanded : Json.ExpandedDocuments left right) :
    pipeline.check left = pipeline.check right := by
  cases expanded with
  | same => rfl
  | objects members =>
      apply check_congr (fun _ => False.elim)
      exact members.imp fun key _ _ _ expanded _ => checkEntry_expanded expanded key

/-- An entry in which everything is given in its short form. -/
def shortEntry : List (String × Json) :=
  [("description", .string "Adds."), ("uiName", .string "Add"), ("metadata", .object []),
    ("icon", .string "add.svg"), ("tags", .string " sum ,, plus"), ("categories", .string "math"),
    ("tokens", .ofStrings ["x", "y", "x"]), ("scheduling", .string "pure, , pure"),
    ("inputs", .object [("a", .object [("type", .string "int"),
      ("description", .ofStrings ["One", "two"]), ("deprecated", .string "Use b.")])]),
    ("tests", .array [.object [("description", .ofStrings ["First", "test"]),
      ("inputs:a", .ofNat 1)]])]

/-- The same entry with everything written out. -/
def longEntry : List (String × Json) :=
  [("description", .ofStrings ["Adds."]), ("uiName", .string "Add"), ("metadata", .object []),
    ("icon", .object [("path", .string "add.svg")]), ("tags", .ofStrings ["sum", "plus"]),
    ("categories", .ofStrings ["math"]),
    ("tokens", .object [("x", .string "x"), ("y", .string "y")]),
    ("scheduling", .ofStrings ["pure", "pure"]),
    ("inputs", .object [("a", .object [("type", .string "int"),
      ("description", .string "One\ntwo"), ("deprecated", .ofStrings ["Use b."])])]),
    ("tests", .array [.object [("description", .string "First\ntest"),
      ("inputs:a", .ofNat 1)]])]

private theorem shortEntry_expanded : Entry.Expanded (.object shortEntry) (.object longEntry) := by
  have tags : Text.commaParts " sum ,, plus" = ["sum", "plus"] := by decide +kernel
  have categories : Text.commaParts "math" = ["math"] := by decide +kernel
  have scheduling : Text.commaParts "pure, , pure" = ["pure", "pure"] := by decide +kernel
  have tokens : Distinct.ofList ["x", "y", "x"] = ["x", "y"] := by decide
  have list {text : String} {parts : List String} (split : Text.commaParts text = parts) :
      ReflGen CommaExpansion (.string text) (.ofStrings parts) := by
    subst split
    exact .single (.parts text)
  have attr : Attribute.Expanded
      (.object [("type", .string "int"), ("description", .ofStrings ["One", "two"]),
        ("deprecated", .string "Use b.")])
      (.object [("type", .string "int"), ("description", .string "One\ntwo"),
        ("deprecated", .ofStrings ["Use b."])]) :=
    .objects (.both rfl (.both (.single (.lines ["One", "two"]))
      (.both (.single (.line "Use b.")) .nil)))
  have test : TestList.ExpandedTest
      (.object [("description", .ofStrings ["First", "test"]), ("inputs:a", .ofNat 1)])
      (.object [("description", .string "First\ntest"), ("inputs:a", .ofNat 1)]) :=
    .objects (.both (.single (.lines ["First", "test"])) (.both rfl .nil))
  have names : ReflGen TokenExpansion (.ofStrings ["x", "y", "x"])
      (.object [("x", .string "x"), ("y", .string "y")]) := by
    have short := TokenExpansion.many ["x", "y", "x"]
    rw [tokens] at short
    exact .single short
  refine .objects (.both (.single (.line "Adds.")) (.both rfl (.both rfl (.both ?_ ?_))))
  · exact .single (.path "add.svg")
  · exact .both (list tags) (.both (list categories) (.both names (.both (list scheduling)
      (.both (.objects (.both attr .nil)) (.both (.arrays (.cons test .nil)) .nil)))))

/-- All short forms at once, with the warning at the position that a flag has in the list. -/
theorem shortEntry_checked :
    Json.ExpandedDocuments (.object [("Add", .object shortEntry)])
        (.object [("Add", .object longEntry)]) ∧
      standard.check (.object [("Add", .object shortEntry)]) =
        standard.check (.object [("Add", .object longEntry)]) ∧
      (standard.check (.object [("Add", .object shortEntry)])).report =
        ⟨[⟨"Add.scheduling[1]", .redundantScheduling "'pure' is listed more than once"⟩]⟩ ∧
      (standard.check (.object [("Add", .object shortEntry)])).model.nodes.contains "Add" = true := by
  have expanded : Json.ExpandedDocuments (.object [("Add", .object shortEntry)])
      (.object [("Add", .object longEntry)]) :=
    .objects (.both shortEntry_expanded .nil)
  refine ⟨expanded, check_eq_of_expanded standard expanded, ?_, ?_⟩
  · decide +kernel
  · decide +kernel

end Pipeline

end NodeDescriptor
