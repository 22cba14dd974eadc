import NodeDescriptor.Document
import NodeDescriptor.Proofs.Alike.Tests

/-!
# Documents that are alike

Comments, members under unknown keys and the order of members carry no meaning: documents that
differ in nothing else have the same model and the same report. Of the order only that in entries,
attributes and icons is meant; the entries of a document, the attributes of a section, the items of
metadata and the values of a test are reported and kept in the order in which they are written.
-/

set_option autoImplicit false

namespace NodeDescriptor

/-- Documents that differ in comments and in their entries. -/
def Json.AlikeDocuments : Json → Json → Prop :=
  Json.AlikeObjects (InOrder IsComment fun _ => Json.AlikeObjects Entry.Alike)

/-- No test of any entry gives a value to the name of a comment under a section word and a
colon. -/
def Json.NamesNoComment (document : Json) : Prop :=
  ∀ entries name members, document = .object entries → (name, .object members) ∈ entries →
    isCommentKey name = false → TestList.NamesNoComment members

variable {lefts rights : List (String × Json)}

/-! ## Stages -/

namespace Entry.FoundAlike

variable (alike : FoundAlike lefts rights) (distinct : (Json.object lefts).hasDistinctKeys = true)
include alike

private theorem sameRequiredFields (options : Options) (name : String) :
    RequiredFields.ofEntry options ⟨name, lefts⟩ =
      RequiredFields.ofEntry options ⟨name, rights⟩ := by
  have optional : Member.optional lefts "metadata" RequiredFields.checkMetadata =
      Member.optional rights "metadata" RequiredFields.checkMetadata :=
    Member.optional_congr alike.metadata fun _ _ _ => RequiredFields.checkMetadata_congr
  have required : Member.required lefts "metadata" RequiredFields.checkMetadata =
      Member.required rights "metadata" RequiredFields.checkMetadata :=
    Member.required_congr alike.metadata fun _ _ _ => RequiredFields.checkMetadata_congr
  simp only [RequiredFields.ofEntry, optional, required]
  simp (disch := decide) only [Member.required, Member.withDefault, Member.optional, alike.plain]

include distinct

private theorem sameShorthand (options : Options) (name : String) :
    Shorthand.ofEntry options ⟨name, lefts⟩ = Shorthand.ofEntry options ⟨name, rights⟩ := by
  have icon := Member.optional_congr alike.icon fun value other found alike =>
    congrArg (Checked.map some) (Shorthand.checkIcon_congr
      (Json.hasDistinctKeys_of_lookup distinct found) alike options.iconColors)
  simp only [Shorthand.ofEntry, icon]
  simp (disch := decide) only [Member.optional, alike.plain]

private theorem sameAttributes (name : String) (part : Section) :
    AttributeSections.ofEntry ⟨name, lefts⟩ part = AttributeSections.ofEntry ⟨name, rights⟩ part :=
  Member.optional_congr (alike.sections part) fun _ _ found =>
    AttributeSections.readSection_congr (Json.hasDistinctKeys_of_lookup distinct found)

omit distinct

private theorem sameTests (names : TestList.NamesNoComment lefts) (name : String) :
    Member.optional lefts "tests" (TestList.read ⟨name, lefts⟩) =
      Member.optional rights "tests" (TestList.read ⟨name, rights⟩) := by
  have declared : ∀ part other, isCommentKey other = false →
      Entry.declares ⟨name, lefts⟩ part other = Entry.declares ⟨name, rights⟩ part other := by
    intro part other uncommented
    rw [Bool.eq_iff_iff, Entry.declares_iff, Entry.declares_iff]
    exact alike.declares_iff part uncommented
  refine Member.optional_congr alike.tests fun value other found => ?_
  refine TestList.read_congr declared fun items test shape => ?_
  subst shape
  exact names items test found

end Entry.FoundAlike

namespace Stage

variable {options : Options} {name : String}

/-- No stage can tell alike entries apart. -/
theorem run_congr (alike : Entry.FoundAlike lefts rights)
    (distinct : (Json.object lefts).hasDistinctKeys = true) (names : TestList.NamesNoComment lefts)
    (stage : Stage) (node : Node) :
    stage.run options ⟨name, lefts⟩ node = stage.run options ⟨name, rights⟩ node := by
  cases stage with
  | requiredFields => simp only [run, RequiredFields.check, alike.sameRequiredFields]
  | shorthand => simp only [run, Shorthand.check, alike.sameShorthand distinct]
  | exclude =>
      simp (disch := decide) only [run, ExcludeList.check, Member.optional, alike.plain]
  | scheduling =>
      simp (disch := decide) only [run, SchedulingList.check, Member.optional, alike.plain]
  | attributes =>
      simp only [run, AttributeSections.check, AttributeSections.checkSection,
        alike.sameAttributes distinct]
  | tests => simp only [run, TestList.check, alike.sameTests names]

private theorem runAll_congr (alike : Entry.FoundAlike lefts rights)
    (distinct : (Json.object lefts).hasDistinctKeys = true) (names : TestList.NamesNoComment lefts)
    (stages : List Stage) (node : Node) :
    runAll stages options ⟨name, lefts⟩ node = runAll stages options ⟨name, rights⟩ node := by
  induction stages generalizing node with
  | nil => rfl
  | cons stage rest ih => simp only [runAll, run_congr alike distinct names, ih]

end Stage

/-! ## Documents -/

private theorem InOrder.foldl_withoutComments {α : Type} {passedOver : String → Prop}
    {alike : String → Json → Json → Prop} (ordered : InOrder passedOver alike lefts rights)
    (comments : ∀ key, passedOver key → isCommentKey key = true) {step : α → String × Json → α}
    (same : ∀ state key left right, isCommentKey key = false → alike key left right →
      step state (key, left) = step state (key, right)) (start : α) :
    (Member.withoutComments lefts).foldl step start =
      (Member.withoutComments rights).foldl step start := by
  have readings : (Member.withoutComments lefts).map (fun member state => step state member) =
      (Member.withoutComments rights).map fun member state => step state member := by
    refine ordered.map_withoutComments comments ?_
    exact fun key left right comment values => funext fun state =>
      same state key left right comment values
  have steps : ∀ members : List (String × Json), members.foldl step start =
      (members.map fun member state => step state member).foldl (fun state next => next state)
        start := fun members => by rw [List.foldl_map]
  rw [steps, readings, ← steps]

namespace Pipeline

variable {pipeline : Pipeline} {left right : Json}

private theorem checkEntry_congr (distinct : left.hasDistinctKeys = true)
    (alike : Json.AlikeObjects Entry.Alike left right)
    (names : ∀ members, left = .object members → TestList.NamesNoComment members) (name : String) :
    pipeline.checkEntry name left = pipeline.checkEntry name right := by
  cases alike with
  | same => rfl
  | @objects lefts rights members =>
      have found := Entry.Alike.found members (Json.hasDistinctKeys_object_iff.mp distinct).1
      have runs := @Stage.runAll_congr lefts rights pipeline.options name found distinct
        (names lefts rfl) pipeline.stages (Node.ofName name)
      simp only [checkEntry, runs]

/-- Documents have the same outcome if their entries are checked alike, one by one. -/
theorem check_congr {passedOver : String → Prop}
    (comments : ∀ key, passedOver key → isCommentKey key = true)
    (checked : InOrder passedOver
      (fun key left right => isCommentKey key = false →
        pipeline.checkEntry key left = pipeline.checkEntry key right) lefts rights) :
    pipeline.check (.object lefts) = pipeline.check (.object rights) := by
  have folded := checked.foldl_withoutComments comments
    (fun outcome key left right uncommented same => show
      pipeline.addEntry outcome (key, left) = pipeline.addEntry outcome (key, right) by
        simp only [addEntry, same uncommented]) ⟨.empty, .empty⟩
  have keys : (Member.withoutComments lefts).map Prod.fst =
      (Member.withoutComments rights).map Prod.fst :=
    checked.map_withoutComments comments fun _ _ _ _ _ => rfl
  -- Both documents have entries or neither has.
  cases leftEntries : Member.withoutComments lefts with
  | nil =>
      cases rightEntries : Member.withoutComments rights with
      | nil => simp only [check, leftEntries, rightEntries]
      | cons member rest =>
          rw [leftEntries, rightEntries] at keys
          cases keys
  | cons member rest =>
      cases rightEntries : Member.withoutComments rights with
      | nil =>
          rw [leftEntries, rightEntries] at keys
          cases keys
      | cons other others =>
          rw [leftEntries, rightEntries] at folded
          simp only [check, leftEntries, rightEntries, folded]

/-- Documents that differ only in comments, in members under unknown keys and in the order of the
members of entries, attributes and icons have the same outcome, under any stages and options. It is
enough that the names of comments are not used in the tests of one of them. -/
theorem check_eq_of_alike (pipeline : Pipeline) {left right : Json}
    (distinct : left.hasDistinctKeys = true) (names : left.NamesNoComment)
    (alike : Json.AlikeDocuments left right) : pipeline.check left = pipeline.check right := by
  cases alike with
  | same => rfl
  | @objects lefts rights members =>
      have each := (Json.hasDistinctKeys_object_iff.mp distinct).2
      apply check_congr (fun _ comment => comment)
      refine members.imp fun key left right listed alike uncommented => ?_
      refine checkEntry_congr (each (key, left) listed) alike (fun members shape => ?_) key
      exact names lefts key members rfl (shape ▸ listed) uncommented

/-- A test that gives its values in both spellings. -/
def plainTest : List (String × Json) :=
  [("inputs", .object [("a", .ofNat 1)]), ("outputs:b", .ofNat 2)]

/-- An entry without comments. -/
def plainEntry : List (String × Json) :=
  [("description", .string "d"), ("uiName", .string "Add"), ("categories", .string "c"),
    ("metadata", .object [("author", .string "x")]),
    ("icon", .object [("path", .string "p"), ("color", .string "#FF0000FF")]),
    ("inputs", .object [("a", .object [("type", .string "int"), ("description", .string "A")])]),
    ("outputs", .object [("b", .object [("type", .string "int"), ("description", .string "B")])]),
    ("tests", .array [.object plainTest])]

/-- The same entry with comments and unknown members, in another order. -/
def annotatedEntry : List (String × Json) :=
  [("tests", .array [.object [("$", .null), ("inputs", .object [("$x", .null), ("a", .ofNat 1)]),
      ("outputs:b", .ofNat 2), ("elsewhere:c", .null)]]),
    ("outputs", .object [("b", .object [("type", .string "int"), ("description", .string "B")])]),
    ("inputs", .object [("$x", .null), ("a", .object [("description", .string "A"),
      ("unit", .null), ("type", .string "int"), ("$", .null)])]),
    ("icon", .object [("color", .string "#FF0000FF"), ("shape", .null), ("path", .string "p")]),
    ("$todo", .null), ("metadata", .object [("$", .null), ("author", .string "x")]),
    ("categories", .string "c"), ("uiName", .string "Add"), ("description", .string "d"),
    ("owner", .null)]

def plainDocument : Json := .object [("Add", .object plainEntry)]

def annotatedDocument : Json :=
  .object [("$note", .string "n"), ("Add", .object annotatedEntry)]

private theorem plainDocument_namesNoComment : plainDocument.NamesNoComment := by
  intro entries name members shape listed _ items test found inItems word spelled given written
  cases shape
  cases List.mem_singleton.mp listed
  have tests : plainEntry.lookup "tests" = some (.array [.object plainTest]) := by decide +kernel
  rw [tests] at found
  cases found
  cases List.mem_singleton.mp inItems
  obtain ⟨word, rfl⟩ := TestList.mem_sectionKeys_iff.mp spelled
  -- Read back as a reference, the key names what it gives a value to.
  have read := @TestList.namespacedReference?_eq_some_iff _ .null ⟨word, given, .null⟩ |>.mpr
    ⟨rfl, rfl⟩
  have names : ∀ key ∈ Entries.keys plainTest,
      ((TestList.namespacedReference? key .null).all fun reference =>
        !isCommentKey reference.name) = true := by decide +kernel
  have uncommented := names _ written
  rw [read] at uncommented
  simpa using uncommented

private theorem plainEntry_alike : Entry.Alike plainEntry annotatedEntry := by
  have comment : IsComment "$" := by unfold IsComment; decide
  have note : IsComment "$x" := by unfold IsComment; decide
  have metadata : Metadata.Alike (.object [("author", .string "x")])
      (.object [("$", .null), ("author", .string "x")]) :=
    .objects (.right comment (.both rfl .nil))
  have icon : Icon.Alike (.object [("path", .string "p"), ("color", .string "#FF0000FF")])
      (.object [("color", .string "#FF0000FF"), ("shape", .null), ("path", .string "p")]) :=
    .objects ⟨_, List.Perm.swap _ _ _, .both rfl (.right (by decide) (.both rfl .nil))⟩
  have summand : Attribute.Alike
      (.object [("type", .string "int"), ("description", .string "A")])
      (.object [("description", .string "A"), ("unit", .null), ("type", .string "int"),
        ("$", .null)]) :=
    .objects ⟨_, List.Perm.swap _ _ _,
      .both rfl (.right (by decide) (.both rfl (.right (by decide) .nil)))⟩
  have inputs : AttributeSections.Alike
      (.object [("a", .object [("type", .string "int"), ("description", .string "A")])])
      (.object [("$x", .null), ("a", .object [("description", .string "A"), ("unit", .null),
        ("type", .string "int"), ("$", .null)])]) :=
    .objects (.right note (.both summand .nil))
  have values : TestList.AlikeValues (.object [("a", .ofNat 1)])
      (.object [("$x", .null), ("a", .ofNat 1)]) :=
    .objects (.right note (.both rfl .nil))
  have unknown : ¬TestList.Known "elsewhere:c" := by
    intro known
    rcases known with same | same | listed | ⟨word, spelled, name, same⟩
    · exact absurd same (by decide)
    · exact absurd same (by decide)
    · exact absurd listed (by decide)
    · obtain ⟨word, rfl⟩ := TestList.mem_sectionKeys_iff.mp spelled
      have read := @TestList.namespacedReference?_eq_some_iff _ .null ⟨word, name, .null⟩ |>.mpr
        ⟨same, rfl⟩
      have unread : (TestList.namespacedReference? "elsewhere:c" .null).isNone = true := by
        decide +kernel
      rw [read] at unread
      cases unread
  have tests : TestList.Alike (.array [.object plainTest])
      (.array [.object [("$", .null), ("inputs", .object [("$x", .null), ("a", .ofNat 1)]),
        ("outputs:b", .ofNat 2), ("elsewhere:c", .null)]]) :=
    .arrays (.cons (.objects (.right (.inl comment) (.both values (.both rfl
      (.right (.inr unknown) .nil))))) .nil)
  refine ⟨plainEntry.reverse, (List.reverse_perm _).symm, ?_⟩
  exact .both tests (.both (.same _) (.both inputs (.both icon (.right (by decide)
    (.both metadata (.both rfl (.both rfl (.both rfl (.right (by decide) .nil)))))))))

/-- Comments at every place where they may stand, unknown members and another order leave the
outcome as it is. -/
theorem annotations_ignored :
    plainDocument.hasDistinctKeys = true ∧ plainDocument.NamesNoComment ∧
      Json.AlikeDocuments plainDocument annotatedDocument ∧
      standard.check plainDocument = standard.check annotatedDocument ∧
      (standard.check annotatedDocument).isAccepted true = true := by
  have distinct : plainDocument.hasDistinctKeys = true := by decide +kernel
  have note : IsComment "$note" := by unfold IsComment; decide
  have alike : Json.AlikeDocuments plainDocument annotatedDocument :=
    .objects (.right note (.both (.objects plainEntry_alike) .nil))
  have same := check_eq_of_alike standard distinct plainDocument_namesNoComment alike
  refine ⟨distinct, plainDocument_namesNoComment, alike, same, ?_⟩
  decide +kernel

end Pipeline

end NodeDescriptor
