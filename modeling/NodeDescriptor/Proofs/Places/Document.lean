import NodeDescriptor.Proofs.Independence
import NodeDescriptor.Proofs.Places.Entry
import NodeDescriptor.Proofs.Text.Split

/-!
# Every diagnostic points at a place of the document

The path of a diagnostic is kept as a text, and keys may hold points and brackets themselves, so the
text alone does not say where it leads. Still there always are steps with that text that lead to a
value of the document, or to an object that lacks the last key, which is then the key that the
suggestion names.
-/

set_option autoImplicit false

namespace NodeDescriptor

/-! ## Suggestions -/

private theorem Diagnostic.lastSegment_key (path : FieldPath) {key : String}
    (pointFree : '.' ∉ key.toList) : lastSegment (path.key key).text = key := by
  rw [FieldPath.text_key, lastSegment]
  split
  · rw [Text.splitAll_of_not_mem pointFree]
    simp
  · have cut : (path.text ++ "." ++ key).toList = path.text.toList ++ '.' :: key.toList := by simp
    rw [cut, Text.getLast?_splitAll_append _ pointFree]
    simp

private theorem Problem.kind_eq_missing_iff {problem : Problem} :
    problem.kind = .missing ↔ problem = .missing := by
  cases problem <;> simp [kind]

/-! ## Places of a document -/

/-- A diagnostic of the document is about what these steps lead to. -/
inductive Diagnostic.PointsTo (document : Json) (diagnostic : Diagnostic) : FieldPath → Prop where
  | noEntries (members : List (String × Json)) (missing : diagnostic.kind = .missing)
      (shape : document = .object members) (empty : Member.withoutComments members = []) :
      PointsTo document diagnostic .root
  | absent (before : FieldPath) (key : String) (members : List (String × Json))
      (missing : diagnostic.kind = .missing)
      (found : document.at? before = some (.object members)) (lacking : members.lookup key = none)
      (suggestion : diagnostic.suggestion? = some ("Add the '" ++ key ++ "' field")) :
      PointsTo document diagnostic (before.key key)
  | present (path : FieldPath) (given : diagnostic.kind ≠ .missing)
      (found : (document.at? path).isSome = true) : PointsTo document diagnostic path
  /-- A part of a comma-separated text of scheduling flags. -/
  | flagPart (entry text : String) (position : Nat) (given : diagnostic.kind ≠ .missing)
      (written : document.at? ((FieldPath.entry entry).key "scheduling") = some (.string text))
      (bound : position < (Text.commaParts text).length) :
      PointsTo document diagnostic (((FieldPath.entry entry).key "scheduling").index position)
  /-- A name that a test writes after a section word and a colon. -/
  | testName (entry : String) (position : Nat) (test : List (String × Json)) (word : TestWord)
      (name : String) (unresolved : diagnostic.kind = .unresolvedReference)
      (listed : document.at? (((FieldPath.entry entry).key "tests").index position) =
        some (.object test))
      (named : Keyword.word word ++ ":" ++ name ∈ Entries.keys test) :
      PointsTo document diagnostic
        (((((FieldPath.entry entry).key "tests").index position).key (Keyword.word word)).key name)

variable {document : Json} {members : List (String × Json)} {name : String} {finding : Finding}

private theorem Finding.PlacedIn.pointsTo (placed : finding.PlacedIn document) :
    finding.diagnostic.PointsTo document finding.path := by
  cases placed with
  | absent before key members shape found lacking pointFree =>
      subst shape
      refine .absent before key members rfl found lacking ?_
      simp only [Diagnostic.suggestion?, Finding.diagnostic,
        Diagnostic.lastSegment_key before pointFree]
  | present given found =>
      exact .present finding.path (mt Problem.kind_eq_missing_iff.mp given) found

private theorem Finding.LocatedIn.pointsTo {entry : List (String × Json)}
    (located : finding.LocatedIn entry) (looked : members.lookup name = some (.object entry)) :
    (finding.inside (.entry name)).diagnostic.PointsTo (.object members)
      (finding.inside (.entry name)).path := by
  have reached : (Json.object members).at? (.entry name) = some (.object entry) := by
    rw [Json.at?_entry, looked]
  cases located with
  | placed placed => exact (placed.inside reached).pointsTo
  | flagPart text position written bound given path =>
      have scheduling := (Json.at?_key reached "scheduling").trans written
      rw [Finding.inside, path]
      exact .flagPart name text position (mt Problem.kind_eq_missing_iff.mp given) scheduling bound
  | testName items position test word tested written listed named shape =>
      have tests := (Json.at?_key reached "tests").trans written
      have item := (Json.at?_item tests position).trans listed
      subst shape
      exact .testName name position test word tested rfl item named

namespace Pipeline

variable {pipeline : Pipeline}

private theorem exists_path_of_mem_raised (distinct : (Json.object members).hasDistinctKeys = true)
    {value : Json} (listed : (name, value) ∈ members) :
    ∀ diagnostic ∈ pipeline.raised (name, value),
      ∃ path : FieldPath, path.text = diagnostic.path ∧
        diagnostic.PointsTo (.object members) path := by
  intro diagnostic reported
  have looked : members.lookup name = some value := Json.lookup_of_mem distinct listed
  obtain ⟨seen, inEntry, rfl⟩ := List.mem_map.mp reported
  obtain ⟨finding, found, rfl⟩ := List.mem_map.mp inEntry
  refine ⟨(finding.inside (.entry name)).path, rfl, ?_⟩
  cases value with
  | object entry =>
      have located := @Stage.located_runAll pipeline.options ⟨name, entry⟩ (Node.ofName name)
        (Json.hasDistinctKeys_of_lookup distinct looked) pipeline.stages finding found
      exact located.pointsTo looked
  | _ =>
      have reached := (Json.at?_entry members name).trans looked
      exact ((Placed.here (by simp) finding found).inside reached).pointsTo

/-- For any stages and options: whatever is reported about a document, some steps have the text of
its path and lead to what it is about. -/
theorem diagnostics_point_at_places (pipeline : Pipeline) {document : Json}
    (distinct : document.hasDistinctKeys = true) :
    ∀ diagnostic ∈ (pipeline.check document).report.diagnostics,
      ∃ path : FieldPath, path.text = diagnostic.path ∧ diagnostic.PointsTo document path := by
  intro diagnostic reported
  cases document with
  | object members =>
      by_cases empty : Member.withoutComments members = []
      · simp only [check, empty] at reported
        obtain rfl := List.mem_singleton.mp reported
        exact ⟨.root, rfl, .noEntries members rfl rfl empty⟩
      · rw [diagnostics_check empty] at reported
        obtain ⟨⟨name, value⟩, kept, raised⟩ := List.mem_flatMap.mp reported
        have listed := (Member.mem_withoutComments.mp kept).1
        exact exists_path_of_mem_raised distinct listed diagnostic raised
  | _ =>
      obtain rfl := List.mem_singleton.mp reported
      exact ⟨.root, rfl, .present .root (by decide) rfl⟩

/-- An entry whose name holds a point, without a description, with a word that is no flag and with a
test of an input that it does not declare. -/
def dottedDocument : Json :=
  .object [("a.b", .object [("uiName", .string "Add"), ("categories", .string "c"),
    ("metadata", .object []), ("scheduling", .string "pure,, fast"),
    ("tests", .array [.object [("inputs:x", .ofNat 1)]])])]

theorem dottedDocument_places :
    dottedDocument.hasDistinctKeys = true ∧
      (standard.check dottedDocument).report = ⟨[⟨"a.b.description", .missing⟩,
        ⟨"a.b.scheduling[1]", .wrongShape "a scheduling flag"⟩,
        ⟨"a.b.tests[0].inputs.x", .unresolvedReference "inputs" "x"⟩]⟩ ∧
      ∀ diagnostic ∈ (standard.check dottedDocument).report.diagnostics,
        ∃ path : FieldPath, path.text = diagnostic.path ∧
          diagnostic.PointsTo dottedDocument path := by
  have distinct : dottedDocument.hasDistinctKeys = true := by decide +kernel
  exact ⟨distinct, by decide +kernel, diagnostics_point_at_places standard distinct⟩

end Pipeline

end NodeDescriptor
