import NodeDescriptor.Proofs.Alike.Members
import NodeDescriptor.Proofs.Json.DistinctKeys
import NodeDescriptor.Proofs.Legality.Tests

/-!
# Entries that are alike

Which differences between two entries carry no meaning: the order of the members of the entry, of
its attributes and of its icon, comments, and members under keys that are not known. No stage can
tell such entries apart, unless a test gives a value to the name of a comment under a section word
and a colon, since such a name is looked up among the comments as well.
-/

set_option autoImplicit false

namespace NodeDescriptor

/-! ## What may differ -/

/-- The key of a comment, under which nothing is read. -/
def IsComment (key : String) : Prop := isCommentKey key = true

/-- Metadata that differs in comments only. -/
def Metadata.Alike : Json → Json → Prop := Json.AlikeObjects (InOrder IsComment fun _ => Eq)

namespace Icon

def knownKeys : List String := ["path", "color", "backgroundColor", "borderColor"]

/-- Icons that differ in the order of their members and in members under other keys. -/
def Alike : Json → Json → Prop := Json.AlikeObjects (InAnyOrder (· ∉ knownKeys) fun _ => Eq)

end Icon

namespace Attribute

def knownKeys : List String :=
  ["description", "type", "default", "optional", "deprecated", "memoryType", "minimum", "maximum",
    "metadata", "uiName", "unvalidated"]

/-- Attributes that differ in the order of their members, in members under other keys and in the
comments of their metadata. -/
def Alike : Json → Json → Prop :=
  Json.AlikeObjects (InAnyOrder (· ∉ knownKeys) fun key =>
    if key = "metadata" then Metadata.Alike else Eq)

end Attribute

/-- Sections that differ in comments and in their attributes. -/
def AttributeSections.Alike : Json → Json → Prop :=
  Json.AlikeObjects (InOrder IsComment fun _ => Attribute.Alike)

namespace TestList

/-- The keys under which a test gives the values of a section. -/
def sectionKeys : List String := ["inputs", "outputs", "state", "state_get", "state_set"]

/-- The keys under which something is read in a test. -/
def Known (key : String) : Prop :=
  key = "description" ∨ key = "setup" ∨ key ∈ sectionKeys ∨
    ∃ word ∈ sectionKeys, ∃ name, key = word ++ ":" ++ name

/-- The values of a section that differ in comments only. -/
def AlikeValues : Json → Json → Prop := Json.AlikeObjects (InOrder IsComment fun _ => Eq)

/-- Tests that differ in comments, also among the values of a section, and in members under keys
that are not known. The order counts, since of two values for one attribute the last is kept. -/
def AlikeTest : Json → Json → Prop :=
  Json.AlikeObjects (InOrder (fun key => IsComment key ∨ ¬Known key) fun key =>
    if key ∈ sectionKeys then AlikeValues else Eq)

/-- Equal values, or lists whose tests differ in nothing else. -/
inductive Alike : Json → Json → Prop where
  | same (value : Json) : Alike value value
  | arrays {lefts rights : List Json} :
      List.Forall₂ AlikeTest lefts rights → Alike (.array lefts) (.array rights)

/-- No test gives a value to the name of a comment under a section word and a colon. -/
def NamesNoComment (members : List (String × Json)) : Prop :=
  ∀ items test, members.lookup "tests" = some (.array items) → .object test ∈ items →
    ∀ word ∈ sectionKeys, ∀ name, word ++ ":" ++ name ∈ Entries.keys test →
      isCommentKey name = false

end TestList

namespace Entry

def knownKeys : List String :=
  ["$comment", "description", "version", "language", "uiName", "categories", "metadata",
    "memoryType", "cudaPointers", "singleton", "icon", "tags", "tokens", "exclude", "scheduling",
    "inputs", "outputs", "state", "tests"]

def sectionKeys : List String := ["inputs", "outputs", "state"]

/-- How the value of an entry under a key may differ. -/
def MayDiffer (key : String) : Json → Json → Prop :=
  if key = "icon" then Icon.Alike
  else if key = "metadata" then Metadata.Alike
  else if key = "tests" then TestList.Alike
  else if key ∈ sectionKeys then AttributeSections.Alike
  else Eq

/-- Entries that differ in the order of their members, in members under other keys, comments
included, and in what carries no meaning inside their members. -/
def Alike : List (String × Json) → List (String × Json) → Prop :=
  InAnyOrder (· ∉ knownKeys) MayDiffer

end Entry

/-! ## Metadata and icons -/

variable {left right : Json} {lefts rights : List (String × Json)} {name : String}

theorem withoutComments_congr (alike : InOrder IsComment (fun _ => Eq) lefts rights) :
    Member.withoutComments lefts = Member.withoutComments rights := by
  have members : (Member.withoutComments lefts).map id = (Member.withoutComments rights).map id :=
    alike.map_withoutComments (fun _ comment => comment)
      fun key left right _ same => congrArg (Prod.mk key) same
  rwa [List.map_id, List.map_id] at members

theorem RequiredFields.checkMetadata_congr (alike : Metadata.Alike left right) :
    checkMetadata left = checkMetadata right := by
  cases alike with
  | same => rfl
  | @objects lefts rights members =>
      have uncommented : ¬IsComment "author" := by
        unfold IsComment
        decide
      have author : lefts.lookup "author" = rights.lookup "author" :=
        eq_of_rel_eq (members.lookup uncommented)
      simp only [checkMetadata, checkAuthor, Member.optional, withoutComments_congr members, author]

theorem Attribute.checkMetadata_congr (alike : Metadata.Alike left right) :
    checkMetadata left = checkMetadata right := by
  cases alike with
  | same => rfl
  | objects members => simp only [checkMetadata, withoutComments_congr members]

theorem Shorthand.checkIcon_congr (distinct : left.hasDistinctKeys = true)
    (alike : Icon.Alike left right) (defaults : IconColors) :
    checkIcon defaults left = checkIcon defaults right := by
  cases alike with
  | same => rfl
  | @objects lefts rights members =>
      have keys := (Json.hasDistinctKeys_object_iff.mp distinct).1
      have found : ∀ key ∈ Icon.knownKeys, lefts.lookup key = rights.lookup key :=
        fun key known => eq_of_rel_eq (members.lookup keys (not_not.mpr known))
      simp (disch := decide) only [checkIcon, checkIconMembers, Member.required, Member.optional,
        found]

/-! ## Attributes -/

theorem Attribute.check_congr (distinct : left.hasDistinctKeys = true)
    (alike : Attribute.Alike left right) (name : String) : check name left = check name right := by
  cases alike with
  | same => rfl
  | @objects lefts rights members =>
      have keys := (Json.hasDistinctKeys_object_iff.mp distinct).1
      have plain : ∀ key ∈ knownKeys, key ≠ "metadata" → lefts.lookup key = rights.lookup key := by
        intro key known other
        have found := members.lookup keys (not_not.mpr known)
        simp only [other, if_false] at found
        exact eq_of_rel_eq found
      have metadata : Member.optional lefts "metadata" checkMetadata =
          Member.optional rights "metadata" checkMetadata :=
        Member.optional_congr (members.lookup keys (not_not.mpr (by decide)))
          fun _ _ _ alike => checkMetadata_congr alike
      have reading : Reading.ofMembers lefts = Reading.ofMembers rights := by
        simp only [Reading.ofMembers, metadata]
        simp (disch := decide) only [Member.required, Member.optional, plain]
      simp only [check, reading]

namespace AttributeSections

theorem readSection_congr (distinct : left.hasDistinctKeys = true)
    (alike : AttributeSections.Alike left right) : readSection left = readSection right := by
  cases alike with
  | same => rfl
  | @objects lefts rights members =>
      have each := (Json.hasDistinctKeys_object_iff.mp distinct).2
      have checked : InOrder IsComment
          (fun key left right => Attribute.check key left = Attribute.check key right)
          lefts rights :=
        members.imp fun key left right listed alike =>
          Attribute.check_congr (each (key, left) listed) alike key
      have outcomes : (Member.withoutComments lefts).map readMember =
          (Member.withoutComments rights).map readMember :=
        checked.map_withoutComments (fun _ comment => comment)
          fun key left right _ same => congrArg (Checked.inside (.entry key)) same
      simp only [readSection, outcomes]

end AttributeSections

/-! ## Entries -/

namespace Entry

/-- What is found under the known keys of two entries. -/
structure FoundAlike (lefts rights : List (String × Json)) : Prop where
  plain : ∀ key ∈ knownKeys, key ∉ "icon" :: "metadata" :: "tests" :: sectionKeys →
    lefts.lookup key = rights.lookup key
  icon : Option.Rel Icon.Alike (lefts.lookup "icon") (rights.lookup "icon")
  metadata : Option.Rel Metadata.Alike (lefts.lookup "metadata") (rights.lookup "metadata")
  tests : Option.Rel TestList.Alike (lefts.lookup "tests") (rights.lookup "tests")
  sections : ∀ part : Section, Option.Rel AttributeSections.Alike
    (lefts.lookup (Keyword.word part)) (rights.lookup (Keyword.word part))

theorem Alike.found (alike : Entry.Alike lefts rights) (distinct : (Entries.keys lefts).Nodup) :
    FoundAlike lefts rights := by
  have found : ∀ key ∈ knownKeys,
      Option.Rel (MayDiffer key) (lefts.lookup key) (rights.lookup key) :=
    fun key known => InAnyOrder.lookup alike distinct (not_not.mpr known)
  refine ⟨fun key known other => ?_, ?_, ?_, ?_, fun part => ?_⟩
  · have equal := found key known
    simp only [List.mem_cons, not_or] at other
    simp only [MayDiffer, other, if_false] at equal
    exact eq_of_rel_eq equal
  · exact found "icon" (by decide)
  · exact found "metadata" (by decide)
  · exact found "tests" (by decide)
  · cases part with
    | inputs => exact found "inputs" (by decide)
    | outputs => exact found "outputs" (by decide)
    | state => exact found "state" (by decide)

/-- A name that marks no comment is declared in both entries or in neither. -/
theorem FoundAlike.declares_iff (alike : FoundAlike lefts rights) (part : Section)
    (uncommented : isCommentKey name = false) :
    Declared lefts part name ↔ Declared rights part name := by
  have looked : ¬IsComment name := by
    unfold IsComment
    simp [uncommented]
  have sections := alike.sections part
  unfold Declared
  generalize lefts.lookup (Keyword.word part) = left at sections ⊢
  generalize rights.lookup (Keyword.word part) = right at sections ⊢
  cases sections with
  | none => rfl
  | some values =>
      cases values with
      | same => rfl
      | objects members => simp [members.mem_keys_iff looked]

end Entry

end NodeDescriptor
