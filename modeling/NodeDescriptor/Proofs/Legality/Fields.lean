import NodeDescriptor.Entry.AttributeSections
import NodeDescriptor.Entry.Exclude
import NodeDescriptor.Entry.RequiredFields
import NodeDescriptor.Entry.SchedulingList
import NodeDescriptor.Proofs.Legality.Attribute

/-!
# Legal fields of an entry

What the members of an entry have to look like, apart from its tests. The members are grouped as
they are checked, and each group is found to be without an error exactly when its members look as
they should. None of the checks lets the node that is being made decide on an error.
-/

set_option autoImplicit false

namespace NodeDescriptor

open Member (AbsentOr Present)

/-! ## Required and single-valued fields -/

namespace RequiredFields

/-- A string of at least two characters. -/
def IsUiName (value : Json) : Prop := ∃ name : String, 2 ≤ name.length ∧ value = .string name

/-- An object whose author, if it names one, is a string. -/
def IsNodeMetadata (value : Json) : Prop :=
  ∃ members, value = .object members ∧ AbsentOr members "author" Json.IsString

/-- The required and single-valued members are as they should be. -/
structure Legal (options : Options) (members : List (String × Json)) : Prop where
  comment : AbsentOr members "$comment" Json.IsString
  description : Present members "description" Json.IsStrings
  version : AbsentOr members "version" Json.IsVersion
  language : AbsentOr members "language" (Json.IsWordOf ["c++", "python"])
  uiName : Present members "uiName" IsUiName
  categoriesGiven : Present members "categories" fun _ => True
  metadata : AbsentOr members "metadata" IsNodeMetadata
  metadataGiven : options.requireMetadata = true → Present members "metadata" fun _ => True
  memoryType : AbsentOr members "memoryType" (Json.IsWordOf ["cpu", "cuda", "any"])
  cudaPointers : AbsentOr members "cudaPointers" (Json.IsWordOf ["cuda", "cpu"])
  singleton : AbsentOr members "singleton" Json.IsBoolean

private theorem version?_isSome_iff {value : Json} :
    (version? value).isSome = true ↔ value.IsVersion := by
  unfold version? Json.IsVersion
  cases value with
  | number number =>
      cases number with
      | float => simp [Json.asNat?, Json.asInt?]
      | integer version =>
          cases version with
          | ofNat version =>
              simp only [Json.asNat?, Json.asInt?, Option.bind_some, Int.toNat?, UInt32.size]
              by_cases bounds : 1 ≤ version ∧ version < 4294967296
              · simp [Option.filter, bounds]
                omega
              · simp [Option.filter, bounds]
                omega
          | negSucc version =>
              simp [Json.asNat?, Json.asInt?, Int.toNat?]
              omega
  | _ => simp [Json.asNat?, Json.asInt?]

private theorem faultless_checkUiName {value : Json} :
    Faultless (checkUiName value).findings ↔ IsUiName value := by
  cases value with
  | string name =>
      by_cases long : 2 ≤ name.length <;> simp [checkUiName, IsUiName, long, Problem.kind]
  | _ => simp [checkUiName, IsUiName, Problem.kind]

theorem faultless_checkMetadata {value : Json} :
    Faultless (checkMetadata value).findings ↔ IsNodeMetadata value := by
  cases value with
  | object members =>
      simp [checkMetadata, checkAuthor, IsNodeMetadata, Member.faultless_optional, Member.string,
        Member.faultless_form, Json.asString?_isSome_iff]
  | _ => simp [checkMetadata, IsNodeMetadata, Problem.kind]

/-- What is read of the metadata, whether it has to be there or not. -/
theorem value_metadata {options : Options} {entry : Entry} :
    (ofEntry options entry).metadata.value =
      (entry.members.lookup "metadata").bind fun value => (checkMetadata value).value := by
  simp only [ofEntry]
  cases options.requireMetadata with
  | false => exact Member.value_optional
  | true =>
      rw [if_pos rfl, Member.required]
      cases entry.members.lookup "metadata" <;> rfl

private theorem faultless_metadata {options : Options} {entry : Entry} :
    Faultless (ofEntry options entry).metadata.findings ↔
      AbsentOr entry.members "metadata" IsNodeMetadata ∧
        (options.requireMetadata = true → Present entry.members "metadata" fun _ => True) := by
  simp only [ofEntry]
  cases options.requireMetadata with
  | false => simp [Member.faultless_optional, faultless_checkMetadata]
  | true =>
      simp only [if_true, Member.faultless_required, faultless_checkMetadata, true_implies]
      constructor
      · intro present
        obtain ⟨value, found, legal⟩ := present
        refine ⟨fun other sameKey => ?_, value, found, trivial⟩
        rw [found] at sameKey
        cases sameKey
        exact legal
      · intro both
        obtain ⟨legal, value, found, -⟩ := both
        exact ⟨value, found, legal value found⟩

theorem faultless_check {options : Options} {entry : Entry} {node : Node} :
    Faultless (check options entry node).findings ↔ Legal options entry.members := by
  have languages : (["c++", "python"] : List String) =
      (Keyword.all (α := Language)).map Keyword.word := rfl
  have memoryTypes : (["cpu", "cuda", "any"] : List String) =
      (Keyword.all (α := MemoryType)).map Keyword.word := rfl
  have pointers : (["cuda", "cpu"] : List String) =
      (Keyword.all (α := CudaPointers)).map Keyword.word := rfl
  have each : Faultless (check options entry node).findings ↔
      AbsentOr entry.members "$comment" Json.IsString ∧
      Present entry.members "description" Json.IsStrings ∧
      AbsentOr entry.members "version" Json.IsVersion ∧
      AbsentOr entry.members "language" (Json.IsWordOf ["c++", "python"]) ∧
      Present entry.members "uiName" IsUiName ∧
      (Present entry.members "categories" fun _ => True) ∧
      (AbsentOr entry.members "metadata" IsNodeMetadata ∧
        (options.requireMetadata = true → Present entry.members "metadata" fun _ => True)) ∧
      AbsentOr entry.members "memoryType" (Json.IsWordOf ["cpu", "cuda", "any"]) ∧
      AbsentOr entry.members "cudaPointers" (Json.IsWordOf ["cuda", "cpu"]) ∧
      AbsentOr entry.members "singleton" Json.IsBoolean := by
    simp only [check, findings, Faultless.append_iff, and_assoc, ← faultless_metadata]
    simp only [ofEntry, Member.faultless_required, Member.faultless_optional,
      Member.faultless_withDefault, Member.string, Member.strings, Member.boolean,
      Member.faultless_form, Member.faultless_word, Json.asString?_isSome_iff,
      Json.strings?_isSome_iff, Json.asBool?_isSome_iff, version?_isSome_iff,
      Json.keyword?_isSome_iff Language, faultless_checkUiName, Checked.findings_clean,
      Faultless.nil, languages, memoryTypes, pointers]
  rw [each]
  constructor
  · intro legal
    obtain ⟨comment, description, version, language, uiName, categories, ⟨metadata, given⟩,
      memoryType, cudaPointers, singleton⟩ := legal
    exact ⟨comment, description, version, language, uiName, categories, metadata, given,
      memoryType, cudaPointers, singleton⟩
  · intro legal
    obtain ⟨comment, description, version, language, uiName, categories, metadata, given,
      memoryType, cudaPointers, singleton⟩ := legal
    exact ⟨comment, description, version, language, uiName, categories, ⟨metadata, given⟩,
      memoryType, cudaPointers, singleton⟩

end RequiredFields

/-! ## Fields with short forms -/

namespace Shorthand

/-- A color in either spelling. -/
def IsColor (value : Json) : Prop := ∃ color, Color.ofJson value = .ok color

/-- A path, or an object with a path and legal colors. -/
def IsIcon (value : Json) : Prop :=
  value.IsString ∨ ∃ members, value = .object members ∧
    Present members "path" Json.IsString ∧ AbsentOr members "color" IsColor ∧
    AbsentOr members "backgroundColor" IsColor ∧ AbsentOr members "borderColor" IsColor

/-- The members with short forms are as they should be. -/
structure Legal (members : List (String × Json)) : Prop where
  icon : AbsentOr members "icon" IsIcon
  tags : AbsentOr members "tags" Json.IsStrings
  tokens : AbsentOr members "tokens" fun value => value.IsStrings ∨ value.IsStringMap
  categories : AbsentOr members "categories" fun value => value.IsStrings ∨ value.IsStringMap

private theorem faultless_checkColor {value : Json} :
    Faultless (checkColor value).findings ↔ IsColor value := by
  unfold checkColor IsColor
  cases Color.ofJson value <;> simp [Problem.kind]

private theorem faultless_checkIcon {defaults : IconColors} {value : Json} :
    Faultless (checkIcon defaults value).findings ↔ IsIcon value := by
  cases value with
  | object members =>
      have unnamed : ¬(Json.object members).IsString := by simp [Json.IsString]
      simp [checkIcon, checkIconMembers, IsIcon, unnamed, Member.faultless_required,
        Member.faultless_optional, faultless_checkColor, Member.string, Member.faultless_form,
        Json.asString?_isSome_iff]
  | _ => simp [checkIcon, IsIcon, Json.IsString, Problem.kind]

private theorem faultless_checkCategories {value : Json} :
    Faultless (checkCategories value).findings ↔ value.IsStrings ∨ value.IsStringMap := by
  cases value with
  | object members =>
      have unlisted : ¬(Json.object members).IsStrings := by
        simp [Json.IsStrings, Json.IsString, Json.IsStringList, Json.ofStrings]
      simp only [unlisted, false_or, checkCategories, Faultless.filterMap_iff, Json.IsStringMap,
        Json.object.injEq, exists_eq_left']
      refine forall₂_congr fun member _ => ?_
      rw [← Json.asString?_isSome_iff, definitionFinding?]
      cases member.2.asString? <;> simp [Problem.kind]
  | _ =>
      simp only [checkCategories, Member.faultless_form, Option.isSome_map,
        Json.commaList?_isSome_iff]
      simp [Json.IsStringMap]

theorem faultless_check {options : Options} {entry : Entry} {node : Node} :
    Faultless (check options entry node).findings ↔ Legal entry.members := by
  have each : Faultless (check options entry node).findings ↔
      AbsentOr entry.members "icon" IsIcon ∧ AbsentOr entry.members "tags" Json.IsStrings ∧
      (AbsentOr entry.members "tokens" fun value => value.IsStrings ∨ value.IsStringMap) ∧
      AbsentOr entry.members "categories" fun value => value.IsStrings ∨ value.IsStringMap := by
    simp only [check, ofEntry, findings, Faultless.append_iff, and_assoc, Member.faultless_optional,
      Checked.findings_map, faultless_checkIcon, Member.faultless_form, Json.commaList?_isSome_iff,
      Json.tokenNames?_isSome_iff, faultless_checkCategories]
  rw [each]
  constructor
  · intro all
    obtain ⟨icon, tags, tokens, categories⟩ := all
    exact ⟨icon, tags, tokens, categories⟩
  · intro legal
    exact ⟨legal.icon, legal.tags, legal.tokens, legal.categories⟩

end Shorthand

/-! ## Lists of words -/

theorem forall_mem_zipIdx {α : Type} {items : List α} {holds : α → Prop} :
    (∀ entry ∈ items.zipIdx, holds entry.1) ↔ ∀ item ∈ items, holds item := by
  rw [← List.forall_mem_map (f := Prod.fst), List.zipIdx_map_fst]

namespace ExcludeList

/-- The words for the artifacts that a node may be exempt from. -/
def artifactWords : List String := ["c++", "docs", "icon", "python", "template", "tests", "usd"]

/-- The list of excluded artifacts, if there is one, holds nothing else. -/
def Legal (members : List (String × Json)) : Prop :=
  AbsentOr members "exclude" fun value =>
    ∃ items, value = .array items ∧ ∀ item ∈ items, item.IsWordOf artifactWords

private theorem itemFinding?_harmless_iff {entry : Json × Nat} :
    (∀ finding, itemFinding? entry = some finding → finding.isError = false) ↔
      entry.1.IsWordOf artifactWords := by
  have words : artifactWords = (Keyword.all (α := Artifact)).map Keyword.word := rfl
  rw [words, ← Json.keyword?_isSome_iff, itemFinding?]
  cases (Record.keyword? entry.1 : Option Artifact) <;> simp [Problem.kind]

theorem faultless_check {entry : Entry} {node : Node} :
    Faultless (check entry node).findings ↔ Legal entry.members := by
  rw [check, Checked.findings_map, Member.faultless_optional]
  refine Member.AbsentOr.congr fun value => ?_
  cases value with
  | array items =>
      have each := @forall_mem_zipIdx Json items fun item => item.IsWordOf artifactWords
      simp only [read, Faultless.filterMap_iff, itemFinding?_harmless_iff, each]
      simp
  | _ => simp [read, Problem.kind]

end ExcludeList

namespace SchedulingList

/-- The words for scheduling flags. -/
def flagWords : List String :=
  ["global", "global-read", "global-write", "static", "static-read", "static-write", "threadsafe",
    "topology", "topology-read", "topology-write", "usd", "usd-read", "usd-write",
    "compute-default", "compute-on-request", "pure"]

/-- The scheduling flags, if there are any, are a comma-separated text or a list of flags. -/
def Legal (members : List (String × Json)) : Prop :=
  AbsentOr members "scheduling" fun value =>
    (∃ text, value = .string text ∧ ∀ part ∈ Text.commaParts text, part ∈ flagWords) ∨
      ∃ items, value = .array items ∧ ∀ item ∈ items, item.IsWordOf flagWords

/-- Items that are no flags are the only errors; a repeated flag is warned about. -/
private theorem faultless_addItems {position : Nat} {before : List SchedulingFlag}
    {items : List Json} :
    Faultless (addItems position before items).findings ↔
      ∀ item ∈ items, item.IsWordOf flagWords := by
  have words : flagWords = (Keyword.all (α := SchedulingFlag)).map Keyword.word := by decide
  induction items generalizing position before with
  | nil => simp [addItems]
  | cons item rest ih =>
      rw [List.forall_mem_cons, addItems]
      have head : (Record.keyword? item : Option SchedulingFlag).isSome = true ↔
          item.IsWordOf ((Keyword.all (α := SchedulingFlag)).map Keyword.word) :=
        Json.keyword?_isSome_iff SchedulingFlag
      rw [← words] at head
      split
      · rename_i unread
        rw [unread] at head
        simp only [Option.isSome_none, Bool.false_eq_true, false_iff] at head
        simp [head, Problem.kind]
      · rename_i flag read
        rw [read] at head
        simp only [Option.isSome_some, true_iff] at head
        split <;> simp [head, ih, Problem.kind]

theorem faultless_scopeFindings {flags : List SchedulingFlag} {scopes : List SchedulingScope} :
    Faultless (scopes.filterMap (scopeFinding? flags)) := by
  rw [Faultless.filterMap_iff]
  intro scope _ finding found
  rw [scopeFinding?_eq] at found
  split at found
  · cases found
    simp [Problem.kind]
  · cases found

theorem faultless_check {entry : Entry} {node : Node} :
    Faultless (check entry node).findings ↔ Legal entry.members := by
  rw [check, Checked.findings_map, Member.faultless_optional]
  refine Member.AbsentOr.congr fun value => ?_
  cases value with
  | string text =>
      simp [read, items?, faultless_addItems, faultless_scopeFindings, Json.IsWordOf]
  | array items => simp [read, items?, faultless_addItems, faultless_scopeFindings]
  | _ => simp [read, items?, Problem.kind]

end SchedulingList

/-! ## Attributes -/

namespace AttributeSections

/-- An object of legal attributes, apart from comments. -/
def IsSection (value : Json) : Prop :=
  ∃ members, value = .object members ∧
    ∀ member ∈ members, isCommentKey member.1 = false → member.2.IsAttribute

/-- Every section, if it is there, holds legal attributes. -/
structure Legal (members : List (String × Json)) : Prop where
  inputs : AbsentOr members "inputs" IsSection
  outputs : AbsentOr members "outputs" IsSection
  state : AbsentOr members "state" IsSection

private theorem faultless_readSection {value : Json} :
    Faultless (readSection value).findings ↔ IsSection value := by
  cases value with
  | object members =>
      simp [readSection, readMember, IsSection, List.flatMap_map, Faultless.flatMap_iff,
        Member.mem_withoutComments, Attribute.faultless_check]
  | _ => simp [readSection, IsSection, Problem.kind]

private theorem faultless_ofEntry {entry : Entry} {part : Section} :
    Faultless (ofEntry entry part).findings ↔
      AbsentOr entry.members (Keyword.word part) IsSection := by
  rw [ofEntry, Member.faultless_optional]
  exact Member.AbsentOr.congr fun value => faultless_readSection

/-- The findings of the sections, whatever was made before. -/
theorem findings_check {entry : Entry} {node : Node} :
    (check entry node).findings = (ofEntry entry .inputs).findings ++
      (ofEntry entry .outputs).findings ++ (ofEntry entry .state).findings := by
  simp [check, checkSection, Keyword.all]

theorem faultless_check {entry : Entry} {node : Node} :
    Faultless (check entry node).findings ↔ Legal entry.members := by
  simp only [findings_check, Faultless.append_iff, faultless_ofEntry]
  constructor
  · intro all
    obtain ⟨⟨inputs, outputs⟩, state⟩ := all
    exact ⟨inputs, outputs, state⟩
  · intro legal
    exact ⟨⟨legal.inputs, legal.outputs⟩, legal.state⟩

end AttributeSections

end NodeDescriptor
