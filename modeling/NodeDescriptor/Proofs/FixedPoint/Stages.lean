import NodeDescriptor.Proofs.Entry.Kept
import NodeDescriptor.Proofs.FixedPoint.Attribute
import NodeDescriptor.Proofs.FixedPoint.Tests
import NodeDescriptor.Proofs.RoundTrip.Model
import NodeDescriptor.Proofs.WellFormed.Node

/-!
# What the stages read of a written node

The object that a well-formed node is written as, read as an entry by each of the stages. Nothing is
found in it but flags that cover one another, and every field is read as what it was.
-/

set_option autoImplicit false

namespace NodeDescriptor

variable {options : Options} {node : Node}

namespace Node

/-- The entry that a node is written as. -/
def toEntry (node : Node) : Entry := ⟨node.name, Record.members node.written⟩

private theorem lookup_toEntry {name : String} {value : Option Json}
    (listed : (name, value) ∈ node.written) : node.toEntry.members.lookup name = value :=
  lookup_written listed

/-- Comments are written under a name that is not the one they are read from. -/
private theorem lookup_toEntry_comment : node.toEntry.members.lookup "$comment" = none := by
  have unwritten : "$comment" ∉ node.written.map Prod.fst := by
    have absent : "$comment" ∉ fields := by decide
    exact absent
  rw [← Option.not_isSome_iff_eq_none, Entries.lookup_isSome_iff]
  exact fun listed => unwritten ((Record.keys_members_sublist node.written).subset listed)

private theorem lookup_toEntry_section (part : Section) :
    node.toEntry.members.lookup (Keyword.word part) =
      Record.dictValue (node.attributes part) Attribute.toJson := by
  cases part with
  | inputs => exact lookup_toEntry (by simp [written, Keyword.word, attributes])
  | outputs => exact lookup_toEntry (by simp [written, Keyword.word, attributes])
  | state => exact lookup_toEntry (by simp [written, Keyword.word, attributes])

end Node

/-! ## Required and single-valued fields -/

namespace RequiredFields

private theorem version?_ofNat {version : UInt32} (positive : 1 ≤ version.toNat) :
    version? (.ofNat version.toNat) = some version := by
  have small : version.toNat < UInt32.size := version.toNat_lt_size
  simp [version?, Json.ofNat, Json.asNat?, Json.asInt?, Int.toNat?, Option.filter, small, positive]

private theorem checkUiName_string {name : String} (long : 2 ≤ name.length) :
    checkUiName (.string name) = .clean (some name) := by
  rw [checkUiName, if_pos long]

theorem checkMetadata_toJson {metadata : Metadata}
    (uncommented : ∀ key ∈ metadata.keys, isCommentKey key = false)
    (author : ∀ value, metadata.get? "author" = some value → value.IsString) :
    checkMetadata metadata.toJson = .clean (some metadata) := by
  have kept : Dict.ofList (Member.withoutComments metadata.entries) = metadata := by
    rw [Member.withoutComments_eq_self uncommented, Dict.ofList_entries]
  have named : (checkAuthor metadata.entries).findings = [] := by
    rw [checkAuthor, Member.optional]
    cases found : metadata.entries.lookup "author" with
    | none => rfl
    | some value =>
        obtain ⟨text, rfl⟩ := author value found
        rfl
  rw [Metadata.toJson_eq, checkMetadata, kept, named]
  rfl

/-- What is read of the required fields of a node that was written. -/
def ofNode (node : Node) : RequiredFields where
  comment := .clean none
  description := .clean (some node.description)
  version := .clean (some node.version)
  language := .clean (some node.language)
  uiName := .clean (some node.uiName)
  categories := .clean (some (.ofStrings node.categories))
  metadata := .clean (some node.metadata)
  memoryType := .clean (node.memoryType.map some)
  cudaPointers := .clean (node.cudaPointers.map some)
  singleton := .clean (some node.singleton)

theorem ofEntry_toEntry (formed : node.WellFormed) :
    ofEntry options node.toEntry = ofNode node := by
  let stored := node.toEntry.members
  have comment : Member.optional stored "$comment" Member.string = .clean none := by
    rw [Member.optional, Node.lookup_toEntry_comment]
  have description : Member.required stored "description" Member.strings =
      .clean (some node.description) :=
    Member.required_of_lookup (.ofStrings node.description)
      (Node.lookup_toEntry (by simp [Node.written])) (Member.strings_eq_clean node.description)
  have version : Member.withDefault stored "version" 1 (Member.form version? "an integer >= 1") =
      .clean (some node.version) :=
    Member.withDefault_of_lookup (.ofNat node.version.toNat)
      (Node.lookup_toEntry (by simp [Node.written]))
      (Member.form_eq_clean (version?_ofNat formed.version.1))
  have language : Member.withDefault stored "language" .cpp
      (Member.form Record.keyword? "\"c++\" or \"python\"") = .clean (some node.language) :=
    Member.withDefault_of_lookup (Record.ofKeyword node.language)
      (Node.lookup_toEntry (by simp [Node.written])) (Member.keyword_eq_clean node.language)
  have uiName : Member.required stored "uiName" checkUiName = .clean (some node.uiName) :=
    Member.required_of_lookup (.string node.uiName) (Node.lookup_toEntry (by simp [Node.written]))
      (checkUiName_string formed.uiName)
  have categories : Member.required stored "categories" (fun value => .clean (some value)) =
      .clean (some (.ofStrings node.categories)) :=
    Member.required_of_lookup (.ofStrings node.categories)
      (Node.lookup_toEntry (by simp [Node.written])) rfl
  have readMetadata : checkMetadata node.metadata.toJson = .clean (some node.metadata) :=
    checkMetadata_toJson formed.metadata formed.author
  have requiredMetadata : Member.required stored "metadata" checkMetadata =
      .clean (some node.metadata) :=
    Member.required_of_lookup node.metadata.toJson (Node.lookup_toEntry (by simp [Node.written]))
      readMetadata
  have optionalMetadata : Member.optional stored "metadata" checkMetadata =
      .clean (some node.metadata) :=
    Member.optional_of_given node.metadata.toJson (Node.lookup_toEntry (by simp [Node.written]))
      readMetadata
  have memoryType : Member.optional stored "memoryType" (Member.word "one of cpu, cuda, any") =
      .clean (node.memoryType.map some) :=
    Member.optional_of_lookup Record.ofKeyword (Node.lookup_toEntry (by simp [Node.written]))
      fun word _ => Member.word_eq_clean word
  have cudaPointers : Member.optional stored "cudaPointers" (Member.word "\"cuda\" or \"cpu\"") =
      .clean (node.cudaPointers.map some) :=
    Member.optional_of_lookup Record.ofKeyword (Node.lookup_toEntry (by simp [Node.written]))
      fun word _ => Member.word_eq_clean word
  have singleton : Member.optional stored "singleton" Member.boolean =
      .clean (some node.singleton) :=
    Member.optional_of_given (.bool node.singleton) (Node.lookup_toEntry (by simp [Node.written]))
      rfl
  simp only [ofEntry, ofNode, comment, description, version, language, uiName, categories,
    requiredMetadata, optionalMetadata, ite_self, memoryType, cudaPointers, singleton, stored]

end RequiredFields

/-! ## Fields with short forms -/

namespace Shorthand

private theorem checkColor_toJson (color : Color) :
    checkColor color.toJson = .clean (some color) := by
  rw [checkColor, Color.toJson, Color.ofJson, Color.ofHex_hex]

private theorem checkIcon_toJson (defaults : IconColors) (icon : Icon) :
    checkIcon defaults icon.toJson = .clean (some icon) := by
  let stored := Record.members icon.written
  have found {name : String} {value : Json} (listed : (name, some value) ∈ icon.written) :
      stored.lookup name = some value := Record.lookup_members icon.nodup_written listed
  have path : Member.required stored "path" Member.string = .clean (some icon.path) :=
    Member.required_of_lookup (.string icon.path) (found (by simp [Icon.written])) rfl
  have color {name : String} {color : Color} (listed : (name, some color.toJson) ∈ icon.written) :
      Member.optional stored name checkColor = .clean (some color) :=
    Member.optional_of_given color.toJson (found listed) (checkColor_toJson color)
  have front : Member.optional stored "color" checkColor = .clean (some icon.colors.color) :=
    color (by simp [Icon.written])
  have background : Member.optional stored "backgroundColor" checkColor =
      .clean (some icon.colors.background) := color (by simp [Icon.written])
  have border : Member.optional stored "borderColor" checkColor =
      .clean (some icon.colors.border) := color (by simp [Icon.written])
  have shape : icon.toJson = .object stored := rfl
  rw [shape, checkIcon]
  simp only [checkIconMembers, path, front, background, border]
  rfl

private theorem tokenNames?_ofDict (tokens : Dict String) :
    (Record.ofDict .string tokens).tokenNames? = some tokens := by
  have each : Json.stringMembers? (tokens.entries.map fun entry => (entry.1, .string entry.2)) =
      some (tokens.entries.map id) := mapM_map_eq_some fun _ _ => rfl
  rw [Record.ofDict, Json.tokenNames?, each, Option.map_some, List.map_id, Dict.ofList_entries]

private theorem commaList?_ofStrings (texts : List String) :
    (Json.ofStrings texts).commaList? = some texts :=
  Json.mapM_asString?_eq_some_iff.mpr rfl

private theorem checkCategories_ofStrings (names : List String) :
    checkCategories (.ofStrings names) = .clean (some ⟨names, none⟩) := by
  have read : (Json.array (names.map .string)).commaList? = some names := commaList?_ofStrings names
  simp only [Json.ofStrings, checkCategories, Member.form, read, Option.map_some]

/-- What is read of the fields with short forms of a node that was written. -/
def ofNode (node : Node) : Shorthand where
  icon := .clean (node.icon.map some)
  tags := .clean (Record.someList node.tags)
  tokens := .clean (Record.someDict node.tokens)
  categories := .clean (some ⟨node.categories, none⟩)

theorem ofEntry_toEntry : ofEntry options node.toEntry = ofNode node := by
  have icon : Member.optional node.toEntry.members "icon"
      (fun value => (checkIcon options.iconColors value).map some) =
        .clean (node.icon.map some) :=
    Member.optional_of_lookup Icon.toJson (Node.lookup_toEntry (by simp [Node.written]))
      fun given _ => by rw [checkIcon_toJson]; rfl
  have tags : Member.optional node.toEntry.members "tags"
      (Member.form Json.commaList? "a comma-separated string or a list of strings") =
        .clean ((Record.someList node.tags).map id) :=
    Member.optional_list .string (Node.lookup_toEntry (by simp [Node.written]))
      (Member.form_eq_clean (commaList?_ofStrings node.tags))
  have tokens : Member.optional node.toEntry.members "tokens" (Member.form Json.tokenNames?
      "a string, a list of strings or a mapping of token to string") =
        .clean ((Record.someDict node.tokens).map id) :=
    Member.optional_dict .string (Node.lookup_toEntry (by simp [Node.written]))
      (Member.form_eq_clean (tokenNames?_ofDict node.tokens))
  have categories : Member.optional node.toEntry.members "categories" checkCategories =
      .clean (some ⟨node.categories, none⟩) :=
    Member.optional_of_given (.ofStrings node.categories)
      (Node.lookup_toEntry (by simp [Node.written])) (checkCategories_ofStrings node.categories)
  rw [Option.map_id_apply] at tags tokens
  simp only [ofEntry, ofNode, icon, tags, tokens, categories]

end Shorthand

/-! ## Lists of words -/

namespace ExcludeList

private theorem read_words (artifacts : List Artifact) :
    read (.array (artifacts.map Record.ofKeyword)) = .clean (some artifacts) := by
  have values : (artifacts.map Record.ofKeyword).filterMap Record.keyword? = artifacts := by
    rw [List.filterMap_map]
    exact (List.filterMap_congr fun artifact _ => Record.keyword?_ofKeyword artifact).trans
      List.filterMap_some
  have words : ∀ item ∈ artifacts.map Record.ofKeyword,
      (Record.keyword? item : Option Artifact).isSome = true := by
    intro item listed
    obtain ⟨artifact, -, rfl⟩ := List.mem_map.mp listed
    exact Option.isSome_of_eq_some (Record.keyword?_ofKeyword artifact)
  have findings : (artifacts.map Record.ofKeyword).zipIdx.filterMap itemFinding? = [] := by
    refine List.filterMap_eq_nil_iff.mpr fun entry listed => ?_
    rw [itemFinding?, if_pos (forall_mem_zipIdx.mpr words entry listed)]
  rw [read, values, findings]
  rfl

theorem ofEntry_toEntry : ofEntry node.toEntry = .clean (Record.someList node.exclude) := by
  have kept : Member.optional node.toEntry.members "exclude" read =
      .clean ((Record.someList node.exclude).map id) :=
    Member.optional_list Record.ofKeyword (Node.lookup_toEntry (by simp [Node.written]))
      (read_words node.exclude)
  rw [ofEntry, kept, Option.map_id_apply]

end ExcludeList

namespace SchedulingList

private theorem addItems_words {before flags : List SchedulingFlag}
    (distinct : (before ++ flags).Nodup)
    (position : Nat) :
    addItems position before (flags.map Record.ofKeyword) = .clean (before ++ flags) := by
  induction flags generalizing before position with
  | nil => simp [addItems]
  | cons flag rest ih =>
      have fresh : flag ∉ before := fun member =>
        (List.nodup_append.mp distinct).2.2 flag member flag List.mem_cons_self rfl
      have regrouped : before ++ flag :: rest = (before ++ [flag]) ++ rest := by simp
      rw [List.map_cons, addItems, Record.keyword?_ofKeyword]
      simp only [fresh, if_false]
      rw [regrouped] at distinct ⊢
      exact ih distinct (position + 1)

private theorem read_words {flags : List SchedulingFlag} (distinct : flags.Nodup) :
    read [] (.array (flags.map Record.ofKeyword)) =
      ⟨some flags, Keyword.all.filterMap (scopeFinding? flags)⟩ := by
  have added : addItems 0 [] (flags.map Record.ofKeyword) = .clean flags :=
    @addItems_words [] flags distinct 0
  simp only [read, items?, added]
  rfl

/-- The findings of an entry about scopes all of whose flags are there. -/
def scopeFindings (flags : List SchedulingFlag) : List Finding :=
  (Keyword.all.filterMap (scopeFinding? flags)).map (Finding.inside (.entry "scheduling"))

theorem any_isError_scopeFindings {flags : List SchedulingFlag} :
    (scopeFindings flags).any Finding.isError = false := by
  have faultless : Faultless (scopeFindings flags) :=
    Faultless.inside_iff.mpr faultless_scopeFindings
  refine List.any_eq_false.mpr fun finding found => ?_
  rw [faultless finding found]
  exact Bool.false_ne_true

/-- A node's own flags are read with nothing but warnings about scopes. -/
theorem ofEntry_toEntry (formed : node.WellFormed) :
    ofEntry node.toEntry =
      ⟨Record.someList node.scheduling, scopeFindings node.scheduling⟩ := by
  have found : node.toEntry.members.lookup "scheduling" =
      Record.listValue node.scheduling Record.ofKeyword :=
    Node.lookup_toEntry (by simp [Node.written])
  have read := read_words formed.scheduling
  -- Where there are no flags nothing is written, and no scope is covered.
  cases flags : node.scheduling with
  | nil =>
      rw [flags] at found
      rw [ofEntry, Member.optional, found]
      rfl
  | cons flag rest =>
      rw [flags] at found read
      rw [ofEntry, Member.optional, found]
      simp only [Record.listValue, List.isEmpty_cons, Bool.false_eq_true, if_false, read]
      rfl

end SchedulingList

/-! ## Attributes -/

namespace AttributeSections

private theorem readMember_toJson {written : String × Attribute}
    (named : written.1 = written.2.name)
    (formed : written.2.WellFormed) :
    readMember (written.1, written.2.toJson) = .clean (some written.2) := by
  rw [readMember, named, Attribute.check_toJson formed]
  rfl

private theorem readSection_ofDict {attributes : Dict Attribute}
    (formed : ∀ written ∈ attributes.entries, written.1 = written.2.name ∧
      isCommentKey written.1 = false ∧ written.2.WellFormed) :
    readSection (Record.ofDict Attribute.toJson attributes) =
      .clean (some (attributes.entries.map Prod.snd)) := by
  have members : Member.withoutComments
      (attributes.entries.map fun written => (written.1, written.2.toJson)) =
        attributes.entries.map fun written => (written.1, written.2.toJson) := by
    refine Member.withoutComments_eq_self fun key listed => ?_
    rw [Entries.keys, List.map_map] at listed
    obtain ⟨written, inEntries, rfl⟩ := List.mem_map.mp listed
    exact (formed written inEntries).2.1
  have outcomes : (attributes.entries.map fun written => (written.1, written.2.toJson)).map
      readMember = attributes.entries.map fun written => .clean (some written.2) := by
    rw [List.map_map]
    refine List.map_congr_left fun written listed => ?_
    obtain ⟨named, -, whole⟩ := formed written listed
    exact readMember_toJson named whole
  rw [Record.ofDict, readSection, members, outcomes]
  refine Checked.eq_clean ?_ ?_
  · simp only [List.filterMap_map]
    exact congrArg some (List.filterMap_eq_map_iff_forall_eq_some.mpr fun _ _ => rfl)
  · simp only [List.flatMap_map]
    exact List.flatMap_eq_nil_iff.mpr fun _ _ => rfl

theorem ofEntry_toEntry (formed : node.WellFormed) (part : Section) :
    ofEntry node.toEntry part = .clean ((Record.someDict (node.attributes part)).map
      fun attributes => attributes.entries.map Prod.snd) :=
  Member.optional_dict Attribute.toJson (Node.lookup_toEntry_section part)
    (readSection_ofDict (formed.attributes part))

/-- The attributes of a node that was written are those of the node. -/
theorem attributes_toEntry (formed : node.WellFormed) (part : Section) :
    attributes node.toEntry part = node.attributes part := by
  have read : (ofEntry node.toEntry part).value.getD [] =
      (node.attributes part).entries.map Prod.snd := by
    have whole := Record.getD_someDict (node.attributes part)
    rw [ofEntry_toEntry formed part, Checked.value_clean]
    cases kept : Record.someDict (node.attributes part) with
    | none =>
        rw [kept] at whole
        rw [← whole]
        rfl
    | some given =>
        rw [Record.eq_of_someDict kept]
        rfl
  have named : (node.attributes part).entries.map ((fun attr => (attr.name, attr)) ∘ Prod.snd) =
      (node.attributes part).entries := by
    refine map_eq_self_iff.mpr fun written listed => ?_
    exact Prod.ext (formed.attributes part written listed).1.symm rfl
  rw [attributes, read, List.map_map, named, Dict.ofList_entries]

end AttributeSections

/-! ## Tests -/

namespace TestList

variable {entry : Entry}

/-- The sections that are written declare the attributes of the node. -/
theorem declared_toEntry {part : Section} {name : String}
    (listed : name ∈ (node.attributes part).keys) :
    Entry.Declared node.toEntry.members part name := by
  have some : (node.attributes part).isEmpty = false := by
    rw [← Bool.not_eq_true]
    intro empty
    rw [Dict.keys, Entries.keys, List.isEmpty_iff.mp empty] at listed
    cases listed
  have sameKeys : Entries.keys ((node.attributes part).entries.map fun written =>
      (written.1, written.2.toJson)) = (node.attributes part).keys := by
    rw [Entries.keys, List.map_map]
    rfl
  refine ⟨(node.attributes part).entries.map fun written => (written.1, written.2.toJson), ?_,
    sameKeys ▸ listed⟩
  rw [Node.lookup_toEntry_section, Record.dictValue, some]
  rfl

private theorem read_tests {tests : List TestCase}
    (each : ∀ test ∈ tests, readTest entry test.toJson = .clean (some test)) :
    read entry (.array (tests.map TestCase.toJson)) = .clean (some tests) := by
  refine Checked.eq_clean ?_ ?_
  · rw [value_read_array, List.filterMap_map]
    have values : ∀ test ∈ tests, (readTest entry test.toJson).value = some test := by
      intro test listed
      rw [each test listed, Checked.value_clean]
    exact congrArg some ((List.filterMap_congr values).trans List.filterMap_some)
  · have clean : ∀ item ∈ tests.map TestCase.toJson, (readTest entry item).findings = [] := by
      intro item listed
      obtain ⟨test, inTests, rfl⟩ := List.mem_map.mp listed
      rw [each test inTests, Checked.findings_clean]
    simp only [read, List.flatMap_map, Checked.findings_inside]
    refine List.flatMap_eq_nil_iff.mpr fun item listed => ?_
    rw [forall_mem_zipIdx.mpr clean item listed]
    rfl

theorem ofEntry_toEntry
    (each : ∀ test ∈ node.tests, readTest node.toEntry test.toJson = .clean (some test)) :
    ofEntry node.toEntry = .clean (Record.someList node.tests) := by
  have kept : Member.optional node.toEntry.members "tests" (read node.toEntry) =
      .clean ((Record.someList node.tests).map id) :=
    Member.optional_list TestCase.toJson (Node.lookup_toEntry (by simp [Node.written]))
      (read_tests each)
  rw [ofEntry, kept, Option.map_id_apply]

end TestList

end NodeDescriptor
