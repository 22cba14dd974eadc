import NodeDescriptor.Proofs.Document
import NodeDescriptor.Proofs.Entry.Kept
import NodeDescriptor.Proofs.Json.DistinctKeys
import NodeDescriptor.Proofs.WellFormed.Attribute

/-!
# Well-formed nodes

Every node of a model under the standard stages is well formed, whatever the document and the
options are. Each stage writes its part of the node even when it finds errors in it; the errors
then keep the node out of the model. What a stage writes of a legal entry is looked at here.

The document must not repeat keys, as no document does that was read from a text: of a repeated
author, for example, one would be judged and another kept.
-/

set_option autoImplicit false

namespace NodeDescriptor

variable {options : Options} {entry : Entry}

/-- The parts of a node fit together. -/
structure Node.WellFormed (node : Node) : Prop where
  named : isCommentKey node.name = false
  version : 1 ≤ node.version.toNat ∧ node.version.toNat ≤ 4294967295
  uiName : 2 ≤ node.uiName.length
  exclude : node.exclude.Nodup
  scheduling : node.scheduling.Nodup
  metadata : ∀ key ∈ node.metadata.keys, isCommentKey key = false
  author : ∀ value, node.metadata.get? "author" = some value → value.IsString
  /-- Either no category is defined or all of them are, in their order. -/
  definitions : node.categoryDefinitions = .empty ∨
    node.categoryDefinitions.keys = node.categories
  attributes : ∀ part, ∀ entry ∈ (node.attributes part).entries,
    entry.1 = entry.2.name ∧ isCommentKey entry.1 = false ∧ entry.2.WellFormed

/-! ## Required and single-valued fields -/

namespace RequiredFields

private theorem one_le_of_version? {value : Json} {version : UInt32}
    (read : version? value = some version) : 1 ≤ version.toNat := by
  obtain ⟨number, filtered, rfl⟩ := Option.map_eq_some_iff.mp read
  obtain ⟨-, bounds⟩ := Option.filter_eq_some_iff.mp filtered
  simp only [Bool.and_eq_true, decide_eq_true_eq] at bounds
  rw [UInt32.toNat_ofNat_of_lt' bounds.2]
  exact bounds.1

private theorem one_le_version : 1 ≤ (Entry.toNode options entry).version.toNat := by
  have read : (Entry.toNode options entry).version =
      (Member.withDefault entry.members "version" 1
        (Member.form version? "an integer >= 1")).value.getD 1 := rfl
  rw [read, Member.withDefault]
  cases entry.members.lookup "version" with
  | none => decide
  | some value =>
      simp only [Checked.value_inside, Member.value_form]
      cases version : version? value with
      | none => decide
      | some number => exact one_le_of_version? version

private theorem value_checkUiName {value : Json} (legal : IsUiName value) :
    ∃ name, (checkUiName value).value = some name ∧ 2 ≤ name.length := by
  obtain ⟨name, long, rfl⟩ := legal
  exact ⟨name, by rw [checkUiName, if_pos long]; rfl, long⟩

private theorem two_le_uiName (legal : Legal options entry.members) :
    2 ≤ (Entry.toNode options entry).uiName.length := by
  obtain ⟨value, found, form⟩ := legal.uiName
  obtain ⟨name, read, long⟩ := value_checkUiName form
  have kept : (Entry.toNode options entry).uiName = name := by
    have shape : (Entry.toNode options entry).uiName =
        (Member.required entry.members "uiName" checkUiName).value.getD "" := rfl
    rw [shape, Member.value_required found, read, Option.getD_some]
  rw [kept]
  exact long

/-- The metadata is what is read of its member, or empty without one. -/
theorem metadata_toNode :
    (Entry.toNode options entry).metadata =
      ((entry.members.lookup "metadata").bind fun value => (checkMetadata value).value).getD
        .empty :=
  congrArg (fun metadata : Option Metadata => metadata.getD .empty) value_metadata

private theorem metadata_wellFormed (distinct : (Json.object entry.members).hasDistinctKeys = true)
    (legal : Legal options entry.members) :
    (∀ key ∈ (Entry.toNode options entry).metadata.keys, isCommentKey key = false) ∧
      ∀ value, (Entry.toNode options entry).metadata.get? "author" = some value →
        value.IsString := by
  rw [metadata_toNode]
  cases found : entry.members.lookup "metadata" with
  | none => simp [Dict.keys, Dict.get?]
  | some value =>
      obtain ⟨members, rfl, author⟩ := legal.metadata value found
      have inner := Json.nodup_keys_of_lookup distinct found
      refine ⟨fun key => Member.uncommented_of_mem_keys, fun value read => author value ?_⟩
      have listed := (Member.mem_withoutComments.mp (Dict.mem_of_get?_ofList read)).1
      exact (Entries.lookup_eq_some_iff_mem inner).mpr listed

end RequiredFields

/-! ## Categories -/

namespace Shorthand

private theorem keys_filterMap_definition? {members : List (String × Json)}
    (strings : ∀ member ∈ members, member.2.IsString) :
    Entries.keys (members.filterMap definition?) = Entries.keys members := by
  have each : ∀ member ∈ members, (definition? member).isSome = true := by
    intro member listed
    rw [definition?, Option.isSome_map]
    exact Json.asString?_isSome_iff.mpr (strings member listed)
  refine map_eq_map_of_forall₂ (forall₂_filterMap each) fun member result read => ?_
  obtain ⟨text, -, rfl⟩ := Option.map_eq_some_iff.mp read
  rfl

private theorem definitions_wellFormed
    (distinct : (Json.object entry.members).hasDistinctKeys = true)
    (legal : Legal entry.members) :
    (Entry.toNode options entry).categoryDefinitions = .empty ∨
      (Entry.toNode options entry).categoryDefinitions.keys =
        (Entry.toNode options entry).categories := by
  have names : (Entry.toNode options entry).categories =
      ((Member.optional entry.members "categories" checkCategories).value.map
        CategoryList.names).getD [] := rfl
  have definitions : (Entry.toNode options entry).categoryDefinitions =
      ((Member.optional entry.members "categories" checkCategories).value.bind
        CategoryList.definitions).getD .empty := rfl
  rw [names, definitions, Member.value_optional]
  cases found : entry.members.lookup "categories" with
  | none => exact Or.inl rfl
  | some value =>
      -- Of the legal forms only an object says what categories mean.
      cases value with
      | object members =>
          obtain ⟨_, shape, strings⟩ := (legal.categories _ found).resolve_left (by
            simp [Json.IsStrings, Json.IsString, Json.IsStringList, Json.ofStrings])
          cases shape
          have inner := Json.nodup_keys_of_lookup distinct found
          have keys := keys_filterMap_definition? strings
          have distinctKeys : (Entries.keys ([] ++ members.filterMap definition?)).Nodup := by
            rw [List.nil_append, keys]
            exact inner
          have kept : (Dict.ofList (members.filterMap definition?)).keys =
              Entries.keys members := by
            rw [Dict.keys, Dict.entries_ofList, Entries.merge_of_nodup distinctKeys,
              List.nil_append, keys]
          exact Or.inr kept
      | _ =>
          simp only [Option.bind_some, checkCategories, Member.value_form]
          left
          cases Json.commaList? _ <;> rfl

end Shorthand

/-! ## Scheduling -/

private theorem SchedulingList.nodup_addItems {position : Nat} {before : List SchedulingFlag}
    {items : List Json} (distinct : before.Nodup) :
    (addItems position before items).value.Nodup := by
  induction items generalizing position before with
  | nil => exact distinct
  | cons item rest ih =>
      rw [addItems]
      split
      · exact ih distinct
      · rename_i flag read
        split
        · exact ih distinct
        · rename_i fresh
          refine ih ?_
          have added := Distinct.nodup_add distinct flag
          rwa [Distinct.add, if_neg fresh] at added

private theorem SchedulingList.nodup_scheduling :
    (Entry.toNode options entry).scheduling.Nodup := by
  have shape : (Entry.toNode options entry).scheduling =
      (Member.optional entry.members "scheduling" (read [])).value.getD [] := rfl
  rw [shape, Member.value_optional]
  cases entry.members.lookup "scheduling" with
  | none => exact List.nodup_nil
  | some value =>
      rw [Option.bind_some, read]
      cases items? value with
      | none => exact List.nodup_nil
      | some items => exact nodup_addItems List.nodup_nil

/-! ## Nodes -/

private theorem AttributeSections.wellFormed_attributes
    (distinct : (Json.object entry.members).hasDistinctKeys = true) (legal : Legal entry.members)
    (part : Section) : ∀ kept ∈ (attributes entry part).entries,
      kept.1 = kept.2.name ∧ isCommentKey kept.1 = false ∧ kept.2.WellFormed := by
  intro kept listed
  cases found : entry.members.lookup (Keyword.word part) with
  | none =>
      rw [attributes_of_absent found] at listed
      cases listed
  | some value =>
      have sectionLegal := legal.section part value found
      obtain ⟨members, rfl, -⟩ := id sectionLegal
      have inner := Json.nodup_keys_of_lookup distinct found
      obtain ⟨raw, -, uncommented, made⟩ :=
        (kept_attributes found sectionLegal inner).exists_member listed
      exact ⟨(Attribute.name_of_check made).symm, uncommented, Attribute.wellFormed_of_check made⟩

/-- The node of a legal entry is well formed. -/
theorem Entry.wellFormed_toNode (uncommented : isCommentKey entry.name = false)
    (distinct : (Json.object entry.members).hasDistinctKeys = true)
    (legal : Entry.Legal options entry.members) : (Entry.toNode options entry).WellFormed := by
  obtain ⟨metadata, author⟩ := RequiredFields.metadata_wellFormed distinct legal.required
  exact {
    named := uncommented
    version := ⟨RequiredFields.one_le_version, Nat.le_of_lt_succ (UInt32.toNat_lt _)⟩
    uiName := RequiredFields.two_le_uiName legal.required
    exclude := Distinct.nodup_ofList _
    scheduling := SchedulingList.nodup_scheduling
    metadata
    author
    definitions := Shorthand.definitions_wellFormed distinct legal.shorthand
    attributes := fun part => by
      rw [attributes_toNode]
      exact AttributeSections.wellFormed_attributes distinct legal.sections part }

namespace Pipeline

/-- Every node of a model is well formed and stands under its own name. -/
theorem wellFormed_of_mem_check {document : Json} (distinct : document.hasDistinctKeys = true)
    {key : String} {node : Node}
    (entered : (key, node) ∈
      (Pipeline.check { standard with options } document).model.nodes.entries) :
    key = node.name ∧ node.WellFormed := by
  obtain ⟨entries, members, rfl, listed, uncommented, legal, rfl⟩ := entry_of_mem_check entered
  have distinctMembers := (Json.hasDistinctKeys_object_iff.mp distinct).2 _ listed
  exact ⟨rfl, Entry.wellFormed_toNode uncommented distinctMembers legal⟩

/-- A document with a comment, an entry in short forms and an entry that is no object. -/
def sampleDocument : Json :=
  .object [("$comment", .string "a sample"), ("Add", .object [
    ("uiName", .string "Add Values"), ("description", .string "Adds."), ("version", .ofNat 2),
    ("categories", .string "math, basic"), ("icon", .string "add.svg"),
    ("metadata", .object [("author", .string "Someone"), ("$note", .null)]),
    ("exclude", .ofStrings ["docs", "docs"]), ("tokens", .ofStrings ["lt", "gt"]),
    ("scheduling", .string "global, global-read, global-write, pure"),
    ("inputs", .object [("$note", .string "values"), ("a", .object [
      ("type", .ofStrings ["int", "float[2]"]), ("description", .ofStrings ["A", "value"]),
      ("default", .array [.ofNat 0, .ofNat 1]), ("deprecated", .string "Use b"),
      ("metadata", .object [("hidden", .string "true"), ("$note", .null)])])]),
    ("outputs", .object [("sum", .object [
      ("type", .string "any"), ("description", .string "Sum"), ("default", .null)])]),
    ("tests", .array [.object [
      ("outputs:sum", .null), ("inputs", .object [("a", .ofNat 1), ("$note", .null)]),
      ("setup", .null)]])]), ("Other", .ofNat 3)]

/-- The node of that document. -/
def sampleNode : Node :=
  { Node.ofName "Add" with
    description := ["Adds."], icon := some ⟨"add.svg", .standard⟩, version := 2
    exclude := [.docs], categories := ["math", "basic"], uiName := "Add Values"
    metadata := ⟨[("author", .string "Someone")], by decide⟩
    scheduling := [.touches .global .readWrite, .touches .global .read, .touches .global .write,
      .pure]
    tokens := ⟨[("lt", "lt"), ("gt", "gt")], by decide⟩
    inputs := ⟨[("a", { Attribute.ofType "a" (.anyOf [.single (.base .int),
      .single (.tuple .float 2 (by decide))] (by decide)) with
      description := "A\nvalue", default := some (.array [.ofNat 0, .ofNat 1])
      deprecated := ["Use b"], metadata := ⟨[("hidden", .string "true")], by decide⟩ })], by decide⟩
    outputs := ⟨[("sum", { Attribute.ofType "sum" (.one .any) with
      description := "Sum", default := some .null })], by decide⟩
    tests := [{ TestCase.empty with
      inputs := ⟨[("a", .ofNat 1)], by decide⟩, outputs := ⟨[("sum", .null)], by decide⟩
      setup := some .null }] }

theorem sampleNode_mem :
    ("Add", sampleNode) ∈ (standard.check sampleDocument).model.nodes.entries := by
  decide +kernel

theorem sampleNode_wellFormed :
    sampleDocument.hasDistinctKeys = true ∧
      ("Add", sampleNode) ∈ (standard.check sampleDocument).model.nodes.entries ∧
      "Add" = sampleNode.name ∧ sampleNode.WellFormed := by
  have distinct : sampleDocument.hasDistinctKeys = true := by decide +kernel
  have formed : "Add" = sampleNode.name ∧ sampleNode.WellFormed :=
    @wellFormed_of_mem_check .standard sampleDocument distinct "Add" sampleNode sampleNode_mem
  exact ⟨distinct, sampleNode_mem, formed⟩

end Pipeline

end NodeDescriptor
