import NodeDescriptor.Proofs.Document
import NodeDescriptor.Proofs.Nesting.Entry

/-!
# Nesting of models

What a model is written as is at most two levels deeper than the document it was made of. So the
model of a document that leaves two levels to the nesting limit can be read back: the limit counts
open brackets, and nothing else stands between a model and the texts that spell it.
-/

set_option autoImplicit false

namespace NodeDescriptor

open Json

/-! ## Layouts -/

namespace Layout

mutual

private theorem shows_whole : (value : Json) → Layout.whole.Shows value
  | .array items => .array (shows_whole_items items)
  | .object members =>
      .object (fun _ _ => rfl) fun member listed inner looked => by
        cases looked
        exact shows_whole_members members member listed
  | .null | .bool _ | .number _ | .string _ => .scalar rfl

private theorem shows_whole_items : (items : List Json) → ∀ item ∈ items, Layout.whole.Shows item
  | [] => by simp
  | item :: rest => List.forall_mem_cons.mpr ⟨shows_whole item, shows_whole_items rest⟩

private theorem shows_whole_members :
    (members : List (String × Json)) → ∀ member ∈ members, Layout.whole.Shows member.2
  | [] => by simp
  | (_, value) :: rest => List.forall_mem_cons.mpr ⟨shows_whole value, shows_whole_members rest⟩

end

private theorem member?_ofFields {names : List String} {inner : List (String × Layout)}
    {name : String}
    (listed : name ∈ names) :
    (ofFields names inner).member? name = some ((inner.lookup name).getD .whole) := by
  rw [ofFields, member?]
  induction names with
  | nil => cases listed
  | cons first rest ih =>
      by_cases same : name = first
      · simp [same]
      · have inRest := (List.mem_cons.mp listed).resolve_left same
        have different : (name == first) = false := beq_eq_false_iff_ne.mpr same
        simpa only [List.map_cons, List.lookup_cons, different] using ih inRest

/-- A record that holds nothing but its fields is looked at as far as the values of those fields
are that have a layout of their own. -/
theorem shows_ofFields {names : List String} {inner : List (String × Layout)}
    {members : List (String × Json)} (listed : ∀ key ∈ Entries.keys members, key ∈ names)
    (each : ∀ member ∈ members, ∀ layout, inner.lookup member.1 = some layout →
      layout.Shows member.2) : (ofFields names inner).Shows (.object members) := by
  have looked : ∀ member ∈ members,
      (ofFields names inner).member? member.1 = some ((inner.lookup member.1).getD .whole) :=
    fun member given => member?_ofFields (listed member.1 (List.mem_map_of_mem given))
  refine .object (fun member given => ?_) fun member given layout found => ?_
  · rw [looked member given]
    rfl
  · rw [looked member given] at found
    obtain rfl := Option.some.inj found
    cases own : inner.lookup member.1 with
    | none => exact shows_whole member.2
    | some layout => exact each member given layout own

private theorem shows_written {names : List String} {inner : List (String × Layout)}
    {fields : List (String × Option Json)} (written : fields.map Prod.fst = names)
    (each : ∀ member ∈ Record.members fields, ∀ layout, inner.lookup member.1 = some layout →
      layout.Shows member.2) : (ofFields names inner).Shows (.object (Record.members fields)) := by
  subst written
  exact shows_ofFields (fun key listed => (Record.keys_members_sublist fields).subset listed) each

private theorem shows_dict {α : Type} {layout : Layout} {write : α → Json} {dict : Dict α}
    (each : ∀ entry ∈ dict.entries, layout.Shows (write entry.2)) :
    (Layout.dict layout).Shows (Record.ofDict write dict) := by
  refine .object (fun _ _ => rfl) fun member listed inner looked => ?_
  cases looked
  obtain ⟨entry, inDict, rfl⟩ := List.mem_map.mp listed
  exact each entry inDict

end Layout

private theorem Attribute.shows_toJson (attr : Attribute) : layout.Shows attr.toJson := by
  rw [toJson_eq_written]
  refine Layout.shows_written rfl fun _ _ _ found => ?_
  cases found

private theorem TestCase.shows_toJson (test : TestCase) : layout.Shows test.toJson := by
  rw [toJson_eq_written]
  refine Layout.shows_written rfl fun _ _ _ found => ?_
  cases found

private theorem Icon.shows_toJson (icon : Icon) : layout.Shows icon.toJson := by
  refine Layout.shows_ofFields (fun key listed => listed) fun _ _ _ found => ?_
  cases found

private theorem Node.shows_toJson (node : Node) : layout.Shows node.toJson := by
  have icon : (Record.members node.written).lookup "icon" = node.icon.map Icon.toJson :=
    lookup_written (by simp [written])
  have tests : (Record.members node.written).lookup "tests" =
      Record.listValue node.tests TestCase.toJson := lookup_written (by simp [written])
  have attributes (part : Dict Attribute) {name : String} {value : Json}
      (listed : (name, Record.dictValue part Attribute.toJson) ∈ node.written)
      (found : (Record.members node.written).lookup name = some value) :
      (Layout.dict Attribute.layout).Shows value := by
    rw [lookup_written listed, Record.dictValue] at found
    split at found
    · cases found
    · cases found
      exact Layout.shows_dict fun entry _ => entry.2.shows_toJson
  rw [toJson_eq_written]
  refine Layout.shows_written rfl fun member listed inner own => ?_
  obtain ⟨name, value⟩ := member
  have found : (Record.members node.written).lookup name = some value :=
    (Entries.lookup_eq_some_iff_mem (Record.nodup_keys_members node.nodup_written)).mpr listed
  -- Five fields have layouts of their own.
  have own := Entries.mem_of_lookup own
  simp only [List.mem_cons, List.not_mem_nil, or_false, Prod.mk.injEq] at own
  rcases own with ⟨rfl, rfl⟩ | ⟨rfl, rfl⟩ | ⟨rfl, rfl⟩ | ⟨rfl, rfl⟩ | ⟨rfl, rfl⟩
  · rw [icon] at found
    obtain ⟨icon, -, rfl⟩ := Option.map_eq_some_iff.mp found
    exact icon.shows_toJson
  · exact attributes node.inputs (by simp [written]) found
  · exact attributes node.outputs (by simp [written]) found
  · exact attributes node.state (by simp [written]) found
  · rw [tests, Record.listValue] at found
    split at found
    · cases found
    · cases found
      refine .array (List.forall_mem_map.mpr fun test _ => test.shows_toJson)

namespace Model

private theorem shows_toJson (model : Model) : layout.Shows model.toJson := by
  have shape : model.toJson = .object (Record.members model.written) := rfl
  rw [shape]
  refine Layout.shows_written rfl fun member listed inner own => ?_
  obtain ⟨name, value⟩ := member
  have found : (Record.members model.written).lookup name = some value :=
    (Entries.lookup_eq_some_iff_mem (Record.nodup_keys_members model.nodup_written)).mpr listed
  have nodes : (Record.members model.written).lookup "nodes" =
      some (Record.ofDict Node.toJson model.nodes) :=
    Record.lookup_members model.nodup_written (by simp [written])
  obtain ⟨rfl, rfl⟩ := Prod.mk.inj (List.mem_singleton.mp (Entries.mem_of_lookup own))
  cases nodes.symm.trans found
  exact Layout.shows_dict fun entry _ => entry.2.shows_toJson

/-- A model whose JSON keeps within the nesting limit is read from every text that spells it. -/
theorem read?_of_depth_le {model : Model} (distinct : model.toJson.hasDistinctKeys = true)
    (within : model.toJson.depth ≤ nestingLimit) {text : String} {levels : Nat}
    (spelled : (RawJson.read? text).bind (RawJson.value? levels .whole) = some model.toJson) :
    read? text = some model.withoutNulls := by
  obtain ⟨raw, scanned, value⟩ := Option.bind_eq_some_iff.mp spelled
  have parts : parseParts? layout text = some model.toJson := by
    rw [parseParts?, scanned, Option.bind_some]
    exact RawJson.value?_of_depth_le raw value within model.shows_toJson
  rw [read?, parts, Option.bind_some, merged_of_hasDistinctKeys _ distinct, ofJson?_toJson]
  rfl

end Model

/-! ## Documents -/

namespace Pipeline

variable {pipeline : Pipeline} {distinct : Prop} {levels : Nat} {document value : Json}

private theorem within_of_checkEntry {name : String} {node : Node}
    (within : Within distinct levels value)
    (made : (pipeline.checkEntry name value).value = some node) :
    Within distinct (levels + 1) node.toJson := by
  obtain ⟨members, rfl, -, rfl⟩ := value_checkEntry_eq_some_iff.mp made
  obtain ⟨inner, rfl, each⟩ := within.of_object
  have run := @Stage.runAll_within distinct inner pipeline.options ⟨name, members⟩
    (Node.ofName name) each pipeline.stages (Node.PartsWithin.ofName name)
  exact run.toJson

private theorem within_of_check (within : Within distinct levels document) :
    Within distinct (levels + 2) (pipeline.check document).model.toJson := by
  have nodes : ∀ entry ∈ (pipeline.check document).model.nodes.entries,
      Within distinct levels entry.2.toJson := by
    intro entry entered
    obtain ⟨entries, value, rfl, listed, -, made⟩ := member_of_mem_check entered
    obtain ⟨inner, rfl, each⟩ := within.of_object
    exact within_of_checkEntry (each _ listed) made
  have shape : (pipeline.check document).model.toJson =
      .object (Record.members (pipeline.check document).model.written) := rfl
  rw [shape]
  refine Within.record (Model.nodup_written _) fun field listed => ?_
  simp only [Model.written, List.mem_cons, List.not_mem_nil, or_false] at listed
  rcases listed with rfl | rfl
  · exact Within.field_some (.string _)
  · exact Within.field_some (.ofDict nodes)

/-- Under any stages and options the model of a document is written at most two levels deeper than
the document. So if the document is nested at most 125 levels deep, the model is read back from
every text that spells it, although no more than 127 brackets may be open at a time. -/
theorem depth_toJson_check (pipeline : Pipeline) (document : Json) :
    (pipeline.check document).model.toJson.depth ≤ document.depth + 2 ∧
      (document.hasDistinctKeys = true → document.depth ≤ 125 →
        ∀ (levels : Nat) (text : String),
          (RawJson.read? text).bind (RawJson.value? levels .whole) =
              some (pipeline.check document).model.toJson →
            Model.read? text = some (pipeline.check document).model.withoutNulls) := by
  have within := @within_of_check pipeline _ _ document (Within.self document)
  refine ⟨within.depth, fun distinct shallow levels text spelled => ?_⟩
  refine Model.read?_of_depth_le (within.keys distinct) ?_ spelled
  exact Nat.le_trans within.depth (Nat.add_le_add_right shallow 2)

/-- Lists in lists, so many levels deep. -/
def nestedLists : Nat → Json
  | 0 => .array []
  | levels + 1 => .array [nestedLists levels]

/-- A document of the greatest depth that leaves two levels to the limit. A test value that is named
by its key needs both of them. -/
def deepDocument : Json :=
  .object [("Deep", .object [("description", .string "d"), ("uiName", .string "Deep"),
    ("categories", .string "c"), ("metadata", .object []),
    ("inputs", .object [("a", .object [("type", .string "any"), ("description", .string "A")])]),
    ("tests", .array [.object [("inputs:a", nestedLists 120)]])])]

/-- The letters of a text that spells the model of that document. -/
def deepLetters : List Char :=
  let opening := ["\x7b\"version\":\"1.0.0\",", "\"nodes\":\x7b\"Deep\":\x7b", "\"name\":\"Deep\",",
    "\"description\":[\"d\"],", "\"version\":1,", "\"language\":\"c++\",", "\"categories\":[\"c\"],",
    "\"metadata\":\x7b\x7d,", "\"singleton\":false,", "\"uiName\":\"Deep\",",
    "\"inputs\":\x7b\"a\":\x7b", "\"name\":\"a\",", "\"description\":\"A\",", "\"type\":\"any\",",
    "\"optional\":false,", "\"unvalidated\":false\x7d\x7d,", "\"tests\":[\x7b\"inputs\":\x7b\"a\":"]
  opening.flatMap String.toList ++ List.replicate 121 '[' ++ List.replicate 121 ']' ++
    "\x7d\x7d]\x7d\x7d\x7d".toList

/-- A model that fills the limit is still read back. -/
theorem deepDocument_read_back :
    deepDocument.hasDistinctKeys = true ∧ deepDocument.depth = 125 ∧
      (standard.check deepDocument).model.toJson.depth = 127 ∧
      Model.read? (String.ofList deepLetters) =
        some (standard.check deepDocument).model.withoutNulls := by
  have distinct : deepDocument.hasDistinctKeys = true := by decide +kernel
  have depth : deepDocument.depth = 125 := by decide +kernel
  have letters : (String.ofList deepLetters).toList = deepLetters := String.toList_ofList
  have spelled : (RawJson.read? (String.ofList deepLetters)).bind (RawJson.value? 200 .whole) =
      some (standard.check deepDocument).model.toJson := by
    rw [RawJson.read?, letters]
    decide +kernel
  refine ⟨distinct, depth, by decide +kernel, ?_⟩
  exact (depth_toJson_check standard deepDocument).2 distinct (Nat.le_of_eq depth) 200 _ spelled

end Pipeline

end NodeDescriptor
