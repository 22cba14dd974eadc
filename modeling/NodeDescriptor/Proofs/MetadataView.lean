import NodeDescriptor.Node.Basic
import NodeDescriptor.Proofs.FirstOccurrences

/-!
# The metadata of a node as texts

The view of a node's metadata writes every value as a text and then adds the name, the tags and the
singleton flag. A key that is there already is written over in its place, so it is neither moved nor
repeated; under all other keys the view agrees with the reading of attribute metadata.
-/

set_option autoImplicit false

namespace NodeDescriptor.Node

variable {node : Node}

private theorem viewText_eq_joinedText (value : Json) : viewText value = value.joinedText := by
  cases value with
  | array items =>
      have each : ∀ item ∈ items, item.asString?.getD item.compact = item.plainText := by
        intro item _
        cases item <;> rfl
      exact congrArg (Text.joined ",") (List.map_congr_left each)
  | _ => rfl

/-! ## Additions -/

/-- What the view adds to the metadata. -/
def viewAdditions (node : Node) : List (String × String) :=
  [("uiName", node.uiName)] ++
    (if node.tags = [] then [] else [("tags", Text.joined "," node.tags)]) ++
    (if node.singleton then [("singleton", "1")] else [])

/-- The keys under which the view adds something. -/
def viewKeys (node : Node) : List String :=
  ["uiName"] ++ (if node.tags = [] then [] else ["tags"]) ++
    (if node.singleton then ["singleton"] else [])

private theorem keys_viewAdditions (node : Node) :
    Entries.keys node.viewAdditions = node.viewKeys := by
  unfold viewAdditions viewKeys
  split <;> split <;> rfl

private theorem nodup_viewKeys (node : Node) : node.viewKeys.Nodup := by
  unfold viewKeys
  split <;> split <;> decide

private theorem nodup_keys_viewAdditions (node : Node) :
    (Entries.keys node.viewAdditions).Nodup := by
  rw [keys_viewAdditions]
  exact node.nodup_viewKeys

private theorem entries_metadataView (node : Node) :
    node.metadataView.entries =
      Entries.merge (node.metadata.mapValues viewText).entries node.viewAdditions := by
  unfold metadataView viewAdditions
  -- Tags and flag may each be there or not; in all four cases the writes are the same.
  cases node.tags <;> cases node.singleton <;> rfl

private theorem get?_metadataView (node : Node) (key : String) :
    node.metadataView.get? key =
      (node.viewAdditions.lookup key).or (Metadata.joined? node.metadata key) := by
  have rendered : (node.metadata.mapValues viewText).entries.lookup key =
      Metadata.joined? node.metadata key := by
    rw [Metadata.joined?, ← funext viewText_eq_joinedText]
    exact Entries.lookup_map_values node.metadata.entries viewText key
  rw [Dict.get?, entries_metadataView,
    Entries.lookup_merge_of_nodup node.nodup_keys_viewAdditions, rendered]

theorem get?_metadataView_of_added {key text : String}
    (added : (key, text) ∈ node.viewAdditions) : node.metadataView.get? key = some text := by
  have found : node.viewAdditions.lookup key = some text :=
    (Entries.lookup_eq_some_iff_mem node.nodup_keys_viewAdditions).mpr added
  rw [get?_metadataView, found, Option.some_or]

private theorem get?_metadataView_of_other {key : String} (other : key ∉ node.viewKeys) :
    node.metadataView.get? key = Metadata.joined? node.metadata key := by
  have absent : node.viewAdditions.lookup key = none := by
    rw [← Option.not_isSome_iff_eq_none, Entries.lookup_isSome_iff, keys_viewAdditions]
    exact other
  rw [get?_metadataView, absent, Option.none_or]

private theorem keys_metadataView (node : Node) :
    node.metadataView.keys =
      node.metadata.keys ++ node.viewKeys.filter (· ∉ node.metadata.keys) := by
  have same : Entries.keys (node.metadata.mapValues viewText).entries = node.metadata.keys := by
    simp [Dict.mapValues, Dict.keys, Entries.keys]
  rw [Dict.keys, entries_metadataView, Entries.keys_merge, keys_viewAdditions, same,
    Distinct.addAll_eq_append_filter (nodup_viewKeys node)]

/-- The view has the keys of the metadata in their order and after them those it adds, as far as
they are new. Under the added keys it shows the name, the tags and the flag, and under every other
key what is read from the metadata. -/
theorem metadataView_exact (node : Node) :
    node.metadataView.keys =
        node.metadata.keys ++ node.viewKeys.filter (· ∉ node.metadata.keys) ∧
      node.metadataView.get? "uiName" = some node.uiName ∧
      (node.tags ≠ [] →
        node.metadataView.get? "tags" = some (Text.joined "," node.tags)) ∧
      (node.singleton = true → node.metadataView.get? "singleton" = some "1") ∧
      ∀ key, key ∉ node.viewKeys →
        node.metadataView.get? key = Metadata.joined? node.metadata key := by
  refine ⟨keys_metadataView node, ?_, fun given => ?_, fun given => ?_,
    fun _ => get?_metadataView_of_other⟩
  · exact get?_metadataView_of_added (by simp [viewAdditions])
  · exact get?_metadataView_of_added (by simp [viewAdditions, given])
  · exact get?_metadataView_of_added (by simp [viewAdditions, given])

/-- A node whose metadata has two of the keys that the view adds. -/
def collidingNode : Node :=
  { ofName "N" with
    metadata := ⟨[("tags", .string "old"), ("uiName", .null),
      ("keywords", .array [.string "sum", .array [.string "a", .null]])], by decide⟩
    singleton := true
    tags := ["sum", "plus"]
    uiName := "Node" }

theorem collidingNode_view :
    collidingNode.metadataView.keys = ["tags", "uiName", "keywords", "singleton"] ∧
      collidingNode.tags ≠ [] ∧
      collidingNode.metadataView.get? "tags" = some "sum,plus" ∧
      collidingNode.singleton = true ∧
      collidingNode.metadataView.get? "singleton" = some "1" ∧
      "keywords" ∉ collidingNode.viewKeys ∧
      collidingNode.metadataView.get? "keywords" = some "sum,[\"a\",null]" := by
  obtain ⟨keys, -, tags, flag, others⟩ := metadataView_exact collidingNode
  have tagged : collidingNode.tags ≠ [] := by decide
  have other : "keywords" ∉ collidingNode.viewKeys := by decide
  have joined : Metadata.joined? collidingNode.metadata "keywords" =
      some "sum,[\"a\",null]" := by decide
  exact ⟨keys.trans (by decide), tagged, (tags tagged).trans (by decide), rfl, flag rfl, other,
    (others "keywords" other).trans joined⟩

end NodeDescriptor.Node
