import NodeDescriptor.Proofs.Json.DistinctKeys
import NodeDescriptor.Proofs.RoundTrip.Records

/-!
# Nesting of values

How deep arrays, objects, dictionaries and written records are nested, given how deep their parts
are, and that a text is read under a nesting limit whenever what it spells keeps within the limit.
Whether keys repeat is carried along, since reading merges those that do.
-/

set_option autoImplicit false

namespace NodeDescriptor

namespace Json

private theorem depthOfItems_le_iff {items : List Json} {levels : Nat} :
    depthOfItems items ≤ levels ↔ ∀ item ∈ items, item.depth ≤ levels := by
  induction items with
  | nil => simp [depthOfItems]
  | cons item rest ih => rw [depthOfItems, Nat.max_le, ih, List.forall_mem_cons]

private theorem depthOfMembers_le_iff {members : List (String × Json)} {levels : Nat} :
    depthOfMembers members ≤ levels ↔ ∀ member ∈ members, member.2.depth ≤ levels := by
  induction members with
  | nil => simp [depthOfMembers]
  | cons member rest ih => rw [depthOfMembers, Nat.max_le, ih, List.forall_mem_cons]

/-- The value is nested at most so many levels deep and, where that is asked for, repeats no key. -/
structure Within (distinct : Prop) (levels : Nat) (value : Json) : Prop where
  depth : value.depth ≤ levels
  keys : distinct → value.hasDistinctKeys = true

namespace Within

variable {distinct : Prop} {levels : Nat} {value : Json} {items : List Json}
  {members : List (String × Json)}

theorem self (value : Json) : Within (value.hasDistinctKeys = true) value.depth value :=
  ⟨Nat.le_refl _, id⟩

theorem mono {more : Nat} (within : Within distinct levels value) (enough : levels ≤ more) :
    Within distinct more value :=
  ⟨Nat.le_trans within.depth enough, within.keys⟩

theorem bool (truth : Bool) : Within distinct levels (.bool truth) := ⟨Nat.zero_le _, fun _ => rfl⟩

theorem number (number : Number) : Within distinct levels (.number number) :=
  ⟨Nat.zero_le _, fun _ => rfl⟩

theorem string (text : String) : Within distinct levels (.string text) :=
  ⟨Nat.zero_le _, fun _ => rfl⟩

private theorem array_iff : Within distinct (levels + 1) (.array items) ↔
    ∀ item ∈ items, Within distinct levels item := by
  constructor
  · intro within item listed
    have depths := depthOfItems_le_iff.mp (Nat.le_of_succ_le_succ within.depth)
    exact ⟨depths item listed,
      fun asked => hasDistinctKeys_array_iff.mp (within.keys asked) item listed⟩
  · intro each
    refine ⟨Nat.succ_le_succ ?_, fun asked => hasDistinctKeys_array_iff.mpr ?_⟩
    · exact depthOfItems_le_iff.mpr fun item listed => (each item listed).depth
    · exact fun item listed => (each item listed).keys asked

theorem object_iff : Within distinct (levels + 1) (.object members) ↔
    (distinct → (Entries.keys members).Nodup) ∧
      ∀ member ∈ members, Within distinct levels member.2 := by
  constructor
  · intro within
    have depths := depthOfMembers_le_iff.mp (Nat.le_of_succ_le_succ within.depth)
    refine ⟨fun asked => (hasDistinctKeys_object_iff.mp (within.keys asked)).1, ?_⟩
    intro member listed
    exact ⟨depths member listed,
      fun asked => (hasDistinctKeys_object_iff.mp (within.keys asked)).2 member listed⟩
  · intro parts
    obtain ⟨keys, each⟩ := parts
    refine ⟨Nat.succ_le_succ ?_, fun asked => hasDistinctKeys_object_iff.mpr ⟨keys asked, ?_⟩⟩
    · exact depthOfMembers_le_iff.mpr fun member listed => (each member listed).depth
    · exact fun member listed => (each member listed).keys asked

/-- The items of an array are one level below it. -/
theorem of_array (within : Within distinct levels (.array items)) :
    ∃ inner, levels = inner + 1 ∧ ∀ item ∈ items, Within distinct inner item := by
  cases levels with
  | zero => cases within.depth
  | succ inner => exact ⟨inner, rfl, array_iff.mp within⟩

/-- The members of an object are one level below it. -/
theorem of_object (within : Within distinct levels (.object members)) :
    ∃ inner, levels = inner + 1 ∧ ∀ member ∈ members, Within distinct inner member.2 := by
  cases levels with
  | zero => cases within.depth
  | succ inner => exact ⟨inner, rfl, (object_iff.mp within).2⟩

/-! ## Written values -/

variable {α : Type}

theorem keyword [Keyword α] (word : α) : Within distinct levels (Record.ofKeyword word) :=
  string (Keyword.word word)

theorem ofStrings (texts : List String) : Within distinct (levels + 1) (.ofStrings texts) := by
  rw [Json.ofStrings, array_iff, List.forall_mem_map]
  exact fun text _ => string text

theorem ofDict {write : α → Json} {dict : Dict α}
    (each : ∀ entry ∈ dict.entries, Within distinct levels (write entry.2)) :
    Within distinct (levels + 1) (Record.ofDict write dict) := by
  rw [Record.ofDict, object_iff, List.forall_mem_map]
  exact ⟨fun _ => (dict.mapValues write).distinct, each⟩

/-- What is written of a field, if anything is. -/
def Field (distinct : Prop) (levels : Nat) (value? : Option Json) : Prop :=
  ∀ value, value? = some value → Within distinct levels value

theorem field_some (within : Within distinct levels value) :
    Field distinct levels (some value) := by
  intro _ written
  cases written
  exact within

theorem field_map {write : α → Json} (each : ∀ value, Within distinct levels (write value))
    (value? : Option α) : Field distinct levels (value?.map write) := by
  intro _ written
  obtain ⟨value, -, rfl⟩ := Option.map_eq_some_iff.mp written
  exact each value

theorem field_list {write : α → Json} {values : List α}
    (each : ∀ value ∈ values, Within distinct levels (write value)) :
    Field distinct (levels + 1) (Record.listValue values write) := by
  intro _ written
  rw [Record.listValue] at written
  split at written
  · cases written
  · cases written
    rw [array_iff, List.forall_mem_map]
    exact each

theorem field_dict {write : α → Json} {dict : Dict α}
    (each : ∀ entry ∈ dict.entries, Within distinct levels (write entry.2)) :
    Field distinct (levels + 1) (Record.dictValue dict write) := by
  intro _ written
  rw [Record.dictValue] at written
  split at written
  · cases written
  · cases written
    exact ofDict each

/-- A record is one level around the deepest of its fields. -/
theorem record {fields : List (String × Option Json)} (names : (fields.map Prod.fst).Nodup)
    (each : ∀ field ∈ fields, Field distinct levels field.2) :
    Within distinct (levels + 1) (.object (Record.members fields)) := by
  rw [object_iff]
  refine ⟨fun _ => Record.nodup_keys_members names, fun member listed => ?_⟩
  exact each _ (Record.mem_members_iff.mp listed) member.2 rfl

end Within

end Json

/-! ## Reading -/

/-- Everything in the value is looked at. -/
inductive Layout.Shows : Layout → Json → Prop where
  | scalar {layout : Layout} {value : Json} (flat : value.depth = 0) : Shows layout value
  | array {layout : Layout} {items : List Json}
      (each : ∀ item ∈ items, Shows layout.item item) : Shows layout (.array items)
  | object {layout : Layout} {members : List (String × Json)}
      (looked : ∀ member ∈ members, (layout.member? member.1).isSome = true)
      (each : ∀ member ∈ members, ∀ inner, layout.member? member.1 = some inner →
        Shows inner member.2) : Shows layout (.object members)

namespace Layout.Shows

variable {layout : Layout}

theorem of_array {items : List Json} (shown : layout.Shows (.array items)) :
    ∀ item ∈ items, layout.item.Shows item := by
  cases shown with
  | scalar flat => cases flat
  | array each => exact each

theorem of_object {members : List (String × Json)} (shown : layout.Shows (.object members)) :
    ∀ member ∈ members, ∃ inner, layout.member? member.1 = some inner ∧ inner.Shows member.2 := by
  cases shown with
  | scalar flat => cases flat
  | object looked each =>
      intro member listed
      obtain ⟨inner, found⟩ := Option.isSome_iff_exists.mp (looked member listed)
      exact ⟨inner, found, each member listed inner found⟩

end Layout.Shows

namespace RawJson

mutual

/-- What is read at some number of levels is read at any number that its value keeps within, by a
layout that looks at all of it. -/
theorem value?_of_depth_le {levels limit : Nat} {layout : Layout} : (raw : RawJson) →
    {value : Json} → raw.value? levels .whole = some value → value.depth ≤ limit →
      layout.Shows value → raw.value? limit layout = some value
  | .null, _, read, _, _ => read
  | .bool _, _, read, _, _ => read
  | .number _, _, read, _, _ => by
      rw [value?] at read ⊢
      exact read
  | .string _, _, read, _, _ => by
      rw [value?] at read ⊢
      exact read
  | .array items, value, read, within, shown => by
      rw [value?] at read
      split at read
      · cases read
      · obtain ⟨values, readItems, rfl⟩ := Option.map_eq_some_iff.mp read
        -- The list itself takes the first level of the limit, as it does of the depth.
        cases limit with
        | zero => cases within
        | succ limit =>
            have depths := Json.depthOfItems_le_iff.mp (Nat.le_of_succ_le_succ within)
            have inner := itemValues?_of_depth_le items readItems depths shown.of_array
            rw [value?, if_neg (Nat.succ_ne_zero limit), Nat.add_sub_cancel, inner, Option.map_some]
  | .object members, value, read, within, shown => by
      rw [value?] at read
      split at read
      · cases read
      · obtain ⟨values, readMembers, rfl⟩ := Option.map_eq_some_iff.mp read
        cases limit with
        | zero => cases within
        | succ limit =>
            have depths := Json.depthOfMembers_le_iff.mp (Nat.le_of_succ_le_succ within)
            have inner := memberValues?_of_depth_le members readMembers depths shown.of_object
            rw [value?, if_neg (Nat.succ_ne_zero limit), Nat.add_sub_cancel, inner, Option.map_some]

private theorem itemValues?_of_depth_le {levels limit : Nat} {layout : Layout} :
    (items : List RawJson) →
    {values : List Json} → itemValues? levels .whole items = some values →
      (∀ value ∈ values, value.depth ≤ limit) → (∀ value ∈ values, layout.Shows value) →
        itemValues? limit layout items = some values
  | [], _, read, _, _ => read
  | item :: rest, values, read, within, shown => by
      rw [itemValues?] at read
      obtain ⟨first, head, read⟩ := Option.bind_eq_some_iff.mp read
      obtain ⟨others, tail, shape⟩ := Option.bind_eq_some_iff.mp read
      cases shape
      obtain ⟨firstWithin, othersWithin⟩ := List.forall_mem_cons.mp within
      obtain ⟨firstShown, othersShown⟩ := List.forall_mem_cons.mp shown
      have head := value?_of_depth_le item head firstWithin firstShown
      have tail := itemValues?_of_depth_le rest tail othersWithin othersShown
      rw [itemValues?, head, tail]
      rfl

private theorem memberValues?_of_depth_le {levels limit : Nat} {layout : Layout} :
    (members : List (Option String × RawJson)) → {values : List (String × Json)} →
      memberValues? levels .whole members = some values →
        (∀ member ∈ values, member.2.depth ≤ limit) →
          (∀ member ∈ values, ∃ inner, layout.member? member.1 = some inner ∧
            inner.Shows member.2) →
              memberValues? limit layout members = some values
  | [], _, read, _, _ => read
  | (key, member) :: rest, values, read, within, shown => by
      rw [memberValues?] at read
      obtain ⟨name, named, read⟩ := Option.bind_eq_some_iff.mp read
      obtain ⟨first, head, read⟩ := Option.bind_eq_some_iff.mp read
      obtain ⟨others, tail, shape⟩ := Option.bind_eq_some_iff.mp read
      cases shape
      obtain ⟨firstWithin, othersWithin⟩ := List.forall_mem_cons.mp within
      obtain ⟨⟨inner, looked, firstShown⟩, othersShown⟩ := List.forall_mem_cons.mp shown
      have head := value?_of_depth_le member head firstWithin firstShown
      have tail := memberValues?_of_depth_le rest tail othersWithin othersShown
      rw [memberValues?, named]
      simp only [Option.bind_eq_bind, Option.bind_some, looked, head, tail]

end

end RawJson

end NodeDescriptor
