import Mathlib.Data.Set.List
import NodeDescriptor.Proofs.Attribute.Blocks

/-!
# Lists of types

The items of a list of types are judged one after another. An item is at fault if it is no string,
if its string names no type, or if the same string stands before it in the list. The check compares
types and not strings; that comes to the same, since a type has one spelling only.
-/

set_option autoImplicit false

namespace NodeDescriptor

variable {items before seen : List Json} {item : Json} {problem : Problem}

/-! ## Items -/

/-- A value is a string of the grammar of types, and it is read as this type. -/
def Json.Spells (value : Json) (type : DataType) : Prop :=
  ∃ text, value = .string text ∧ DataType.parse text = .ok type

private theorem Json.spells_iff {value : Json} {type : DataType} :
    value.Spells type ↔ value = .string type.text := by
  constructor
  · intro spells
    obtain ⟨text, rfl, read⟩ := spells
    rw [DataType.parse_eq_ok_iff.mp read]
  · intro spelled
    exact ⟨type.text, spelled, DataType.parse_text type⟩

theorem DataType.spelling_injective :
    Function.Injective fun type : DataType => Json.string type.text :=
  fun _ _ same => text_injective (Json.string.inj same)

/-- What is wrong with an item of a list of types, given the items before it. -/
inductive Json.Misnames (before : List Json) : Json → Problem → Prop where
  | notText {item : Json} (other : ∀ text, item ≠ .string text) :
      Misnames before item (.wrongShape "a type name string")
  | unknown {text : String} (unread : ∀ type, DataType.parse text ≠ .ok type) :
      Misnames before (.string text) (.unknownType text)
  | repeated {text : String} {type : DataType} (read : DataType.parse text = .ok type)
      (again : .string text ∈ before) : Misnames before (.string text) (.repeatedType text)

theorem Json.Misnames.unique {other : Problem} (one : Misnames before item problem)
    (same : Misnames before item other) : problem = other := by
  cases one with
  | notText noText =>
      cases same with
      | notText => rfl
      | unknown => exact absurd rfl (noText _)
      | repeated => exact absurd rfl (noText _)
  | unknown unread =>
      cases same with
      | notText noText => exact absurd rfl (noText _)
      | unknown => rfl
      | repeated read => exact absurd read (unread _)
  | repeated read =>
      cases same with
      | notText noText => exact absurd rfl (noText _)
      | unknown unread => exact absurd read (unread _)
      | repeated => rfl

namespace Attribute

/-! ## One item -/

/-- The types that were read are those that the items seen so far spell. -/
def Tracks (types : List DataType) (seen : List Json) : Prop :=
  ∀ type, type ∈ types ↔ .string type.text ∈ seen

variable {types : List DataType}

private theorem misnames_of_typeOfItem (tracks : Tracks types seen)
    (refused : typeOfItem types item = .error problem) : item.Misnames seen problem := by
  unfold typeOfItem at refused
  split at refused
  · rename_i noText
    cases refused
    refine .notText fun text same => ?_
    rw [same] at noText
    cases noText
  · rename_i text isText
    obtain rfl := Json.asString?_eq_some_iff.mp isText
    split at refused
    · rename_i unknown read
      cases refused
      obtain ⟨rfl, unspelled⟩ := DataType.parse_eq_error_iff.mp read
      exact .unknown fun type accepted => unspelled type (DataType.parse_eq_ok_iff.mp accepted)
    · rename_i type read
      obtain rfl := DataType.parse_eq_ok_iff.mp read
      split at refused
      · rename_i repeated
        cases refused
        exact .repeated read ((tracks type).mp repeated)
      · cases refused

private theorem typeOfItem_of_misnames (tracks : Tracks types seen)
    (wrong : item.Misnames seen problem) :
    typeOfItem types item = .error problem := by
  cases wrong with
  | notText other =>
      cases item with
      | string text => exact absurd rfl (other text)
      | _ => rfl
  | @unknown text unread =>
      have refused : DataType.parse text = .error ⟨text⟩ :=
        DataType.parse_eq_error_iff.mpr
          ⟨rfl, fun type spelled => unread type (DataType.parse_eq_ok_iff.mpr spelled)⟩
      simp only [typeOfItem, Json.asString?, refused]
  | repeated read again =>
      obtain rfl := DataType.parse_eq_ok_iff.mp read
      simp only [typeOfItem, Json.asString?, read, (tracks _).mpr again, if_true]

private theorem typeOfItem_eq_error_iff (tracks : Tracks types seen) :
    typeOfItem types item = .error problem ↔ item.Misnames seen problem :=
  ⟨misnames_of_typeOfItem tracks, typeOfItem_of_misnames tracks⟩

theorem Tracks.nil : Tracks [] [] := by simp [Tracks]

theorem Tracks.read {type : DataType} (tracks : Tracks types seen)
    (read : typeOfItem types item = .ok type) : Tracks (types ++ [type]) (seen ++ [item]) := by
  obtain ⟨rfl, -⟩ := typeOfItem_eq_ok_iff.mp read
  intro other
  have same : Json.string other.text = .string type.text ↔ other = type :=
    DataType.spelling_injective.eq_iff
  simp only [List.mem_append, List.mem_singleton, tracks other, same]

private theorem Tracks.refuse (tracks : Tracks types seen) (wrong : item.Misnames seen problem) :
    Tracks types (seen ++ [item]) := by
  intro other
  rw [tracks other, List.mem_append, List.mem_singleton]
  refine ⟨.inl, fun listed => listed.elim id ?_⟩
  rintro rfl
  -- A refused item that spells a type repeats an item before it.
  cases wrong with
  | notText noText => exact absurd rfl (noText _)
  | unknown unread => exact absurd (DataType.parse_text other) (unread other)
  | repeated _ again => exact again

/-! ## All items -/

/-- The item at a position is at fault, given the items before it. -/
def FaultAt (items : List Json) (position : Nat) (problem : Problem) : Prop :=
  ∃ item, items[position]? = some item ∧ item.Misnames (items.take position) problem

/-- The faults from a position on, each once and in the order of the items. -/
structure FaultsFrom (items : List Json) (start : Nat) (faults : List (Nat × Problem)) : Prop where
  ordered : faults.Pairwise fun one other => one.1 < other.1
  mem_iff : ∀ position problem,
    (position, problem) ∈ faults ↔ start ≤ position ∧ FaultAt items position problem

theorem FaultAt.unique {position : Nat} {other : Problem} (one : FaultAt items position problem)
    (same : FaultAt items position other) : problem = other := by
  obtain ⟨item, found, wrong⟩ := one
  obtain ⟨_, foundSame, wrongSame⟩ := same
  cases found.symm.trans foundSame
  exact wrong.unique wrongSame

private theorem faultAt_append_cons_iff {rest : List Json} :
    FaultAt (seen ++ item :: rest) seen.length problem ↔ item.Misnames seen problem := by
  simp [FaultAt]

namespace FaultsFrom

variable {start : Nat} {faults : List (Nat × Problem)}

theorem nil : FaultsFrom items items.length [] := by
  refine ⟨.nil, fun position problem => ?_⟩
  simp only [List.not_mem_nil, false_iff, not_and]
  intro beyond fault
  obtain ⟨item, found, -⟩ := fault
  rw [List.getElem?_eq_none beyond] at found
  cases found

theorem skip (later : FaultsFrom items (start + 1) faults)
    (faultless : ∀ problem, ¬FaultAt items start problem) : FaultsFrom items start faults := by
  refine ⟨later.ordered, fun position problem => ?_⟩
  rw [later.mem_iff]
  constructor
  · intro listed
    exact ⟨Nat.le_of_succ_le listed.1, listed.2⟩
  · intro fault
    refine ⟨Nat.lt_of_le_of_ne fault.1 ?_, fault.2⟩
    rintro rfl
    exact faultless problem fault.2

theorem cons (later : FaultsFrom items (start + 1) faults) (fault : FaultAt items start problem) :
    FaultsFrom items start ((start, problem) :: faults) := by
  refine ⟨List.pairwise_cons.mpr ⟨fun other listed => ?_, later.ordered⟩, fun position other => ?_⟩
  · exact ((later.mem_iff other.1 other.2).mp listed).1
  · rw [List.mem_cons, later.mem_iff, Prod.mk.injEq]
    constructor
    · rintro (⟨rfl, rfl⟩ | listed)
      · exact ⟨Nat.le_refl _, fault⟩
      · exact ⟨Nat.le_of_succ_le listed.1, listed.2⟩
    · rintro ⟨reached, another⟩
      rcases Nat.eq_or_lt_of_le reached with rfl | passed
      · exact .inl ⟨rfl, another.unique fault⟩
      · exact .inr ⟨passed, another⟩

end FaultsFrom

private theorem findings_checkTypeItems (rest : List Json) (tracks : Tracks types seen) :
    ∃ faults, FaultsFrom (seen ++ rest) seen.length faults ∧
      (checkTypeItems seen.length types rest).findings =
        faults.map fun fault => ⟨FieldPath.root.index fault.1, fault.2⟩ := by
  -- With each item that is read on, the types keep tracking the items that were seen.
  induction rest generalizing types seen with
  | nil =>
      rw [List.append_nil]
      exact ⟨[], .nil, rfl⟩
  | cons item rest ih =>
      have onwards {types : List DataType} (tracks : Tracks types (seen ++ [item])) :
          ∃ faults, FaultsFrom (seen ++ item :: rest) (seen.length + 1) faults ∧
            (checkTypeItems (seen.length + 1) types rest).findings =
              faults.map fun fault => ⟨FieldPath.root.index fault.1, fault.2⟩ := by
        simpa using ih tracks
      cases judged : typeOfItem types item with
      | ok type =>
          obtain ⟨faults, later, found⟩ := onwards (tracks.read judged)
          refine ⟨faults, later.skip fun problem fault => ?_, ?_⟩
          · rw [faultAt_append_cons_iff, ← typeOfItem_eq_error_iff tracks, judged] at fault
            cases fault
          · simp only [checkTypeItems, judged, found]
      | error problem =>
          have wrong := (typeOfItem_eq_error_iff tracks).mp judged
          obtain ⟨faults, later, found⟩ := onwards (tracks.refuse wrong)
          refine ⟨_, later.cons (faultAt_append_cons_iff.mpr wrong), ?_⟩
          simp only [checkTypeItems, judged, found, List.map_cons]

/-! ## Lists -/

private theorem exists_spelled_iff :
    (∃ types : List DataType, types.Nodup ∧ items = types.map fun type => .string type.text) ↔
      (∀ item ∈ items, ∃ type, item.Spells type) ∧ items.Nodup := by
  simp only [Json.spells_iff]
  constructor
  · rintro ⟨types, distinct, rfl⟩
    refine ⟨fun item listed => ?_, distinct.map DataType.spelling_injective⟩
    obtain ⟨type, -, rfl⟩ := List.mem_map.mp listed
    exact ⟨type, rfl⟩
  · rintro ⟨spelled, distinct⟩
    have inRange : items ∈ Set.range (List.map fun type : DataType => Json.string type.text) := by
      rw [Set.range_list_map]
      intro item listed
      obtain ⟨type, rfl⟩ := spelled item listed
      exact ⟨type, rfl⟩
    obtain ⟨types, rfl⟩ := inRange
    exact ⟨types, distinct.of_map, rfl⟩

private theorem isSome_value_checkType_array_iff :
    (checkType (.array items)).value.isSome = true ↔
      items ≠ [] ∧ (∀ item ∈ items, ∃ type, item.Spells type) ∧ items.Nodup := by
  simp only [Option.isSome_iff_exists, value_checkType_eq_some_iff, Json.namesType_array_iff,
    ← exists_spelled_iff]
  constructor
  · rintro ⟨-, types, distinct, some, rfl, -⟩
    exact ⟨fun empty => some (List.map_eq_nil_iff.mp empty), types, distinct, rfl⟩
  · rintro ⟨some, types, distinct, rfl⟩
    exact ⟨_, types, distinct, fun empty => some (List.map_eq_nil_iff.mpr empty), rfl, rfl⟩

private theorem spells_of_checkType_array {type : AttributeType}
    (read : (checkType (.array items)).value = some type) :
    ∃ (types : List DataType) (distinct : types.Nodup), type = .anyOf types distinct ∧
      List.Forall₂ Json.Spells items types := by
  rw [value_checkType_eq_some_iff, Json.namesType_array_iff] at read
  obtain ⟨types, distinct, -, rfl, rfl⟩ := read
  refine ⟨types, distinct, rfl, ?_⟩
  rw [List.forall₂_map_left_iff, List.forall₂_same]
  exact fun type _ => Json.spells_iff.mpr rfl

private theorem findings_checkType_array (some : items ≠ []) :
    ∃ faults, FaultsFrom items 0 faults ∧ (checkType (.array items)).findings =
      faults.map fun fault => ⟨FieldPath.root.index fault.1, fault.2⟩ := by
  obtain ⟨faults, all, found⟩ := findings_checkTypeItems items Tracks.nil
  refine ⟨faults, all, ?_⟩
  cases items with
  | nil => exact absurd rfl some
  | cons item rest => exact found

/-! ## The type of an attribute -/

variable {members : List (String × Json)}

theorem Reading.type_ofMembers {value : Json} (given : members.lookup "type" = some value) :
    (ofMembers members).type = (checkType value).inside (.entry "type") := by
  simp only [ofMembers, Member.required, given]

theorem reports_type {value : Json} (path : FieldPath)
    (given : members.lookup "type" = some value) :
    reports path members "type" =
      ((checkType value).inside (path.key "type")).diagnostics := by
  rw [reports, Reading.about, Reading.type_ofMembers given, Checked.diagnostics]
  simp only [Checked.findings_inside, List.map_map]
  refine List.map_congr_left fun finding _ => ?_
  simp only [Function.comp_apply, Finding.inside, FieldPath.inside_entry_inside]

/-- A list that is given as a type is read as a set exactly when it is not empty, every item is a
string of the grammar, and no two are the same; the set has the types of the items, in their order.
What is reported on a list with items are the faults of the items, in their order and each at the
place of the item. A list without items is one wrong shape. -/
theorem type_list_itemwise (path : FieldPath) (members : List (String × Json)) (items : List Json)
    (given : members.lookup "type" = some (.array items)) :
    ((Reading.ofMembers members).type.value.isSome = true ↔
        items ≠ [] ∧ (∀ item ∈ items, ∃ type, item.Spells type) ∧ items.Nodup) ∧
      (∀ type, (Reading.ofMembers members).type.value = some type →
        ∃ (types : List DataType) (distinct : types.Nodup), type = .anyOf types distinct ∧
          List.Forall₂ Json.Spells items types ∧ types.length = items.length) ∧
      (items ≠ [] → ∃ faults, FaultsFrom items 0 faults ∧
        reports path members "type" =
          faults.map fun fault => ⟨((path.key "type").index fault.1).text, fault.2⟩) ∧
      (items = [] → reports path members "type" =
        [⟨(path.key "type").text,
          .wrongShape "a type name or a non-empty list of type names"⟩]) := by
  rw [Reading.type_ofMembers given, Checked.value_inside, reports_type path given]
  refine ⟨isSome_value_checkType_array_iff, fun type made => ?_, fun some => ?_, ?_⟩
  · obtain ⟨types, distinct, same, spelled⟩ := spells_of_checkType_array made
    exact ⟨types, distinct, same, spelled, spelled.length_eq.symm⟩
  · obtain ⟨faults, all, found⟩ := findings_checkType_array some
    refine ⟨faults, all, ?_⟩
    rw [Checked.diagnostics, Checked.findings_inside, found, List.map_map, List.map_map]
    rfl
  · rintro rfl
    simp [Checked.diagnostics, checkType, Checked.refused, Finding.here, Finding.inside,
      Finding.diagnostic, FieldPath.inside, FieldPath.root]

def mixedTypes : List Json :=
  [.string "int", .string "float[5]", .string "int", .null, .string "float[5]", .string "float"]

theorem mixedTypes_itemwise :
    [("type", Json.array mixedTypes)].lookup "type" = some (.array mixedTypes) ∧
      (Reading.ofMembers [("type", .array mixedTypes)]).type.value.isSome ≠ true ∧
      ∃ faults, FaultsFrom mixedTypes 0 faults ∧
        (faults.map fun fault =>
          Diagnostic.mk (((FieldPath.entry "a").key "type").index fault.1).text fault.2) =
        [⟨"a.type[1]", .unknownType "float[5]"⟩, ⟨"a.type[2]", .repeatedType "int"⟩,
          ⟨"a.type[3]", .wrongShape "a type name string"⟩,
          ⟨"a.type[4]", .unknownType "float[5]"⟩] := by
  have repeats : ¬mixedTypes.Nodup := by decide +kernel
  obtain ⟨readable, -, judged, -⟩ :=
    type_list_itemwise (.entry "a") [("type", .array mixedTypes)] mixedTypes rfl
  obtain ⟨faults, all, reported⟩ := judged (by decide)
  refine ⟨rfl, fun read => repeats (readable.mp read).2.2, faults, all, ?_⟩
  rw [← reported]
  decide +kernel

end Attribute

end NodeDescriptor
