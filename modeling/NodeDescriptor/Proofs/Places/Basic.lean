import NodeDescriptor.Proofs.Dict
import NodeDescriptor.Proofs.Legality.Faultless

/-!
# Places of findings

A path leads from a value to another one inside it, by members and items. A finding about a value
is at a place of the value when its path leads to something, or, where something is missing, to an
object and then by the key that the object lacks. Places are kept when a finding is seen from
further outside, so every check can be looked at alone.
-/

set_option autoImplicit false

namespace NodeDescriptor

/-! ## Values at paths -/

namespace Json

/-- The value to which a step leads. -/
def step? : Json → PathStep → Option Json
  | .object members, .key name => members.lookup name
  | .array items, .index position => items[position]?
  | _, _ => none

/-- The value to which a path leads. -/
def at? (value : Json) (path : FieldPath) : Option Json := path.steps.foldlM step? value

@[simp] theorem at?_entry (members : List (String × Json)) (key : String) :
    (Json.object members).at? (.entry key) = members.lookup key := by
  simp [at?, FieldPath.entry, step?]

@[simp] theorem at?_index (items : List Json) (position : Nat) :
    (Json.array items).at? (FieldPath.root.index position) = items[position]? := by
  simp [at?, FieldPath.root, FieldPath.index, step?]

private theorem at?_inside (value : Json) (path inner : FieldPath) :
    value.at? (path.inside inner) = (value.at? path).bind fun found => found.at? inner :=
  List.foldlM_append

theorem at?_key {value : Json} {path : FieldPath} {members : List (String × Json)}
    (reached : value.at? path = some (.object members)) (key : String) :
    value.at? (path.key key) = members.lookup key := by
  have steps : path.key key = path.inside (.entry key) := rfl
  rw [steps, at?_inside, reached, Option.bind_some, at?_entry]

theorem at?_item {value : Json} {path : FieldPath} {items : List Json}
    (reached : value.at? path = some (.array items)) (position : Nat) :
    value.at? (path.index position) = items[position]? := by
  have steps : path.index position = path.inside (FieldPath.root.index position) := rfl
  rw [steps, at?_inside, reached, Option.bind_some, at?_index]

end Json

/-! ## Findings -/

/-- The finding is at a place of the value. The keys that may be missing hold no point, so each is
found again at the end of the text of a path. -/
inductive Finding.PlacedIn (value : Json) (finding : Finding) : Prop where
  | absent (before : FieldPath) (key : String) (members : List (String × Json))
      (shape : finding = ⟨before.key key, .missing⟩)
      (found : value.at? before = some (.object members)) (lacking : members.lookup key = none)
      (pointFree : '.' ∉ key.toList)
  | present (given : finding.problem ≠ .missing) (found : (value.at? finding.path).isSome = true)

/-- Every finding is at a place of the value. -/
def Placed (value : Json) (findings : List Finding) : Prop :=
  ∀ finding ∈ findings, finding.PlacedIn value

variable {value : Json} {finding : Finding}

namespace Finding

theorem placedIn_here {problem : Problem} (given : problem ≠ .missing) :
    (Finding.here problem).PlacedIn value :=
  .present given rfl

theorem placedIn_entry {members : List (String × Json)} {key : String} {problem : Problem}
    (listed : key ∈ Entries.keys members) (given : problem ≠ .missing) :
    (⟨.entry key, problem⟩ : Finding).PlacedIn (.object members) := by
  refine .present given ?_
  rw [Json.at?_entry]
  exact Entries.lookup_isSome_iff.mpr listed

theorem placedIn_index {items : List Json} {position : Nat} {problem : Problem}
    (bound : position < items.length) (given : problem ≠ .missing) :
    (⟨FieldPath.root.index position, problem⟩ : Finding).PlacedIn (.array items) := by
  refine .present given ?_
  rw [Json.at?_index, List.getElem?_eq_getElem bound]
  rfl

/-- What is at a place inside a value is at a place of what the value is found in. -/
theorem PlacedIn.inside {inner : Json} {path : FieldPath} (placed : finding.PlacedIn inner)
    (reached : value.at? path = some inner) : (finding.inside path).PlacedIn value := by
  cases placed with
  | absent before key members shape found lacking pointFree =>
      refine .absent (path.inside before) key members ?_ ?_ lacking pointFree
      · simp [shape, Finding.inside, FieldPath.inside, FieldPath.key]
      · rw [Json.at?_inside, reached, Option.bind_some, found]
  | present given found =>
      refine .present given ?_
      rw [Finding.inside, Json.at?_inside, reached, Option.bind_some]
      exact found

end Finding

namespace Placed

@[simp] theorem nil : Placed value [] := by simp [Placed]

@[simp] theorem append_iff {left right : List Finding} :
    Placed value (left ++ right) ↔ Placed value left ∧ Placed value right :=
  List.forall_mem_append

theorem here {problem : Problem} (given : problem ≠ .missing) :
    Placed value [Finding.here problem] := by
  intro finding found
  rw [List.mem_singleton.mp found]
  exact Finding.placedIn_here given

theorem inside {inner : Json} {path : FieldPath} {findings : List Finding}
    (placed : Placed inner findings) (reached : value.at? path = some inner) :
    Placed value (findings.map (Finding.inside path)) := by
  intro finding found
  obtain ⟨seen, inFindings, rfl⟩ := List.mem_map.mp found
  exact (placed seen inFindings).inside reached

end Placed

/-! ## Items of lists -/

/-- The finding is about one of so many items from a position on. -/
def Finding.AtItem (position count : Nat) (finding : Finding) : Prop :=
  finding.problem ≠ .missing ∧
    ∃ offset < count, finding.path = FieldPath.root.index (position + offset)

namespace Finding.AtItem

variable {position count : Nat}

theorem first {problem : Problem} (given : problem ≠ .missing) :
    AtItem position (count + 1) ⟨FieldPath.root.index position, problem⟩ :=
  ⟨given, 0, Nat.succ_pos count, rfl⟩

theorem later (rest : AtItem (position + 1) count finding) :
    AtItem position (count + 1) finding := by
  obtain ⟨given, offset, bound, path⟩ := rest
  refine ⟨given, offset + 1, Nat.succ_lt_succ bound, ?_⟩
  rw [path, Nat.add_right_comm, Nat.add_assoc]

theorem placedIn {items : List Json} (among : AtItem 0 items.length finding) :
    finding.PlacedIn (.array items) := by
  obtain ⟨given, offset, bound, path⟩ := among
  obtain ⟨found, problem⟩ := finding
  obtain rfl : found = FieldPath.root.index (0 + offset) := path
  rw [Nat.zero_add]
  exact placedIn_index bound given

end Finding.AtItem

/-! ## Readers of members -/

namespace Member

variable {α : Type} {members : List (String × Json)} {key : String}
  {check : Json → Checked (Option α)}

theorem placed_form {form? : Json → Option α} {expected : String} :
    Placed value (form form? expected value).findings := by
  unfold form
  cases form? value with
  | some result => exact Placed.nil
  | none => exact Placed.here (by simp)

theorem placed_word [Keyword α] {expected : String} :
    Placed value (word (α := α) expected value).findings := by
  cases value with
  | string text =>
      simp only [word]
      split
      · exact Placed.nil
      · exact Placed.here (by simp)
  | _ => exact Placed.here (by simp)

private theorem placed_found {found : Json} (placed : Placed found (check found).findings)
    (looked : members.lookup key = some found) :
    Placed (.object members) ((check found).inside (.entry key)).findings :=
  placed.inside (by rw [Json.at?_entry, looked])

theorem placed_optional
    (each : ∀ value, members.lookup key = some value → Placed value (check value).findings) :
    Placed (.object members) (optional members key check).findings := by
  unfold optional
  cases looked : members.lookup key with
  | none => exact Placed.nil
  | some value => exact placed_found (each value looked) looked

theorem placed_withDefault {default : α}
    (each : ∀ value, members.lookup key = some value → Placed value (check value).findings) :
    Placed (.object members) (withDefault members key default check).findings := by
  unfold withDefault
  cases looked : members.lookup key with
  | none => exact Placed.nil
  | some value => exact placed_found (each value looked) looked

theorem placed_required (pointFree : '.' ∉ key.toList)
    (each : ∀ value, members.lookup key = some value → Placed value (check value).findings) :
    Placed (.object members) (required members key check).findings := by
  unfold required
  cases looked : members.lookup key with
  | none =>
      intro finding found
      rw [List.mem_singleton.mp found]
      exact .absent .root key members rfl rfl looked pointFree
  | some value => exact placed_found (each value looked) looked

end Member

end NodeDescriptor
