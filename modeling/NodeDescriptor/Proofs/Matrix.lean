import NodeDescriptor.Shape

/-!
# Spellings of square matrices

A square matrix is given by rows or as one flat list. The size of the list and the kind of its items
tell the two apart, from two rows on. Both say the same: a matrix by rows is accepted exactly if its
rows, one after another, are accepted as a flat list, whatever the values in the rows are.
-/

set_option autoImplicit false

namespace NodeDescriptor

variable {size : Nat} {value : Json}

/-! ## Lists of scalars -/

namespace Json

/-- A number, a string or a boolean. -/
inductive IsScalar : Json → Prop where
  | number (value : Number) : IsScalar (.number value)
  | string (text : String) : IsScalar (.string text)
  | bool (truth : Bool) : IsScalar (.bool truth)

/-- A list of so many items of a kind. -/
def IsListOf (size : Nat) (kind : Json → Prop) (value : Json) : Prop :=
  ∃ items, value = .array items ∧ items.length = size ∧ ∀ item ∈ items, kind item

def IsTuple (size : Nat) : Json → Prop := IsListOf size IsScalar

/-- A list of so many rows with as many scalars each. -/
def IsRows (size : Nat) : Json → Prop := IsListOf size (IsTuple size)

private theorem isScalar_iff : value.isScalar = true ↔ value.IsScalar := by
  constructor
  · intro scalar
    cases value with
    | number value => exact .number value
    | string text => exact .string text
    | bool truth => exact .bool truth
    | null | array | object => cases scalar
  · intro scalar
    cases scalar <;> rfl

private theorem not_isScalar_array {items : List Json} : ¬(Json.array items).IsScalar := by
  intro scalar
  cases scalar

private theorem isListOf_array_iff {kind : Json → Prop} {items : List Json} :
    (Json.array items).IsListOf size kind ↔ items.length = size ∧ ∀ item ∈ items, kind item := by
  constructor
  · rintro ⟨_, same, each⟩
    cases same
    exact each
  · intro each
    exact ⟨items, rfl, each⟩

private theorem isTuple_array_iff {items : List Json} :
    (Json.array items).IsTuple size ↔ items.length = size ∧ ∀ item ∈ items, item.IsScalar :=
  isListOf_array_iff

private theorem isRows_array_iff {rows : List Json} :
    (Json.array rows).IsRows size ↔ rows.length = size ∧ ∀ row ∈ rows, row.IsTuple size :=
  isListOf_array_iff

end Json

namespace Shape

open Json

private theorem isTuple_iff {items : List Json} :
    isTuple size items = true ↔ (Json.array items).IsTuple size := by
  simp [isTuple, isTuple_array_iff, isScalar_iff]

private theorem isRow_iff : isRow size value = true ↔ value.IsTuple size := by
  cases value with
  | array items => exact isTuple_iff
  | _ => simp [isRow, IsTuple, IsListOf]

/-! ## Matrices -/

private theorem accepts_matrix_iff :
    (matrix size).accepts value = true ↔ value.IsRows size ∨ value.IsTuple (size * size) := by
  cases value with
  | array items => simp [accepts, isRows_array_iff, isRow_iff, isTuple_iff]
  | _ => simp [accepts, IsRows, IsTuple, IsListOf]

private theorem not_isTuple_of_row {items row : List Json} (listed : Json.array row ∈ items)
    {count : Nat} :
    ¬(Json.array items).IsTuple count := by
  rw [isTuple_array_iff]
  rintro ⟨-, scalars⟩
  exact not_isScalar_array (scalars _ listed)

private theorem not_isTuple_of_isRows (filled : 0 < size) (rows : value.IsRows size) {count : Nat} :
    ¬value.IsTuple count := by
  obtain ⟨items, rfl, length, each⟩ := rows
  obtain ⟨row, listed⟩ := List.exists_mem_of_length_pos (length ▸ filled)
  obtain ⟨cells, rfl, -⟩ := each row listed
  exact not_isTuple_of_row listed

private theorem not_isRows_of_length (several : 2 ≤ size) {items : List Json}
    (length : items.length = size * size) : ¬(Json.array items).IsRows size := by
  rw [isRows_array_iff]
  rintro ⟨same, -⟩
  have longer : 2 * size ≤ size * size := Nat.mul_le_mul_right size several
  omega

/-! ## Rows one after another -/

variable {rows : List (List Json)}

private theorem isRows_map_array_iff (length : rows.length = size)
    (square : ∀ row ∈ rows, row.length = size) :
    (Json.array (rows.map .array)).IsRows size ↔ ∀ row ∈ rows, ∀ item ∈ row, item.IsScalar := by
  rw [isRows_array_iff, List.forall_mem_map]
  simp only [List.length_map, length, true_and, isTuple_array_iff]
  exact forall₂_congr fun row listed => by simp [square row listed]

private theorem length_flatten_of_square (length : rows.length = size)
    (square : ∀ row ∈ rows, row.length = size) : rows.flatten.length = size * size := by
  have each : rows.map List.length = rows.map fun _ => size := List.map_congr_left square
  rw [List.length_flatten, each, List.map_const', length, List.sum_replicate_nat]

private theorem accepts_rows_iff (several : 2 ≤ size) (length : rows.length = size)
    (square : ∀ row ∈ rows, row.length = size) :
    (matrix size).accepts (.array (rows.map .array)) = true ↔
      ∀ row ∈ rows, ∀ item ∈ row, item.IsScalar := by
  have filled : 0 < rows.length := by omega
  obtain ⟨row, listed⟩ := List.exists_mem_of_length_pos filled
  have notFlat : ¬(Json.array (rows.map .array)).IsTuple (size * size) :=
    not_isTuple_of_row (List.mem_map_of_mem listed)
  rw [accepts_matrix_iff, or_iff_left notFlat, isRows_map_array_iff length square]

private theorem accepts_flatten_iff (several : 2 ≤ size) (length : rows.length = size)
    (square : ∀ row ∈ rows, row.length = size) :
    (matrix size).accepts (.array rows.flatten) = true ↔
      ∀ row ∈ rows, ∀ item ∈ row, item.IsScalar := by
  have count := length_flatten_of_square length square
  have notRows := not_isRows_of_length several count
  rw [accepts_matrix_iff, or_iff_right notRows, isTuple_array_iff, List.forall_mem_flatten]
  exact and_iff_right count

/-- From two rows on, a square matrix is accepted as a list of rows or as a flat list, no value is
both, and writing the rows one after another changes nothing. -/
theorem accepts_matrix_either_way (size : Nat) (several : 2 ≤ size) :
    (∀ value, (matrix size).accepts value = true ↔
        value.IsRows size ∨ value.IsTuple (size * size)) ∧
      (∀ value : Json, ¬(value.IsRows size ∧ value.IsTuple (size * size))) ∧
      ∀ rows : List (List Json), rows.length = size → (∀ row ∈ rows, row.length = size) →
        ((matrix size).accepts (.array (rows.map .array)) = true ↔
          (matrix size).accepts (.array rows.flatten) = true) := by
  have filled : 0 < size := by omega
  refine ⟨fun _ => accepts_matrix_iff, fun _ both => not_isTuple_of_isRows filled both.1 both.2,
    fun rows length square => ?_⟩
  rw [accepts_rows_iff several length square, accepts_flatten_iff several length square]

def scalarRows : List (List Json) := [[.ofNat 1, .string "0"], [.bool false, .ofNat 1]]

def nestedRows : List (List Json) := [[.ofNat 1, .array []], [.ofNat 0, .ofNat 1]]

/-- Rows of scalars are accepted in both ways, rows with a list among their values in neither. -/
theorem pairs_either_way :
    2 ≤ 2 ∧ scalarRows.length = 2 ∧ (∀ row ∈ scalarRows, row.length = 2) ∧
      (matrix 2).accepts (.array (scalarRows.map .array)) = true ∧
      (matrix 2).accepts (.array scalarRows.flatten) = true ∧
      ¬(Json.array scalarRows.flatten).IsRows 2 ∧
      nestedRows.length = 2 ∧ (∀ row ∈ nestedRows, row.length = 2) ∧
      (matrix 2).accepts (.array nestedRows.flatten) ≠ true := by
  obtain ⟨-, notBoth, same⟩ := accepts_matrix_either_way 2 (by decide)
  have square : ∀ row ∈ scalarRows, row.length = 2 := by decide
  have nestedSquare : ∀ row ∈ nestedRows, row.length = 2 := by decide
  have byRows : (matrix 2).accepts (.array (scalarRows.map .array)) = true := by decide
  have flat := (same scalarRows rfl square).mp byRows
  have notByRows : (matrix 2).accepts (.array (nestedRows.map .array)) ≠ true := by decide
  have scalars : (Json.array scalarRows.flatten).IsTuple (2 * 2) := isTuple_iff.mp (by decide)
  exact ⟨by decide, rfl, square, byRows, flat, fun rows => notBoth _ ⟨rows, scalars⟩, rfl,
    nestedSquare, fun nested => notByRows ((same nestedRows rfl nestedSquare).mpr nested)⟩

end Shape

end NodeDescriptor
