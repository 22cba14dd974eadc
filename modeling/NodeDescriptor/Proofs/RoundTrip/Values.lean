import NodeDescriptor.Attribute.Type
import NodeDescriptor.Icon.Basic
import NodeDescriptor.Proofs.DataType.Parsing
import NodeDescriptor.Proofs.RoundTrip.Records

/-!
# Icons and types that were written

Colors are written in hexadecimal digits and types by their texts, and both are read back as what
they were.
-/

set_option autoImplicit false

namespace NodeDescriptor

/-! ## Colors -/

namespace Hex

private theorem byte_halves (value : UInt8) :
    byte (value.toNat / 16) (value.toNat % 16) = value := by
  rw [byte, Nat.div_add_mod', UInt8.ofNat_toNat]

private theorem mapM_value?_digits (bytes : List UInt8) :
    (bytes.flatMap ofByte).mapM value? =
      some (bytes.flatMap fun value => [value.toNat / 16, value.toNat % 16]) := by
  induction bytes with
  | nil => rfl
  | cons value rest ih =>
      have bound : value.toNat < 256 := value.toNat_lt
      have high : value? (upperDigit (value.toNat / 16)) = some (value.toNat / 16) :=
        value?_upperDigit _ (by omega)
      have low : value? (upperDigit (value.toNat % 16)) = some (value.toNat % 16) :=
        value?_upperDigit _ (by omega)
      rw [List.flatMap_cons, List.flatMap_cons, ofByte, List.cons_append, List.singleton_append]
      exact mapM_cons_eq_some_iff.mpr
        ⟨_, _, high, mapM_cons_eq_some_iff.mpr ⟨_, _, low, ih, rfl⟩, rfl⟩

end Hex

theorem Color.ofHex_hex (color : Color) : ofHex color.hex = .ok color := by
  have digits := Hex.mapM_value?_digits [color.alpha, color.blue, color.green, color.red]
  simp only [ofHex, hex, String.toList_ofList, digits, Option.bind_some]
  simp [ofDigits?, Hex.byte_halves]

private theorem IconColors.loadColor?_toJson (color : Color) :
    loadColor? color.toJson = some color := by
  rw [loadColor?, Color.toJson, Color.ofJson, Color.ofHex_hex]
  rfl

/-! ## Icons -/

namespace Icon

def written (icon : Icon) : List (String × Option Json) :=
  [("path", some (.string icon.path)), ("color", some icon.colors.color.toJson),
    ("backgroundColor", some icon.colors.background.toJson),
    ("borderColor", some icon.colors.border.toJson)]

theorem nodup_written (icon : Icon) : (icon.written.map Prod.fst).Nodup := by
  have distinct : fields.Nodup := by decide
  exact distinct

theorem ofJson?_toJson (icon : Icon) : ofJson? icon.toJson = some icon := by
  have shape : icon.toJson = .object (Record.members icon.written) := rfl
  have found {name : String} {value : Json} (listed : (name, some value) ∈ icon.written) :
      (Record.members icon.written).lookup name = some value :=
    Record.lookup_members icon.nodup_written listed
  have path : Record.required? (Record.members icon.written) "path" Json.asString? =
      some icon.path :=
    Record.required?_of_lookup (.string icon.path) (found (by simp [written])) rfl
  have color {name : String} (color : Color) (listed : (name, some color.toJson) ∈ icon.written) :
      Record.required? (Record.members icon.written) name IconColors.loadColor? = some color :=
    Record.required?_of_lookup color.toJson (found listed) (IconColors.loadColor?_toJson color)
  rw [ofJson?, shape]
  refine Record.bind_of_loaded (Record.open?_members icon.nodup_written fields) ?_
  refine Record.bind_of_loaded path ?_
  refine Record.bind_of_loaded (color icon.colors.color (by simp [written])) ?_
  refine Record.bind_of_loaded (color icon.colors.background (by simp [written])) ?_
  refine Record.bind_of_loaded (color icon.colors.border (by simp [written])) ?_
  rfl

theorem toJson_ne_null (icon : Icon) : icon.toJson ≠ .null := by
  intro same
  cases same

end Icon

/-! ## Types -/

namespace Distinct

private theorem addAll_of_nodup {α : Type} [DecidableEq α] {values additions : List α}
    (distinct : (values ++ additions).Nodup) : addAll values additions = values ++ additions := by
  induction additions generalizing values with
  | nil => simp [addAll]
  | cons value rest ih =>
      have absent : value ∉ values := by
        intro present
        exact (List.nodup_append.mp distinct).2.2 value present value List.mem_cons_self rfl
      have shifted : values ++ [value] ++ rest = values ++ value :: rest := by simp
      have step : addAll values (value :: rest) = addAll (add values value) rest := rfl
      rw [step, add, if_neg absent, ih (shifted ▸ distinct), shifted]

theorem ofList_of_nodup {α : Type} [DecidableEq α] {values : List α} (distinct : values.Nodup) :
    ofList values = values :=
  addAll_of_nodup distinct

end Distinct

namespace AttributeType

private theorem loadType?_text (type : DataType) : loadType? (.string type.text) = some type := by
  rw [loadType?, Json.asString?, Option.bind_some, DataType.parse_text]
  rfl

theorem ofJson?_toJson (type : AttributeType) : ofJson? type.toJson = some type := by
  cases type with
  | one single => rw [toJson, ofJson?, loadType?_text, Option.map_some]; simp
  | anyOf types distinct =>
      have each : ((types.map DataType.text).map .string).mapM loadType? = some types := by
        rw [List.map_map]
        exact (mapM_map_eq_some fun single _ => loadType?_text single).trans (by rw [List.map_id'])
      simp only [toJson, Json.ofStrings, ofJson?, each, Option.map_some,
        Distinct.ofList_of_nodup distinct]

end AttributeType

end NodeDescriptor
