import NodeDescriptor.Proofs.Legality.Attribute

/-!
# Values of list types

The spelling of a list type is the spelling of another type with brackets behind it. So are the
values: a default of the list type is a list of defaults of the other type, and a bound of the list
type limits every element, so that it looks like a default of the other type.
-/

set_option autoImplicit false

namespace NodeDescriptor

/-! ## Spellings -/

namespace DataType

private theorem element?_eq_some_iff {type : DataType} {element : Element} :
    type.element? = some element ↔ ∃ legal, type = .list element legal := by
  cases type with
  | list other legal =>
      constructor
      · intro same
        cases same
        exact ⟨legal, rfl⟩
      · intro same
        obtain ⟨_, same⟩ := same
        cases same
        rfl
  | _ => simp [element?]

private theorem exists_element_of_parse {text : String} {type : DataType}
    (read : parse (text ++ "[]") = .ok type) :
    ∃ element legal, type = .list element legal ∧ element.text = text := by
  have bracketed : listHead? type.text = some text := by
    rw [parse_eq_ok_iff.mp read]
    exact listHead?_eq_some_iff.mpr rfl
  rw [listHead?_text, Option.map_eq_some_iff] at bracketed
  obtain ⟨element, isList, spelled⟩ := bracketed
  obtain ⟨legal, rfl⟩ := element?_eq_some_iff.mp isList
  exact ⟨element, legal, rfl, spelled⟩

private theorem element?_eq_none {text : String} {type : DataType} (read : parse text = .ok type)
    (plain : ∀ head, text ≠ head ++ "[]") : type.element? = none := by
  refine Option.eq_none_iff_forall_ne_some.mpr fun element isList => plain element.text ?_
  rw [← listHead?_eq_some_iff, ← parse_eq_ok_iff.mp read, listHead?_text, isList, Option.map_some]

end DataType

/-! ## Shapes -/

private theorem Role.ofBound_shape (role : Role) : role.shape.ofBound = role.shape := by
  cases role with
  | numeric role =>
      rw [shape]
      split <;> rfl
  | execute | objectId | timecode => rfl

private theorem Element.ofBound_shape (element : Element) :
    element.shape.ofBound = element.shape := by
  cases element with
  | base | tuple => rfl
  | role meaning => exact meaning.ofBound_shape

private theorem DataType.ofBound_shape {type : DataType} (plain : type.element? = none) :
    type.shape.ofBound = type.shape := by
  cases type with
  | single element => exact element.ofBound_shape
  | list => cases plain
  | bundle | target | any | group => rfl

private theorem Shape.accepts_list_iff {element : Shape} {value : Json} :
    (Shape.list element).accepts value = true ↔
      ∃ items, value = .array items ∧ ∀ item ∈ items, element.accepts item = true := by
  cases value with
  | array items => simp [accepts]
  | _ => simp [accepts]

/-! ## Defaults and bounds -/

namespace Attribute

/-- The text spells a type, and nothing is found against the value as a default of that type. -/
def AcceptsDefault (text : String) (value : Json) : Prop :=
  ∃ type, (checkType (.string text)).value = some type ∧
    (checkDefault (some type) value).findings = []

/-- The text spells a type, and nothing is found against the value as a bound of that type. -/
def AcceptsBound (text : String) (bound : Json) : Prop :=
  ∃ type, (checkType (.string text)).value = some type ∧
    (checkBound (some type) bound).findings = []

variable {text : String} {type : DataType} {value : Json}

private theorem value_checkType_string (read : DataType.parse text = .ok type) :
    (checkType (.string text)).value = some (.one type) := by
  rw [value_checkType_eq_some_iff, ← DataType.parse_eq_ok_iff.mp read]
  exact .one type

private theorem acceptsDefault_iff_shape (read : DataType.parse text = .ok type) :
    AcceptsDefault text value ↔ type.shape.accepts value = true := by
  simp [AcceptsDefault, value_checkType_string read, checkDefault, AttributeType.acceptsValue,
    AttributeType.valueShapes, AttributeType.types]

private theorem acceptsBound_iff_shape (read : DataType.parse text = .ok type) :
    AcceptsBound text value ↔ type.shape.ofBound.accepts value = true := by
  simp [AcceptsBound, value_checkType_string read, checkBound, AttributeType.acceptsBound,
    AttributeType.boundShapes, AttributeType.types]

/-- If a text with brackets behind it spells a type, so does the text. Then the defaults of the one
are the lists of defaults of the other, and the bounds of the one are the defaults of the other. For
any type that is spelled without brackets at the end, bounds and defaults are the same. -/
theorem list_types_hold_lists :
    (∀ (text : String) (listed : DataType), DataType.parse (text ++ "[]") = .ok listed →
      (∃ type, DataType.parse text = .ok type) ∧ ∀ value,
        (AcceptsDefault (text ++ "[]") value ↔
          ∃ items, value = .array items ∧ ∀ item ∈ items, AcceptsDefault text item) ∧
        (AcceptsBound (text ++ "[]") value ↔ AcceptsDefault text value)) ∧
    ∀ (text : String) (type : DataType), DataType.parse text = .ok type →
      (∀ head, text ≠ head ++ "[]") → ∀ value,
        (AcceptsBound text value ↔ AcceptsDefault text value) := by
  constructor
  · intro text listed read
    obtain ⟨element, legal, rfl, spelled⟩ := DataType.exists_element_of_parse read
    have readElement : DataType.parse text = .ok (.single element) :=
      DataType.parse_eq_ok_iff.mpr spelled
    have shape : (DataType.list element legal).shape = .list element.shape := rfl
    have elementShape : (DataType.single element).shape = element.shape := rfl
    refine ⟨⟨_, readElement⟩, fun value => ⟨?_, ?_⟩⟩
    · simp only [acceptsDefault_iff_shape read, acceptsDefault_iff_shape readElement, shape,
        elementShape, Shape.accepts_list_iff]
    · rw [acceptsBound_iff_shape read, acceptsDefault_iff_shape readElement, shape, elementShape,
        Shape.ofBound]
  · intro text type read plain value
    have noList := DataType.element?_eq_none read plain
    rw [acceptsBound_iff_shape read, acceptsDefault_iff_shape read, DataType.ofBound_shape noList]

def unitRows : Json :=
  .array [.array [.ofNat 1, .ofNat 0], .array [.ofNat 0, .ofNat 1]]

def flatUnit : Json := .array [.ofNat 1, .ofNat 0, .ofNat 0, .ofNat 1]

def matrixType : DataType := .single (.role (.numeric ⟨.matrix, none, 2, rfl⟩))

def matrixListType : DataType := .list (.role (.numeric ⟨.matrix, none, 2, rfl⟩)) rfl

theorem matrixList_holds_matrices :
    DataType.parse ("matrixd[2]" ++ "[]") = .ok matrixListType ∧
      AcceptsDefault ("matrixd[2]" ++ "[]") (.array [unitRows, flatUnit]) ∧
      AcceptsBound ("matrixd[2]" ++ "[]") flatUnit ∧
      DataType.parse "matrixd[2]" = .ok matrixType ∧ (∀ head, "matrixd[2]" ≠ head ++ "[]") ∧
      AcceptsBound "matrixd[2]" unitRows := by
  have readList : DataType.parse ("matrixd[2]" ++ "[]") = .ok matrixListType :=
    DataType.parse_eq_ok_iff.mpr (by decide)
  have read : DataType.parse "matrixd[2]" = .ok matrixType :=
    DataType.parse_eq_ok_iff.mpr (by decide)
  have plain : ∀ head, "matrixd[2]" ≠ head ++ "[]" := by
    intro head same
    have bracketed := DataType.listHead?_eq_some_iff.mpr same
    have unbracketed : DataType.listHead? "matrixd[2]" = none := by decide
    rw [unbracketed] at bracketed
    cases bracketed
  have rows : AcceptsDefault "matrixd[2]" unitRows := (acceptsDefault_iff_shape read).mpr rfl
  have flat : AcceptsDefault "matrixd[2]" flatUnit := (acceptsDefault_iff_shape read).mpr rfl
  obtain ⟨listed, unlisted⟩ := list_types_hold_lists
  obtain ⟨-, each⟩ := listed "matrixd[2]" matrixListType readList
  have both : ∀ item ∈ [unitRows, flatUnit], AcceptsDefault "matrixd[2]" item := by
    simp [rows, flat]
  exact ⟨readList, (each _).1.mpr ⟨_, rfl, both⟩, (each flatUnit).2.mpr flat, read, plain,
    (unlisted _ matrixType read plain unitRows).mpr rows⟩

end Attribute

end NodeDescriptor
