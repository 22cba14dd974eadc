import NodeDescriptor.Proofs.DataType.Recognizers

/-!
# Reading and spelling types

Reading a type is the inverse of spelling it. The two are defined apart: the reader tries
productions, while the vocabulary is listed family by family. They agree on every text, and a text
that spells no type is refused by name. So the reader, which tries only the productions that the end
of a text leaves, reads what the first of all productions that accepts the text would.
-/

set_option autoImplicit false

namespace NodeDescriptor.DataType

theorem faithful_recognizers :
    ∀ recognizer ∈ marker? :: productions, ∀ written type,
      recognizer written = some type → type.text = written := by
  intro recognizer member written type read
  rcases List.mem_cons.mp member with rfl | production
  · exact (reads_marker.mp read).2
  · obtain ⟨position, bound, rfl⟩ := List.mem_iff_getElem.mp production
    have kinds := reads_productions.length_eq
    exact ((reads_productions.get bound (kinds ▸ bound)).mp read).2

/-- Every type is read by the production that it is made by. -/
theorem exists_recognizer (type : DataType) :
    ∃ recognizer ∈ marker? :: productions, recognizer type.text = some type := by
  cases type with
  | bundle => exact ⟨marker?, by simp, reads_marker.mpr ⟨by simp, rfl⟩⟩
  | target => exact ⟨marker?, by simp, reads_marker.mpr ⟨by simp, rfl⟩⟩
  | any => exact ⟨marker?, by simp, reads_marker.mpr ⟨by simp, rfl⟩⟩
  | group union => exact ⟨group?, by simp [productions], reads_group.mpr ⟨⟨union, rfl⟩, rfl⟩⟩
  | single element =>
      cases form : element.form with
      | base =>
          exact ⟨singleOf? baseElement?, by simp [productions],
            (reads_singleOf reads_baseElement).mpr ⟨⟨element, form, rfl⟩, rfl⟩⟩
      | tuple =>
          exact ⟨singleOf? tupleElement?, by simp [productions],
            (reads_singleOf reads_tupleElement).mpr ⟨⟨element, form, rfl⟩, rfl⟩⟩
      | role =>
          exact ⟨singleOf? roleElement?, by simp [productions],
            (reads_singleOf reads_roleElement).mpr ⟨⟨element, form, rfl⟩, rfl⟩⟩
  | list element legal =>
      cases form : element.form with
      | base =>
          exact ⟨listOf? baseElement?, by simp [productions],
            (reads_listOf reads_baseElement).mpr ⟨⟨element, legal, form, rfl⟩, rfl⟩⟩
      | tuple =>
          exact ⟨listOf? tupleElement?, by simp [productions],
            (reads_listOf reads_tupleElement).mpr ⟨⟨element, legal, form, rfl⟩, rfl⟩⟩
      | role =>
          exact ⟨listOf? roleElement?, by simp [productions],
            (reads_listOf reads_roleElement).mpr ⟨⟨element, legal, form, rfl⟩, rfl⟩⟩

theorem firstAccepted?_iff_text {written : String} {type : DataType} :
    firstAccepted? (marker? :: productions) written = some type ↔ type.text = written := by
  rw [firstAccepted?_eq_some_iff faithful_recognizers]
  constructor
  · intro read
    obtain ⟨recognizer, member, read⟩ := read
    exact faithful_recognizers recognizer member written type read
  · intro same
    cases same
    exact exists_recognizer type

/-! ## Reading production by production -/

private theorem accept_eq_ok_iff {written : String} {read : Option DataType} {type : DataType} :
    accept written read = .ok type ↔ read = some type := by
  cases read <;> simp [accept]

private theorem accept_eq_error {written : String} {read : Option DataType}
    {unknown : UnknownType} (refused : accept written read = .error unknown) :
    unknown = ⟨written⟩ := by
  cases read with
  | some type => cases refused
  | none =>
      cases refused
      rfl

/-- The spelling of an element is read by the recognizer of its form and by no other. -/
private theorem recognizer_text {element? : String → Option Element} {form : ElementForm}
    (reads : Reads element? Element.text (·.form = form)) (element : Element) :
    element? element.text = if element.form = form then some element else none := by
  have distinct {other : Element} (same : other.text = element.text) : other = element := by
    have spelled : (single other).text = (single element).text := same
    cases text_injective spelled
    rfl
  by_cases made : element.form = form
  · rw [if_pos made]
    exact reads.mpr ⟨made, rfl⟩
  · rw [if_neg made]
    refine Option.eq_none_iff_forall_ne_some.mpr fun other read => ?_
    obtain ⟨madeOther, same⟩ := reads.mp read
    exact made (distinct same ▸ madeOther)

private theorem parseList_text (written : String) (element : Element) :
    parseList written element.text = accept written (list? element) := by
  rw [parseList, recognizer_text reads_tupleElement, recognizer_text reads_baseElement,
    recognizer_text reads_roleElement]
  cases element.form <;> simp

private theorem parseList_eq_ok_iff {written head : String} {type : DataType} :
    parseList written head = .ok type ↔
      ∃ element legal, Element.text element = head ∧ type = .list element legal := by
  constructor
  · intro read
    have named : ∃ element, Element.text element = head := by
      unfold parseList at read
      split at read
      · next tuple found => exact ⟨tuple, (reads_tupleElement.mp found).2⟩
      · split at read
        · next base found => exact ⟨base, (reads_baseElement.mp found).2⟩
        · obtain ⟨role, found, -⟩ := Option.bind_eq_some_iff.mp (accept_eq_ok_iff.mp read)
          exact ⟨role, (reads_roleElement.mp found).2⟩
    obtain ⟨element, rfl⟩ := named
    rw [parseList_text, accept_eq_ok_iff, list?_eq_some_iff] at read
    obtain ⟨legal, rfl⟩ := read
    exact ⟨element, legal, rfl, rfl⟩
  · rintro ⟨element, legal, rfl, rfl⟩
    rw [parseList_text, accept_eq_ok_iff, list?_eq_some_iff]
    exact ⟨legal, rfl⟩

private theorem text_of_parse {written : String} {type : DataType}
    (read : parse written = .ok type) : type.text = written := by
  unfold parse at read
  split at read
  · next marker found =>
      cases read
      exact (reads_marker.mp found).2
  · split at read
    · next head cut =>
        obtain ⟨element, legal, rfl, rfl⟩ := parseList_eq_ok_iff.mp read
        exact (listHead?_eq_some_iff.mp cut).symm
    · split at read
      · next tuple found =>
          cases read
          exact (reads_tupleElement.mp found).2
      · split at read
        · next base found =>
            cases read
            exact (reads_baseElement.mp found).2
        · split at read
          · next role found =>
              cases read
              exact (reads_roleElement.mp found).2
          · exact (reads_group.mp (accept_eq_ok_iff.mp read)).2

private theorem parse_of_text (type : DataType) : parse type.text = .ok type := by
  cases marked : marker? type.text with
  | some marker =>
      rw [parse, marked, text_injective (reads_marker.mp marked).2]
  | none =>
      rw [parse, marked, listHead?_text]
      cases type with
      | bundle | target | any => cases marked
      | list element legal => exact parseList_eq_ok_iff.mpr ⟨element, legal, rfl, rfl⟩
      | single element =>
          have spelled : (single element).text = element.text := rfl
          rw [spelled, recognizer_text reads_tupleElement, recognizer_text reads_baseElement,
            recognizer_text reads_roleElement]
          cases form : element.form <;> simp [DataType.element?]
      | group union =>
          have unread {recognizer? : String → Option Element} {form : ElementForm}
              (reads : Reads recognizer? Element.text (·.form = form)) :
              recognizer? (group union).text = none := by
            refine Option.eq_none_iff_forall_ne_some.mpr fun element read => ?_
            have same : (single element).text = (group union).text := (reads.mp read).2
            cases text_injective same
          have found : group? (group union).text = some (group union) :=
            reads_group.mpr ⟨⟨union, rfl⟩, rfl⟩
          simp only [DataType.element?, Option.map_none, unread reads_tupleElement,
            unread reads_baseElement, unread reads_roleElement, found, accept]

/-- A text is read as a type exactly when it is the spelling of the type. -/
theorem parse_eq_ok_iff {written : String} {type : DataType} :
    parse written = .ok type ↔ type.text = written :=
  ⟨text_of_parse, fun spelled => spelled ▸ parse_of_text type⟩

@[simp] theorem parse_text (type : DataType) : parse type.text = .ok type :=
  parse_eq_ok_iff.mpr rfl

private theorem eq_of_parse_eq_error {written : String} {unknown : UnknownType}
    (refused : parse written = .error unknown) : unknown = ⟨written⟩ := by
  unfold parse parseList at refused
  split at refused
  · cases refused
  · split at refused
    · split at refused
      · exact accept_eq_error refused
      · split at refused
        · exact accept_eq_error refused
        · exact accept_eq_error refused
    · split at refused
      · cases refused
      · split at refused
        · cases refused
        · split at refused
          · cases refused
          · exact accept_eq_error refused

/-- A refusal names the text, and it is the answer to every text that spells no type. -/
theorem parse_eq_error_iff {written : String} {unknown : UnknownType} :
    parse written = .error unknown ↔
      unknown = ⟨written⟩ ∧ ∀ type : DataType, type.text ≠ written := by
  cases read : parse written with
  | ok type =>
      simp only [reduceCtorEq, false_iff, not_and, not_forall, not_not]
      exact fun _ => ⟨type, parse_eq_ok_iff.mp read⟩
  | error other =>
      have noType : ∀ type : DataType, type.text ≠ written := by
        intro type spelled
        rw [parse_eq_ok_iff.mpr spelled] at read
        cases read
      have named : other = ⟨written⟩ := eq_of_parse_eq_error read
      simp [named, noType, eq_comm]

/-- Reading accepts exactly the spellings of the listed types, each as the type that it spells;
any other text is refused with the text itself. No two listed types share a spelling. -/
theorem parse_exact :
    (∀ (written : String) (type : DataType), parse written = .ok type ↔
      (type ∈ concrete ∨ ∃ union ∈ UnionGroup.all, type = .group union) ∧ type.text = written) ∧
    (∀ (written : String) (unknown : UnknownType), parse written = .error unknown ↔
      unknown = ⟨written⟩ ∧
        ¬∃ type : DataType,
          (type ∈ concrete ∨ ∃ union ∈ UnionGroup.all, type = .group union) ∧
            type.text = written) ∧
    (vocabulary.map text).Nodup := by
  refine ⟨?_, ?_, nodup_texts⟩
  · intro written type
    rw [parse_eq_ok_iff]
    exact ⟨fun spelled => ⟨mem_concrete_or_group type, spelled⟩, fun listed => listed.2⟩
  · intro written unknown
    rw [parse_eq_error_iff]
    refine and_congr_right fun _ => ⟨?_, ?_⟩
    · intro none spelled
      obtain ⟨type, -, spelled⟩ := spelled
      exact none type spelled
    · intro unlisted type spelled
      exact unlisted ⟨type, mem_concrete_or_group type, spelled⟩

end NodeDescriptor.DataType
