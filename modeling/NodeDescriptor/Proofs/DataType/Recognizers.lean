import NodeDescriptor.DataType.Parser
import NodeDescriptor.Proofs.DataType.Vocabulary
import NodeDescriptor.Proofs.Text.Split

/-!
# The productions of the type grammar

Each recognizer accepts exactly the spellings of one kind of type: it answers a type if and only
if the type is of that kind and the text is its spelling. `Reads` states this for a recognizer,
and the sections below prove it production by production, from the text outside in.
-/

set_option autoImplicit false

namespace NodeDescriptor

/-! ## Brackets -/

namespace Digits

private theorem toString_of_small :
    ∀ value < 10, toString value = String.singleton (Char.ofNat (48 + value)) := by decide

private theorem value?_eq_some_iff {c : Char} {value : Nat} :
    value? c = some value ↔ value < 10 ∧ toString value = String.singleton c := by
  constructor
  · intro read
    unfold value? at read
    split at read
    · rename_i bounds
      cases read
      have zero : '0'.toNat = 48 := rfl
      have lower : 48 ≤ c.toNat := bounds.1
      have upper : c.toNat ≤ 57 := bounds.2
      have small : c.toNat - '0'.toNat < 10 := by omega
      have code : 48 + (c.toNat - '0'.toNat) = c.toNat := by omega
      exact ⟨small, by rw [toString_of_small _ small, code, Char.ofNat_toNat]⟩
    · cases read
  · intro spelled
    obtain ⟨small, spelled⟩ := spelled
    rw [toString_of_small value small, String.singleton_inj] at spelled
    have readBack : ∀ digit < 10, value? (Char.ofNat (48 + digit)) = some digit := by decide
    exact spelled ▸ readBack value small

end Digits

namespace DataType

private theorem sized?_eq_some_iff {text head : String} {size : Nat} :
    sized? text = some (head, size) ↔
      head ≠ "" ∧ size < 10 ∧ text = head ++ "[" ++ toString size ++ "]" := by
  constructor
  · intro read
    unfold sized? at read
    split at read
    · rename_i digit front shape
      split at read
      · cases read
      · rename_i filled
        obtain ⟨value, digitRead, pair⟩ := Option.map_eq_some_iff.mp read
        cases pair
        obtain ⟨small, spelled⟩ := Digits.value?_eq_some_iff.mp digitRead
        have nonempty : String.ofList front.reverse ≠ "" := by
          intro empty
          have nothing : front = [] := by simpa using congrArg String.toList empty
          exact filled (by rw [nothing]; rfl)
        have spelling := congrArg List.reverse shape
        rw [List.reverse_reverse] at spelling
        refine ⟨nonempty, small, ?_⟩
        rw [← String.toList_inj, spelling, spelled]
        simp
    · cases read
  · intro form
    obtain ⟨nonempty, small, rfl⟩ := form
    have spelled := Digits.toString_of_small size small
    have digitRead := Digits.value?_eq_some_iff.mpr ⟨small, spelled⟩
    rw [spelled]
    simp [sized?, digitRead, nonempty]

theorem listHead?_eq_some_iff {text head : String} :
    listHead? text = some head ↔ text = head ++ "[]" := by
  constructor
  · intro read
    unfold listHead? at read
    split at read
    · rename_i front shape
      cases read
      have spelling := congrArg List.reverse shape
      rw [List.reverse_reverse] at spelling
      rw [← String.toList_inj, spelling]
      simp
    · cases read
  · intro same
    cases same
    simp [listHead?]

/-! ## Recognizers and kinds -/

/-- A recognizer accepts exactly the spellings of the values of a kind. -/
def Reads {α : Type} (recognizer : String → Option α) (text : α → String) (kind : α → Prop) :
    Prop :=
  ∀ {written : String} {value : α}, recognizer written = some value ↔
    kind value ∧ text value = written

end DataType

/-- The productions that elements are made by. -/
inductive ElementForm where
  | base
  | tuple
  | role
  deriving DecidableEq

/-- The production that an element is made by. -/
def Element.form : Element → ElementForm
  | .base _ => .base
  | .tuple _ _ _ => .tuple
  | .role _ => .role

namespace DataType

/-! ## Base types and tuples -/

theorem reads_baseElement : Reads baseElement? Element.text (·.form = .base) := by
  intro written element
  constructor
  · intro read
    obtain ⟨type, spelled, rfl⟩ := Option.map_eq_some_iff.mp read
    exact ⟨rfl, Keyword.ofWord?_eq_some_iff.mp spelled⟩
  · intro form
    obtain ⟨form, rfl⟩ := form
    cases element with
    | base type => simp [baseElement?, Element.text]
    | tuple type size legal => cases form
    | role meaning => cases form

private theorem tuple?_eq_some_iff {type : BaseType} {size : Nat} {element : Element} :
    Element.tuple? type size = some element ↔ ∃ legal, element = .tuple type size legal := by
  unfold Element.tuple?
  constructor
  · intro built
    split at built
    · rename_i legal
      cases built
      exact ⟨legal, rfl⟩
    · cases built
  · intro legal
    obtain ⟨legal, rfl⟩ := legal
    rw [dif_pos legal]

private theorem small_of_tupleSize {size : Nat} (legal : tupleSizes.contains size = true) :
    size < 10 := by
  simp only [tupleSizes, List.contains_iff_mem, List.mem_cons, List.not_mem_nil, or_false] at legal
  omega

theorem reads_tupleElement : Reads tupleElement? Element.text (·.form = .tuple) := by
  intro written element
  constructor
  · intro read
    obtain ⟨⟨head, size⟩, cut, rest⟩ := Option.bind_eq_some_iff.mp read
    obtain ⟨type, spelled, built⟩ := Option.bind_eq_some_iff.mp rest
    obtain ⟨legal, rfl⟩ := tuple?_eq_some_iff.mp built
    obtain ⟨-, -, rfl⟩ := sized?_eq_some_iff.mp cut
    exact ⟨rfl, by rw [Element.text, Keyword.ofWord?_eq_some_iff.mp spelled]⟩
  · intro form
    obtain ⟨form, rfl⟩ := form
    cases element with
    | base type => cases form
    | role meaning => cases form
    | tuple type size legal =>
        have named : Keyword.word type ≠ "" := by cases type <;> decide
        have cut : sized? (Element.tuple type size legal).text = some (Keyword.word type, size) :=
          sized?_eq_some_iff.mpr ⟨named, small_of_tupleSize legal.2, rfl⟩
        simp only [tupleElement?, cut, Option.bind_some, Keyword.ofWord?_word]
        exact tuple?_eq_some_iff.mpr ⟨legal, rfl⟩

/-! ## Roles -/

/-- What a numeric role begins with, before its arity. -/
def prefixText (kind : RoleKind) (precision : Option Precision) : String :=
  Keyword.word kind ++ (precision.map fun precision => precision.letter.toString).getD ""

private theorem ofLetter?_eq_some_iff {c : Char} {precision : Precision} :
    Precision.ofLetter? c = some precision ↔ precision.letter = c := by
  constructor
  · intro found
    simpa using List.find?_some found
  · intro same
    cases same
    cases precision <;> decide

private theorem prefixText_of_rolePrefix? {head : String} {kind : RoleKind}
    {precision : Option Precision} (read : rolePrefix? head = some (kind, precision)) :
    prefixText kind precision = head := by
  unfold rolePrefix? at read
  split at read
  · rename_i found
    cases read
    simpa [prefixText] using Keyword.ofWord?_eq_some_iff.mp found
  · split at read
    · cases read
    · rename_i letter front shape
      obtain ⟨found, letterRead, rest⟩ := Option.bind_eq_some_iff.mp read
      obtain ⟨other, kindRead, pair⟩ := Option.map_eq_some_iff.mp rest
      cases pair
      have spelling := congrArg List.reverse shape
      rw [List.reverse_reverse] at spelling
      have front := congrArg String.toList (Keyword.ofWord?_eq_some_iff.mp kindRead)
      rw [← String.toList_inj, spelling, prefixText]
      simpa [ofLetter?_eq_some_iff.mp letterRead] using front

/-- A kind with a precision letter is never a kind of its own, so the letter is found. -/
private theorem rolePrefix?_prefixText (kind : RoleKind) (precision : Option Precision) :
    rolePrefix? (prefixText kind precision) = some (kind, precision) := by
  cases precision with
  | none => simp [prefixText, rolePrefix?]
  | some precision =>
      have noKind :
          (Keyword.ofWord? (prefixText kind (some precision)) : Option RoleKind) = none := by
        cases kind <;> cases precision <;> decide
      have letters : (prefixText kind (some precision)).toList.reverse =
          precision.letter :: (Keyword.word kind).toList.reverse := by
        simp [prefixText]
      have letterRead : Precision.ofLetter? precision.letter = some precision :=
        ofLetter?_eq_some_iff.mpr rfl
      rw [rolePrefix?, noKind, letters]
      simp [letterRead]

private theorem sized?_numericRole (role : NumericRole) :
    sized? role.text = some (prefixText role.kind role.precision, role.arity) := by
  have legal := role.legal
  simp only [RoleKind.admits, Bool.and_eq_true, List.contains_iff_mem] at legal
  have small : role.arity < 10 := by
    have bounded : ∀ arity ∈ role.kind.arities, arity < 10 := by
      cases role.kind <;> decide
    exact bounded _ legal.2
  have named : prefixText role.kind role.precision ≠ "" := by
    cases role.kind <;> simp [prefixText, Keyword.word]
  exact sized?_eq_some_iff.mpr ⟨named, small, rfl⟩

theorem reads_roleElement : Reads roleElement? Element.text (·.form = .role) := by
  intro written element
  constructor
  · intro read
    unfold roleElement? at read
    iterate 3
      split at read
      · rename_i same
        cases read
        exact ⟨rfl, same.symm⟩
    obtain ⟨⟨head, arity⟩, cut, rest⟩ := Option.bind_eq_some_iff.mp read
    obtain ⟨⟨kind, precision⟩, front, built⟩ := Option.bind_eq_some_iff.mp rest
    obtain ⟨role, parts, rfl⟩ := Option.map_eq_some_iff.mp built
    obtain ⟨rfl, rfl, rfl⟩ := NumericRole.ofParts?_eq_some_iff.mp parts
    obtain ⟨-, -, rfl⟩ := sized?_eq_some_iff.mp cut
    rw [← prefixText_of_rolePrefix? front]
    exact ⟨rfl, rfl⟩
  · intro form
    obtain ⟨form, rfl⟩ := form
    cases element with
    | base type => cases form
    | tuple type size legal => cases form
    | role meaning =>
        cases meaning with
        | execute => decide
        | objectId => decide
        | timecode => decide
        | numeric role =>
            have cut := sized?_numericRole role
            have bracketed : ∀ word, sized? word = none → role.text ≠ word := by
              intro word uncut same
              rw [same, uncut] at cut
              cases cut
            have notExecute := bracketed "execute" (by decide)
            have notObjectId := bracketed "objectId" (by decide)
            have notTimecode := bracketed "timecode" (by decide)
            simp [roleElement?, Element.text, Role.text, notExecute, notObjectId, notTimecode, cut,
              rolePrefix?_prefixText, NumericRole.ofParts?_self]

/-! ## Types -/

/-- The spellings of a marker are those of the four types that have one. -/
theorem reads_marker :
    Reads marker? text (· ∈ [.bundle, .target, .any, .single (.base .token)]) := by
  intro written type
  constructor
  · intro read
    unfold marker? at read
    iterate 4
      split at read
      · rename_i same
        cases read
        exact ⟨by simp, same.symm⟩
    cases read
  · intro marker
    obtain ⟨marker, rfl⟩ := marker
    simp only [List.mem_cons, List.not_mem_nil, or_false] at marker
    rcases marker with rfl | rfl | rfl | rfl <;> decide

theorem reads_singleOf {element? : String → Option Element} {kind : Element → Prop}
    (reads : Reads element? Element.text kind) :
    Reads (singleOf? element?) text
      fun type => ∃ element, kind element ∧ type = .single element := by
  intro written type
  constructor
  · intro read
    obtain ⟨element, found, rfl⟩ := Option.map_eq_some_iff.mp read
    obtain ⟨member, spelled⟩ := reads.mp found
    exact ⟨⟨element, member, rfl⟩, spelled⟩
  · intro spelled
    obtain ⟨⟨element, member, rfl⟩, spelled⟩ := spelled
    exact Option.map_eq_some_iff.mpr ⟨element, reads.mpr ⟨member, spelled⟩, rfl⟩

theorem list?_eq_some_iff {element : Element} {type : DataType} :
    list? element = some type ↔ ∃ legal, type = .list element legal := by
  unfold list?
  constructor
  · intro built
    split at built
    · rename_i legal
      cases built
      exact ⟨legal, rfl⟩
    · cases built
  · intro legal
    obtain ⟨legal, rfl⟩ := legal
    rw [dif_pos legal]

theorem reads_listOf {element? : String → Option Element} {kind : Element → Prop}
    (reads : Reads element? Element.text kind) :
    Reads (listOf? element?) text fun type =>
      ∃ element legal, kind element ∧ type = .list element legal := by
  intro written type
  constructor
  · intro read
    obtain ⟨head, cut, rest⟩ := Option.bind_eq_some_iff.mp read
    obtain ⟨element, found, built⟩ := Option.bind_eq_some_iff.mp rest
    obtain ⟨legal, rfl⟩ := list?_eq_some_iff.mp built
    obtain ⟨member, spelled⟩ := reads.mp found
    exact ⟨⟨element, legal, member, rfl⟩, by
      rw [listHead?_eq_some_iff.mp cut, ← spelled, text]⟩
  · intro spelled
    obtain ⟨⟨element, legal, member, rfl⟩, spelled⟩ := spelled
    refine Option.bind_eq_some_iff.mpr ⟨element.text, ?_, ?_⟩
    · exact listHead?_eq_some_iff.mpr spelled.symm
    · exact Option.bind_eq_some_iff.mpr
        ⟨element, reads.mpr ⟨member, rfl⟩, list?_eq_some_iff.mpr ⟨legal, rfl⟩⟩

/-! ## Union groups -/

private theorem text_of_namedGroup? {written : String} {union : UnionGroup}
    (read : namedGroup? written = some union) : union.text = written := by
  unfold namedGroup? at read
  iterate 7
    split at read
    · rename_i same
      cases read
      exact same.symm
  cases read

private theorem text_of_familyGroup? {written : String} {union : UnionGroup}
    (read : familyGroup? written = some union) : union.text = written := by
  obtain ⟨⟨stem, ending⟩, cut, rest⟩ := Option.bind_eq_some_iff.mp read
  obtain ⟨family, stemRead, rest⟩ := Option.bind_eq_some_iff.mp rest
  obtain ⟨form, endingRead, rfl⟩ := Option.map_eq_some_iff.mp rest
  obtain ⟨-, spelling⟩ := Text.splitFirst?_eq_some_iff.mp cut
  rw [UnionGroup.text, Keyword.ofWord?_eq_some_iff.mp stemRead,
    Keyword.ofWord?_eq_some_iff.mp endingRead, ← String.toList_inj, spelling]
  simp

theorem reads_group : Reads group? text fun type => ∃ union, type = .group union := by
  intro written type
  constructor
  · intro read
    obtain ⟨union, found, rfl⟩ := Option.map_eq_some_iff.mp read
    refine ⟨⟨union, rfl⟩, ?_⟩
    rcases Option.or_eq_some_iff.mp found with named | ⟨-, formed⟩
    · exact text_of_namedGroup? named
    · exact text_of_familyGroup? formed
  · intro union
    obtain ⟨⟨union, rfl⟩, rfl⟩ := union
    cases union with
    | formed family form => cases family <;> cases form <;> decide
    | whole family => cases family <;> decide
    | matrices | arrayElements | arrays | strings => decide

/-! ## Empty brackets -/

/-- What the values of a list type are lists of. -/
def element? : DataType → Option Element
  | .list element _ => some element
  | .single _ | .bundle | .target | .any | .group _ => none

private theorem sized?_append_brackets (text : String) : sized? (text ++ "[]") = none := by
  have reversed : (text ++ "[]").toList.reverse = ']' :: '[' :: text.toList.reverse := by simp
  -- Between the brackets of a size there is a digit, and a bracket is none.
  have unread : Digits.value? '[' = none := by decide
  rw [sized?, reversed]
  split
  · rename_i digit front shape
    have bracket : '[' = digit := (List.cons.inj (List.cons.inj shape).2).1
    rw [← bracket, unread, Option.map_none, ite_self]
  · rfl

private theorem listHead?_of_sized {text : String} {parts : String × Nat}
    (sized : sized? text = some parts) : listHead? text = none := by
  refine Option.eq_none_iff_forall_ne_some.mpr fun head bracketed => ?_
  rw [listHead?_eq_some_iff.mp bracketed, sized?_append_brackets] at sized
  cases sized

private theorem listHead?_text_element (element : Element) : listHead? element.text = none := by
  cases element with
  | base type => cases type <;> decide
  | tuple type size legal =>
      have named : Keyword.word type ≠ "" := by cases type <;> decide
      exact listHead?_of_sized (sized?_eq_some_iff.mpr ⟨named, small_of_tupleSize legal.2, rfl⟩)
  | role meaning =>
      cases meaning with
      | numeric role => exact listHead?_of_sized (sized?_numericRole role)
      | execute | objectId | timecode => decide

/-- Of all types only list types are spelled with empty brackets at the end, and what stands before
the brackets is the spelling of the element. -/
theorem listHead?_text (type : DataType) :
    listHead? type.text = type.element?.map Element.text := by
  cases type with
  | single element => exact listHead?_text_element element
  | list element legal => exact listHead?_eq_some_iff.mpr rfl
  | bundle | target | any => decide
  | group union =>
      cases union with
      | formed family form => cases family <;> cases form <;> decide
      | whole family => cases family <;> decide
      | matrices | arrayElements | arrays | strings => decide

/-! ## Reading by trial -/

/-- The answer of the first recognizer that accepts is the answer of any that does, as long as
recognizers answer with types that are spelled as the text: no two types are. So the order in
which recognizers are tried has no influence. -/
theorem firstAccepted?_eq_some_iff {recognizers : List (String → Option DataType)}
    (faithful : ∀ recognizer ∈ recognizers, ∀ written type,
      recognizer written = some type → type.text = written)
    {written : String} {type : DataType} :
    firstAccepted? recognizers written = some type ↔
      ∃ recognizer ∈ recognizers, recognizer written = some type := by
  constructor
  · intro read
    exact List.exists_of_findSome?_eq_some read
  · intro read
    obtain ⟨recognizer, member, read⟩ := read
    cases first : firstAccepted? recognizers written with
    | none =>
        have refused := List.findSome?_eq_none_iff.mp first recognizer member
        rw [read] at refused
        cases refused
    | some other =>
        obtain ⟨earlier, earlierMember, earlierRead⟩ := List.exists_of_findSome?_eq_some first
        have same : other = type := text_injective
          ((faithful earlier earlierMember _ _ earlierRead).trans
            (faithful recognizer member _ _ read).symm)
        rw [same]

/-- The kinds of types that the productions besides the markers read, in the same order. -/
def productionKinds : List (DataType → Prop) :=
  [fun type => ∃ element legal, element.form = .tuple ∧ type = .list element legal,
    fun type => ∃ element legal, element.form = .base ∧ type = .list element legal,
    fun type => ∃ element legal, element.form = .role ∧ type = .list element legal,
    fun type => ∃ element, element.form = .tuple ∧ type = .single element,
    fun type => ∃ element, element.form = .base ∧ type = .single element,
    fun type => ∃ element, element.form = .role ∧ type = .single element,
    fun type => ∃ union, type = .group union]

theorem reads_productions :
    List.Forall₂ (fun recognizer kind => Reads recognizer text kind) productions
      productionKinds := by
  simp only [productions, productionKinds, List.forall₂_cons, List.forall₂_nil_left_iff, and_true]
  exact ⟨reads_listOf reads_tupleElement, reads_listOf reads_baseElement,
    reads_listOf reads_roleElement, reads_singleOf reads_tupleElement,
    reads_singleOf reads_baseElement, reads_singleOf reads_roleElement, reads_group⟩

end DataType

end NodeDescriptor
