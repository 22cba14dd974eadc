import NodeDescriptor.Proofs.DataType.Parsing

/-!
# The order of trial

Every recognizer of the grammar reads the types of one production. A type is made by at most one
production, and no two types share a spelling, so no text is accepted by two recognizers besides
those of the markers; only the marker `token` is also a base type. Hence the order in which the
productions are tried after the markers has no influence on what is read.
-/

set_option autoImplicit false

namespace NodeDescriptor

/-- The productions of the grammar besides the markers. -/
inductive Production where
  | list (form : ElementForm)
  | single (form : ElementForm)
  | group
  deriving DecidableEq

namespace Production

def all : List Production :=
  [.list .tuple, .list .base, .list .role, .single .tuple, .single .base, .single .role, .group]

/-- The recognizer of the elements that are made by a production. -/
def element? : ElementForm → String → Option Element
  | .base => DataType.baseElement?
  | .tuple => DataType.tupleElement?
  | .role => DataType.roleElement?

/-- The recognizer of the types that are made by a production. -/
def type? : Production → String → Option DataType
  | .list form => DataType.listOf? (element? form)
  | .single form => DataType.singleOf? (element? form)
  | .group => DataType.group?

end Production

namespace DataType

/-- The production that a type is made by, if it is not only a marker. -/
def production? : DataType → Option Production
  | .single element => some (.single element.form)
  | .list element _ => some (.list element.form)
  | .group _ => some .group
  | .bundle | .target | .any => none

/-! ## What the recognizers read -/

private theorem productions_eq_map : productions = Production.all.map Production.type? := rfl

private theorem reads_element (form : ElementForm) :
    Reads (Production.element? form) Element.text (·.form = form) := by
  cases form with
  | base => exact reads_baseElement
  | tuple => exact reads_tupleElement
  | role => exact reads_roleElement

private theorem production?_eq_list_iff {type : DataType} {form : ElementForm} :
    type.production? = some (.list form) ↔
      ∃ element legal, element.form = form ∧ type = .list element legal := by
  cases type with
  | list element legal => simp [production?, legal]
  | _ => simp [production?]

private theorem production?_eq_single_iff {type : DataType} {form : ElementForm} :
    type.production? = some (.single form) ↔
      ∃ element, element.form = form ∧ type = .single element := by
  cases type with
  | single element => simp [production?]
  | _ => simp [production?]

private theorem production?_eq_group_iff {type : DataType} :
    type.production? = some .group ↔ ∃ union, type = .group union := by
  cases type <;> simp [production?]

/-- The recognizer of a production reads the spellings of the types that are made by it. -/
theorem reads_production (production : Production) :
    Reads production.type? text (·.production? = some production) := by
  intro written type
  cases production with
  | list form =>
      exact (reads_listOf (reads_element form)).trans (and_congr_left' production?_eq_list_iff.symm)
  | single form =>
      exact (reads_singleOf (reads_element form)).trans
        (and_congr_left' production?_eq_single_iff.symm)
  | group => exact reads_group.trans (and_congr_left' production?_eq_group_iff.symm)

/-! ## Acceptance -/

def Accepts (recognizer : String → Option DataType) (written : String) : Prop :=
  ∃ type, recognizer written = some type

variable {written : String}

private theorem eq_of_accepts {one other : Production} (first : Accepts one.type? written)
    (second : Accepts other.type? written) : one = other := by
  obtain ⟨type, read⟩ := first
  obtain ⟨same, readSame⟩ := second
  obtain ⟨made, spelled⟩ := (reads_production one).mp read
  obtain ⟨madeSame, spelledSame⟩ := (reads_production other).mp readSame
  obtain rfl := text_injective (spelled.trans spelledSame.symm)
  exact Option.some.inj (made.symm.trans madeSame)

/-- The only marker that is made by a production as well is a base type. -/
private theorem eq_token_of_accepts {production : Production} (marker : Accepts marker? written)
    (accepted : Accepts production.type? written) : written = "token" := by
  obtain ⟨type, read⟩ := marker
  obtain ⟨same, readSame⟩ := accepted
  obtain ⟨listed, spelled⟩ := reads_marker.mp read
  obtain ⟨made, spelledSame⟩ := (reads_production production).mp readSame
  obtain rfl := text_injective (spelled.trans spelledSame.symm)
  simp only [List.mem_cons, List.not_mem_nil, or_false] at listed
  rcases listed with rfl | rfl | rfl | rfl
  · cases made
  · cases made
  · cases made
  · exact spelled.symm

private theorem pairwise_productions : productions.Pairwise fun one other =>
    ¬(Accepts one written ∧ Accepts other written) := by
  have distinct : Production.all.Nodup := by decide
  rw [productions_eq_map, List.pairwise_map]
  exact distinct.imp fun different both => different (eq_of_accepts both.1 both.2)

/-! ## Trial -/

/-- Read a type with the first of some recognizers that accepts the text. -/
def parseBy (recognizers : List (String → Option DataType)) (written : String) :
    Except UnknownType DataType :=
  match firstAccepted? recognizers written with
  | some type => .ok type
  | none => .error ⟨written⟩

/-- The reader tries fewer productions, but it reads as if it tried all of them in order. -/
theorem parse_eq_parseBy : parse written = parseBy (marker? :: productions) written := by
  unfold parseBy
  cases tried : firstAccepted? (marker? :: productions) written with
  | some type => exact parse_eq_ok_iff.mpr (firstAccepted?_iff_text.mp tried)
  | none =>
      refine parse_eq_error_iff.mpr ⟨rfl, fun type spelled => ?_⟩
      rw [firstAccepted?_iff_text.mpr spelled] at tried
      cases tried

private theorem firstAccepted?_perm {recognizers : List (String → Option DataType)}
    (order : recognizers.Perm productions) :
    firstAccepted? (marker? :: recognizers) written =
      firstAccepted? (marker? :: productions) written := by
  have faithful : ∀ recognizer ∈ marker? :: recognizers, ∀ written type,
      recognizer written = some type → type.text = written := fun recognizer member =>
    faithful_recognizers recognizer ((order.cons marker?).mem_iff.mp member)
  apply Option.ext
  intro type
  rw [firstAccepted?_eq_some_iff faithful, firstAccepted?_eq_some_iff faithful_recognizers]
  simp only [(order.cons marker?).mem_iff]

/-- No text but `token` is accepted by two recognizers, and `token` is accepted as a marker and as a
base type only. So whatever the order of the productions after the markers, the same is read of
every text, and the same texts are refused. -/
theorem recognizers_disjoint :
    (∀ written, written ≠ "token" → (marker? :: productions).Pairwise fun one other =>
        ¬(Accepts one written ∧ Accepts other written)) ∧
      (∀ written, productions.Pairwise fun one other =>
        ¬(Accepts one written ∧ Accepts other written)) ∧
      Accepts marker? "token" ∧ Accepts (singleOf? baseElement?) "token" ∧
      ∀ recognizers : List (String → Option DataType), recognizers.Perm productions →
        ∀ written, parseBy (marker? :: recognizers) written = parse written := by
  refine ⟨fun written other => List.pairwise_cons.mpr ⟨?_, pairwise_productions⟩,
    fun _ => pairwise_productions, ?_, ?_, ?_⟩
  · rw [productions_eq_map, List.forall_mem_map]
    intro production _ both
    exact other (eq_token_of_accepts both.1 both.2)
  · exact ⟨.single (.base .token), by decide⟩
  · exact ⟨.single (.base .token), by decide⟩
  · intro recognizers order written
    rw [parse_eq_parseBy, parseBy, parseBy, firstAccepted?_perm order]

/-- With the productions in reverse order, lists of tuples are tried last and still read as such. -/
theorem reversed_productions_read :
    "half[3][]" ≠ "token" ∧
      ((marker? :: productions).Pairwise fun one other =>
        ¬(Accepts one "half[3][]" ∧ Accepts other "half[3][]")) ∧
      productions.reverse.Perm productions ∧
      parseBy (marker? :: productions.reverse) "half[3][]" =
        .ok (.list (.tuple .half 3 (by decide)) rfl) ∧
      parseBy (marker? :: productions.reverse) "half[3][][]" = .error ⟨"half[3][][]"⟩ := by
  obtain ⟨apart, -, -, -, order⟩ := recognizers_disjoint
  have reversed := productions.reverse_perm
  refine ⟨by decide, apart _ (by decide), reversed, ?_, ?_⟩
  · rw [order _ reversed]
    exact parse_eq_ok_iff.mpr (by decide)
  · rw [order _ reversed]
    decide

end DataType

end NodeDescriptor
