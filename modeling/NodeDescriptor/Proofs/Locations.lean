import NodeDescriptor.Proofs.Paths

/-!
# The location that a text names

The text of a path can be read back. A key that is not empty and holds neither a point nor an
opening bracket ends where the next step begins, an index ends at its closing bracket, and the first
step shows by its first character what it is. So different steps from the document never have the
same text.
-/

set_option autoImplicit false

namespace NodeDescriptor

/-- Where two texts go on with marks that neither of them holds, what goes on is told from what
stands before. -/
private theorem append_inj_of_marks {α : Type} {mark : α → Prop} {first second after later : List α}
    (firstPlain : ∀ c ∈ first, ¬mark c) (secondPlain : ∀ c ∈ second, ¬mark c)
    (afterMarked : ∀ c ∈ after.head?, mark c) (laterMarked : ∀ c ∈ later.head?, mark c)
    (same : first ++ after = second ++ later) : first = second ∧ after = later := by
  rcases List.append_eq_append_iff.mp same with ⟨more, rfl, rfl⟩ | ⟨more, rfl, rfl⟩
  · cases more with
    | nil => simp
    | cons c rest => exact absurd (afterMarked c (by simp)) (secondPlain c (by simp))
  · cases more with
    | nil => simp
    | cons c rest => exact absurd (laterMarked c (by simp)) (firstPlain c (by simp))

namespace PathStep

/-- The step is an index, or a key that is not empty and in which no other step could begin. -/
def IsPlain : PathStep → Prop
  | .key name => name ≠ "" ∧ '.' ∉ name.toList ∧ '[' ∉ name.toList
  | .index _ => True

/-- The characters with which a step is told from what stands before it. -/
def IsMark (c : Char) : Prop := c = '.' ∨ c = '['

variable {name other : String} {position : Nat} {left right rest others : List PathStep}

private theorem IsPlain.not_isMark (plain : (key name).IsPlain) : ∀ c ∈ name.toList, ¬IsMark c := by
  obtain ⟨-, pointFree, bracketFree⟩ := plain
  rintro c listed (rfl | rfl)
  · exact pointFree listed
  · exact bracketFree listed

/-! ## Steps behind a place -/

private theorem toList_suffixes_key : (suffixes (key name :: rest)).toList =
    '.' :: (name.toList ++ (suffixes rest).toList) := by
  simp [suffixes, suffix]

private theorem toList_suffixes_index : (suffixes (index position :: rest)).toList =
    '[' :: ((toString position).toList ++ ']' :: (suffixes rest).toList) := by
  simp [suffixes, suffix]

private theorem isMark_of_head?_suffixes (steps : List PathStep) :
    ∀ c ∈ (suffixes steps).toList.head?, IsMark c := by
  cases steps with
  | nil => simp [suffixes]
  | cons step rest =>
      cases step with
      | key name =>
          rw [toList_suffixes_key]
          rintro c ⟨⟩
          exact .inl rfl
      | index position =>
          rw [toList_suffixes_index]
          rintro c ⟨⟩
          exact .inr rfl

private theorem key_inj (plain : (key name).IsPlain) (otherPlain : (key other).IsPlain)
    (same : name.toList ++ (suffixes rest).toList = other.toList ++ (suffixes others).toList) :
    name = other ∧ suffixes rest = suffixes others := by
  obtain ⟨sameName, sameRest⟩ := append_inj_of_marks plain.not_isMark otherPlain.not_isMark
    (isMark_of_head?_suffixes rest) (isMark_of_head?_suffixes others) same
  exact ⟨String.toList_inj.mp sameName, String.toList_inj.mp sameRest⟩

private theorem not_mem_toString (position : Nat) :
    ∀ c ∈ (toString position).toList, ¬(c = ']') := by
  rintro c listed rfl
  have digit : ']'.isDigit = true := by
    rw [Nat.toString_eq_repr, Nat.toList_repr] at listed
    exact Nat.isDigit_of_mem_toDigits (by decide) (by decide) listed
  exact absurd digit (by decide)

private theorem toString_injective {place : Nat}
    (same : (toString position).toList = (toString place).toList) : position = place := by
  rw [Nat.toString_eq_repr, Nat.toString_eq_repr, Nat.toList_repr, Nat.toList_repr] at same
  calc position
      = Nat.ofDigitChars 10 (Nat.toDigits 10 position) 0 := Nat.ofDigitChars_ten_toDigits.symm
    _ = Nat.ofDigitChars 10 (Nat.toDigits 10 place) 0 := by rw [same]
    _ = place := Nat.ofDigitChars_ten_toDigits

private theorem index_inj {after later : List Char} {place : Nat}
    (same : (toString position).toList ++ ']' :: after =
      (toString place).toList ++ ']' :: later) : position = place ∧ after = later := by
  obtain ⟨sameDigits, sameRest⟩ := append_inj_of_marks (not_mem_toString position)
    (not_mem_toString place) (by simp) (by simp) same
  exact ⟨toString_injective sameDigits, (List.cons.inj sameRest).2⟩

/-- Behind a place that has a text, plain steps are known by what they add to it. -/
theorem eq_of_suffixes_eq (leftPlain : ∀ step ∈ left, step.IsPlain)
    (rightPlain : ∀ step ∈ right, step.IsPlain) (same : suffixes left = suffixes right) :
    left = right := by
  -- The first character of each text tells whether its first step is a key or an index.
  induction left generalizing right with
  | nil =>
      cases right with
      | nil => rfl
      | cons step others => cases step <;> simp [suffixes, suffix] at same
  | cons step rest ih =>
      obtain ⟨stepPlain, restPlain⟩ := List.forall_mem_cons.mp leftPlain
      have sameList := congrArg String.toList same
      cases right with
      | nil => cases step <;> simp [suffixes, suffix] at same
      | cons last others =>
          obtain ⟨lastPlain, othersPlain⟩ := List.forall_mem_cons.mp rightPlain
          cases step with
          | key name =>
              cases last with
              | key other =>
                  rw [toList_suffixes_key, toList_suffixes_key] at sameList
                  obtain ⟨rfl, sameRest⟩ := key_inj stepPlain lastPlain (List.cons.inj sameList).2
                  rw [ih restPlain othersPlain sameRest]
              | index place => simp [toList_suffixes_key, toList_suffixes_index] at sameList
          | index position =>
              cases last with
              | key other => simp [toList_suffixes_key, toList_suffixes_index] at sameList
              | index place =>
                  rw [toList_suffixes_index, toList_suffixes_index] at sameList
                  obtain ⟨rfl, sameRest⟩ := index_inj (List.cons.inj sameList).2
                  rw [ih restPlain othersPlain (String.toList_inj.mp sameRest)]

end PathStep

/-! ## Steps from the document -/

namespace FieldPath

variable {name : String} {position : Nat} {left right rest : List PathStep}

/-- The path one step on. -/
def extend (path : FieldPath) : PathStep → FieldPath
  | .key name => path.key name
  | .index position => path.index position

/-- The path that steps lead to from the document, one after another. -/
def ofSteps (steps : List PathStep) : FieldPath := steps.foldl extend root

private theorem foldl_extend (path : FieldPath) (steps : List PathStep) :
    steps.foldl extend path = ⟨path.steps ++ steps⟩ := by
  induction steps generalizing path with
  | nil => rw [List.foldl_nil, List.append_nil]
  | cons step rest ih =>
      have stepped : (path.extend step).steps = path.steps ++ [step] := by cases step <;> rfl
      rw [List.foldl_cons, ih, stepped, List.append_assoc, List.singleton_append]

private theorem text_ofSteps_key (filled : name ≠ "") :
    (ofSteps (.key name :: rest)).text = name ++ PathStep.suffixes rest := by
  have onward := PathStep.foldl_append filled rest
  rw [ofSteps, foldl_extend]
  exact onward

/-- All that a first key lacks is the point before it. -/
private theorem point_text_ofSteps_key (filled : name ≠ "") :
    "." ++ (ofSteps (.key name :: rest)).text = PathStep.suffixes (.key name :: rest) := by
  rw [text_ofSteps_key filled, PathStep.suffixes, PathStep.suffix, String.append_assoc]

private theorem text_ofSteps_index :
    (ofSteps (.index position :: rest)).text = PathStep.suffixes (.index position :: rest) := by
  have filled : "" ++ "[" ++ toString position ++ "]" ≠ "" := by simp
  have onward := PathStep.foldl_append filled rest
  rw [ofSteps, foldl_extend, PathStep.suffixes, PathStep.suffix]
  rw [String.empty_append] at onward
  exact onward

/-- The first step of a text that begins with a bracket is an index, because no plain key does. -/
private theorem text_key_ne_text_index (plain : (PathStep.key name).IsPlain) (rest others) :
    (ofSteps (.key name :: rest)).text ≠ (ofSteps (.index position :: others)).text := by
  intro same
  obtain ⟨filled, -, bracketFree⟩ := plain
  rw [text_ofSteps_key filled, text_ofSteps_index] at same
  have sameList := congrArg String.toList same
  rw [String.toList_append, PathStep.toList_suffixes_index] at sameList
  cases characters : name.toList with
  | nil => exact filled (String.toList_eq_nil_iff.mp characters)
  | cons c others =>
      rw [characters, List.cons_append] at sameList
      rw [characters, (List.cons.inj sameList).1] at bracketFree
      exact bracketFree List.mem_cons_self

private theorem text_ofSteps_ne_empty {step : PathStep} (plain : step.IsPlain) :
    (ofSteps (step :: rest)).text ≠ "" := by
  cases step with
  | key name =>
      rw [text_ofSteps_key plain.1]
      exact fun empty => plain.1 (String.append_eq_empty_iff.mp empty).1
  | index position =>
      rw [text_ofSteps_index]
      simp [PathStep.suffixes, PathStep.suffix]

/-- Two lists of plain steps from the document that have the same text are the same. -/
theorem steps_identified (leftPlain : ∀ step ∈ left, step.IsPlain)
    (rightPlain : ∀ step ∈ right, step.IsPlain)
    (same : (ofSteps left).text = (ofSteps right).text) : left = right := by
  cases left with
  | nil =>
      cases right with
      | nil => rfl
      | cons last others =>
          exact absurd same.symm (text_ofSteps_ne_empty (rightPlain last List.mem_cons_self))
  | cons step rest =>
      have stepPlain := leftPlain step List.mem_cons_self
      cases right with
      | nil => exact absurd same (text_ofSteps_ne_empty stepPlain)
      | cons last others =>
          have lastPlain := rightPlain last List.mem_cons_self
          cases step with
          | key name =>
              cases last with
              | key other =>
                  have suffixes := congrArg ("." ++ ·) same
                  simp only [point_text_ofSteps_key stepPlain.1,
                    point_text_ofSteps_key lastPlain.1] at suffixes
                  exact PathStep.eq_of_suffixes_eq leftPlain rightPlain suffixes
              | index place => exact absurd same (text_key_ne_text_index stepPlain _ _)
          | index position =>
              cases last with
              | key other => exact absurd same.symm (text_key_ne_text_index lastPlain _ _)
              | index place =>
                  rw [text_ofSteps_index, text_ofSteps_index] at same
                  exact PathStep.eq_of_suffixes_eq leftPlain rightPlain same

/-- A key with a closing bracket is plain; indices stand at the document and next to each other. -/
theorem bracketedSteps_identified :
    (∀ step ∈ [PathStep.index 0, .key "a]", .index 12, .index 3], step.IsPlain) ∧
      (ofSteps [.index 0, .key "a]", .index 12, .index 3]).text = "[0].a][12][3]" ∧
      [PathStep.index 0, .key "a]", .index 12, .index 3] =
        [.index 0] ++ [.key ("a" ++ "]"), .index (3 * 4)] ++ [.index 3] := by
  have plain : ∀ step ∈ [PathStep.index 0, .key "a]", .index 12, .index 3], step.IsPlain := by
    simp [PathStep.IsPlain]
  have text : (ofSteps [.index 0, .key "a]", .index 12, .index 3]).text = "[0].a][12][3]" := by
    decide
  exact ⟨plain, text, steps_identified plain (by simp [PathStep.IsPlain]) (by decide)⟩

end FieldPath

end NodeDescriptor
