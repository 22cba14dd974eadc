import NodeDescriptor.Text.Split

/-!
# Cutting a text

`splitFirst?` cuts at the first separator and nowhere else; the last piece that `splitAll` cuts off
is what stands after the last separator.
-/

set_option autoImplicit false

namespace NodeDescriptor.Text

theorem splitFirst?_append {separator : Char} {before : List Char} (absent : separator ∉ before)
    (after : List Char) :
    splitFirst? separator (before ++ separator :: after) = some (before, after) := by
  induction before with
  | nil => simp [splitFirst?]
  | cons c rest ih =>
      have other : c ≠ separator := fun same => absent (same ▸ List.mem_cons_self)
      have inRest : separator ∉ rest := fun member => absent (List.mem_cons_of_mem _ member)
      rw [List.cons_append, splitFirst?, if_neg other, ih inRest]
      rfl

theorem splitFirst?_eq_some_iff {separator : Char} {text before after : List Char} :
    splitFirst? separator text = some (before, after) ↔
      separator ∉ before ∧ text = before ++ separator :: after := by
  constructor
  · intro split
    induction text generalizing before with
    | nil => cases split
    | cons c rest ih =>
        by_cases same : c = separator
        · rw [splitFirst?, if_pos same] at split
          cases split
          exact ⟨by simp, by rw [same, List.nil_append]⟩
        · rw [splitFirst?, if_neg same] at split
          obtain ⟨⟨front, back⟩, found, shape⟩ := Option.map_eq_some_iff.mp split
          cases shape
          obtain ⟨absent, rfl⟩ := ih found
          refine ⟨?_, rfl⟩
          rw [List.mem_cons, not_or]
          exact ⟨fun equal => same equal.symm, absent⟩
  · intro absent
    obtain ⟨absent, rfl⟩ := absent
    exact splitFirst?_append absent after

theorem splitAll_ne_nil (separator : Char) (text : List Char) : splitAll separator text ≠ [] := by
  cases text with
  | nil => simp [splitAll]
  | cons c rest =>
      rw [splitAll]
      split
      · simp
      · cases splitAll separator rest <;> simp

theorem splitAll_of_not_mem {separator : Char} {text : List Char} (absent : separator ∉ text) :
    splitAll separator text = [text] := by
  induction text with
  | nil => rfl
  | cons c rest ih =>
      have other : c ≠ separator := fun same => absent (same ▸ List.mem_cons_self)
      have inRest : separator ∉ rest := fun member => absent (List.mem_cons_of_mem _ member)
      rw [splitAll, if_neg other, ih inRest]

theorem splitAll_append (separator : Char) (before after : List Char) :
    splitAll separator (before ++ separator :: after) =
      splitAll separator before ++ splitAll separator after := by
  induction before with
  | nil => simp [splitAll]
  | cons c rest ih =>
      rw [List.cons_append, splitAll, splitAll, ih]
      by_cases same : c = separator
      · rw [if_pos same, if_pos same, List.cons_append]
      · rw [if_neg same, if_neg same]
        cases pieces : splitAll separator rest with
        | nil => exact absurd pieces (splitAll_ne_nil separator rest)
        | cons piece others => rfl

/-- The last piece is what stands after the last separator. -/
theorem getLast?_splitAll_append {separator : Char} (before : List Char) {after : List Char}
    (absent : separator ∉ after) :
    (splitAll separator (before ++ separator :: after)).getLast? = some after := by
  rw [splitAll_append, splitAll_of_not_mem absent, List.getLast?_concat]

end NodeDescriptor.Text
