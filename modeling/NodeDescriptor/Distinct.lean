/-!
# First occurrences

A list of values in which repeats do not count: `Distinct.add` appends a value unless it is
there already, and `Distinct.ofList` keeps the first occurrence of every value.
-/

set_option autoImplicit false

namespace NodeDescriptor.Distinct

variable {α : Type} [DecidableEq α]

/-- Append a value that is not there yet. -/
def add (values : List α) (value : α) : List α :=
  if value ∈ values then values else values ++ [value]

/-- Append every value that is not there yet, one after another. -/
def addAll (values additions : List α) : List α := additions.foldl add values

/-- The first occurrences, in order. -/
def ofList (values : List α) : List α := addAll [] values

theorem nodup_add {values : List α} (distinct : values.Nodup) (value : α) :
    (add values value).Nodup := by
  unfold add
  split
  · exact distinct
  · rename_i absent
    rw [List.nodup_append]
    exact ⟨distinct, by simp, fun a member b single => by
      rw [List.mem_singleton] at single
      rintro rfl
      exact absent (single ▸ member)⟩

theorem nodup_addAll {values : List α} (distinct : values.Nodup) (additions : List α) :
    (addAll values additions).Nodup := by
  induction additions generalizing values with
  | nil => exact distinct
  | cons value rest ih => exact ih (nodup_add distinct value)

theorem nodup_ofList (values : List α) : (ofList values).Nodup :=
  nodup_addAll List.nodup_nil values

theorem mem_add {values : List α} {value other : α} :
    other ∈ add values value ↔ other ∈ values ∨ other = value := by
  unfold add
  split
  · rename_i present
    exact ⟨Or.inl, fun either => either.elim id fun same => same ▸ present⟩
  · simp

theorem mem_addAll {values additions : List α} {other : α} :
    other ∈ addAll values additions ↔ other ∈ values ∨ other ∈ additions := by
  induction additions generalizing values with
  | nil => simp [addAll]
  | cons value rest ih =>
      have step : addAll values (value :: rest) = addAll (add values value) rest := rfl
      rw [step, ih, mem_add, List.mem_cons, or_assoc]

end NodeDescriptor.Distinct
