/-!
# Closed vocabularies

Many fields of a descriptor take one word out of a short fixed list. `Keyword α` says that the
values of `α` can be listed and that each has a word of its own; `Keyword.ofWord?` looks a word
up, and by `ofWord?_eq_some_iff` it is the inverse of writing the word.
-/

set_option autoImplicit false

namespace NodeDescriptor

/-- A finite type whose values are written as distinct words. -/
class Keyword (α : Type) where
  /-- Every value, in the order of the documentation. -/
  all : List α
  /-- The word for a value. -/
  word : α → String
  complete : ∀ value, value ∈ all
  distinct : (all.map word).Nodup

namespace Keyword

variable {α : Type} [Keyword α]

/-- The value with this word. -/
def ofWord? (text : String) : Option α :=
  (all (α := α)).find? fun value => word value = text

theorem word_injective {a b : α} (same : word a = word b) : a = b := by
  have listed : ∀ values : List α, (values.map word).Nodup → a ∈ values → b ∈ values → a = b := by
    intro values distinct
    induction values with
    | nil => intro member; cases member
    | cons first rest ih =>
        rw [List.map_cons, List.nodup_cons] at distinct
        intro left right
        rcases List.mem_cons.mp left with rfl | leftRest
        · rcases List.mem_cons.mp right with rfl | rightRest
          · rfl
          · exact absurd (same ▸ List.mem_map_of_mem rightRest) distinct.1
        · rcases List.mem_cons.mp right with rfl | rightRest
          · exact absurd (same ▸ List.mem_map_of_mem leftRest) distinct.1
          · exact ih distinct.2 leftRest rightRest
  exact listed all distinct (complete a) (complete b)

theorem ofWord?_eq_some_iff {text : String} {value : α} :
    ofWord? text = some value ↔ word value = text := by
  constructor
  · intro found
    simpa using List.find?_some found
  · intro spelled
    have found : (ofWord? text : Option α).isSome := by
      rw [ofWord?, List.find?_isSome]
      exact ⟨value, complete value, by simpa using spelled⟩
    obtain ⟨other, isOther⟩ := Option.isSome_iff_exists.mp found
    have spelledOther : word other = text := by simpa using List.find?_some isOther
    rw [isOther, word_injective (spelledOther.trans spelled.symm)]

@[simp] theorem ofWord?_word (value : α) : ofWord? (word value) = some value :=
  ofWord?_eq_some_iff.mpr rfl

end Keyword

end NodeDescriptor
