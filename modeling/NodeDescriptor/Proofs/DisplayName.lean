import NodeDescriptor.Attribute.Basic

/-!
# The words of a derived name

`Spells` relates a name to its words: underscores stand before and behind words, and a word ends
where the name ends, or goes on with an underscore or with a character that has the Uppercase
property. A name spells exactly the words into which it is cut, so no other character is lost
in a display name, and only a name of underscores has an empty one.
-/

set_option autoImplicit false

namespace NodeDescriptor.Text

variable {name word rest pending : List Char} {words : List (List Char)} {c : Char}

/-- The word is not empty, holds no underscore and has no Uppercase character after its first. -/
structure IsNameWord (word : List Char) : Prop where
  filled : word ≠ []
  joint : '_' ∉ word
  inner : ∀ c ∈ word.tail, isUppercase c = false

/-- A word that stands before the text ends here. -/
def EndsWord (rest : List Char) : Prop := ∀ c ∈ rest.head?, c = '_' ∨ isUppercase c = true

/-- The name consists of the words in this order, with underscores before, between and behind them,
and each word ends where the next one, or an underscore, begins. -/
inductive Spells : List (List Char) → List Char → Prop where
  | underscores (count : Nat) : Spells [] (List.replicate count '_')
  | word (count : Nat) {word : List Char} {words : List (List Char)} {rest : List Char}
      (isWord : IsNameWord word) (ends : EndsWord rest) (others : Spells words rest) :
      Spells (word :: words) (List.replicate count '_' ++ word ++ rest)

/-! ## Cutting -/

private theorem isNameWord_singleton (other : c ≠ '_') : IsNameWord [c] :=
  ⟨by simp, by simp [other.symm], by simp⟩

theorem IsNameWord.concat (isWord : pending = [] ∨ IsNameWord pending) (other : c ≠ '_')
    (lower : isUppercase c = false) : IsNameWord (pending ++ [c]) := by
  rcases isWord with rfl | isWord
  · exact isNameWord_singleton other
  · refine ⟨by simp, by simp [isWord.joint, other.symm], ?_⟩
    rw [List.tail_append_of_ne_nil isWord.filled]
    intro d listed
    rcases List.mem_append.mp listed with before | last
    · exact isWord.inner d before
    · rwa [List.mem_singleton.mp last]

private theorem IsNameWord.filter_lead (isWord : IsNameWord word) (count : Nat) :
    (List.replicate count '_' ++ word).filter (· ≠ '_') = word := by
  have whole : word.filter (· ≠ '_') = word := by
    rw [List.filter_eq_self]
    intro c listed
    exact decide_eq_true fun same => isWord.joint (same ▸ listed)
  have none : (List.replicate count '_').filter (· ≠ '_') = [] := by simp
  rw [List.filter_append, none, whole, List.nil_append]

private theorem Spells.underscore (spelled : Spells words name) : Spells words ('_' :: name) := by
  cases spelled with
  | underscores count => exact .underscores (count + 1)
  | word count isWord ends others => exact .word (count + 1) isWord ends others

private theorem Spells.wordIfAny_append (isWord : pending = [] ∨ IsNameWord pending)
    (ends : EndsWord rest) (spelled : Spells words rest) :
    Spells (wordIfAny pending ++ words) (pending ++ rest) := by
  rcases isWord with rfl | isWord
  · exact spelled
  · rw [wordIfAny, if_neg (by simp [isWord.filled])]
    exact .word 0 isWord ends spelled

/-- The name is cut into words that it spells, the begun one included. -/
theorem spells_nameWordsFrom (isWord : pending = [] ∨ IsNameWord pending) :
    Spells (nameWordsFrom pending name) (pending ++ name) := by
  induction name generalizing pending with
  | nil =>
      have nothing : Spells [] [] := .underscores 0
      have last := nothing.wordIfAny_append isWord (by simp [EndsWord])
      rwa [List.append_nil] at last
  | cons c rest ih =>
      rw [nameWordsFrom]
      split
      · next same =>
          subst same
          have onward : Spells (nameWordsFrom [] rest) rest := ih (.inl rfl)
          exact onward.underscore.wordIfAny_append isWord (by simp [EndsWord])
      · next other =>
          split
          · next upper =>
              have onward : Spells (nameWordsFrom [c] rest) (c :: rest) :=
                ih (.inr (isNameWord_singleton other))
              exact onward.wordIfAny_append isWord (by simp [EndsWord, upper])
          · next lower =>
              have longer := ih (.inr (.concat isWord other (Bool.not_eq_true _ ▸ lower)))
              rwa [List.append_assoc] at longer

/-! ## Uniqueness -/

private theorem nameWordsFrom_replicate (count : Nat) (rest : List Char) :
    nameWordsFrom [] (List.replicate count '_' ++ rest) = nameWordsFrom [] rest := by
  induction count with
  | zero => rfl
  | succ count ih =>
      rw [List.replicate_succ, List.cons_append, nameWordsFrom, if_pos rfl, ih]
      rfl

private theorem nameWordsFrom_append (joint : '_' ∉ word)
    (lower : ∀ c ∈ word, isUppercase c = false) :
    nameWordsFrom pending (word ++ rest) = nameWordsFrom (pending ++ word) rest := by
  induction word generalizing pending with
  | nil => simp
  | cons c others ih =>
      rw [List.mem_cons, not_or] at joint
      obtain ⟨lowerHere, lowerOthers⟩ := List.forall_mem_cons.mp lower
      rw [List.cons_append, nameWordsFrom, if_neg (Ne.symm joint.1), lowerHere,
        if_neg Bool.false_ne_true, ih joint.2 lowerOthers, List.append_assoc,
        List.singleton_append]

private theorem nameWordsFrom_of_endsWord (filled : pending ≠ []) (ends : EndsWord rest) :
    nameWordsFrom pending rest = pending :: nameWordsFrom [] rest := by
  have any : wordIfAny pending = [pending] := if_neg (by simp [filled])
  cases rest with
  | nil => exact any
  | cons c others =>
      rw [nameWordsFrom, nameWordsFrom, any]
      by_cases same : c = '_'
      · rw [if_pos same, if_pos same]
        rfl
      · have upper := (ends c rfl).resolve_left same
        rw [if_neg same, if_neg same, if_pos upper, if_pos upper]
        rfl

private theorem nameWordsFrom_word (isWord : IsNameWord word) (ends : EndsWord rest) :
    nameWordsFrom [] (word ++ rest) = word :: nameWordsFrom [] rest := by
  obtain ⟨filled, joint, inner⟩ := isWord
  cases word with
  | nil => exact absurd rfl filled
  | cons c others =>
      rw [List.mem_cons, not_or] at joint
      have begun :
          nameWordsFrom [] (c :: (others ++ rest)) = nameWordsFrom [c] (others ++ rest) := by
        rw [nameWordsFrom, if_neg (Ne.symm joint.1)]
        split <;> rfl
      rw [List.cons_append, begun, nameWordsFrom_append joint.2 inner]
      exact nameWordsFrom_of_endsWord filled ends

/-- A name spells the words into which it is cut and no others. -/
theorem nameWords_eq_iff : nameWords name = words ↔ Spells words name := by
  constructor
  · rintro rfl
    exact spells_nameWordsFrom (.inl rfl)
  · intro spelled
    rw [nameWords]
    induction spelled with
    | underscores count =>
        have cut := nameWordsFrom_replicate count []
        rwa [List.append_nil] at cut
    | word count isWord ends _ ih =>
        rw [List.append_assoc, nameWordsFrom_replicate, nameWordsFrom_word isWord ends, ih]

/-! ## What the words of a name are -/

namespace Spells

private theorem isNameWord (spelled : Spells words name) : ∀ word ∈ words, IsNameWord word := by
  induction spelled with
  | underscores count => simp
  | word count isWord ends others ih => exact List.forall_mem_cons.mpr ⟨isWord, ih⟩

theorem flatten (spelled : Spells words name) : words.flatten = name.filter (· ≠ '_') := by
  induction spelled with
  | underscores count => simp
  | word count isWord ends others ih =>
      rw [List.flatten_cons, ih, List.filter_append, isWord.filter_lead]

/-- Where one word follows another, there are underscores between them or the second begins with an
Uppercase character. -/
theorem separated {before after : List (List Char)} {one other : List Char}
    (spelled : Spells (before ++ one :: other :: after) name) :
    ∃ front count back,
      name = front ++ one ++ List.replicate count '_' ++ other ++ back ∧
        front.filter (· ≠ '_') = before.flatten ∧
        (0 < count ∨ ∃ c ∈ other.head?, isUppercase c = true) := by
  induction before generalizing name with
  | nil =>
      obtain _ | ⟨lead, -, ends, others⟩ := spelled
      obtain _ | @⟨count, _, _, back, isWord, -, -⟩ := others
      refine ⟨List.replicate lead '_', count, back, by simp only [List.append_assoc], by simp, ?_⟩
      -- Without underscores between, the first word ends where the second one begins.
      cases count with
      | succ count => exact .inl (Nat.succ_pos count)
      | zero =>
          cases other with
          | nil => exact absurd rfl isWord.filled
          | cons c others =>
              have notJoint : c ≠ '_' := fun same => isWord.joint (same ▸ List.mem_cons_self)
              exact .inr ⟨c, rfl, (ends c rfl).resolve_left notJoint⟩
  | cons word before ih =>
      obtain _ | ⟨lead, isWord, ends, others⟩ := spelled
      obtain ⟨front, count, back, rfl, letters, apart⟩ := ih others
      refine ⟨List.replicate lead '_' ++ word ++ front, count, back,
        by simp only [List.append_assoc], ?_, apart⟩
      rw [List.filter_append, isWord.filter_lead, letters, List.flatten_cons]

private theorem nil_iff : Spells [] name ↔ ∀ c ∈ name, c = '_' := by
  constructor
  · rintro ⟨count⟩
    exact fun c listed => List.eq_of_mem_replicate listed
  · intro only
    rw [List.eq_replicate_of_mem only]
    exact .underscores name.length

end Spells

/-! ## Display names -/

private theorem capitalized_ne_nil (filled : word ≠ []) : capitalized word ≠ [] := by
  cases word with
  | nil => exact absurd rfl filled
  | cons c rest =>
      rw [capitalized]
      exact List.append_ne_nil_of_left_ne_nil (capital_ne_nil c) rest

private theorem joined_eq_empty_iff {separator : String} {texts : List String}
    (filled : ∀ text ∈ texts, text ≠ "") : joined separator texts = "" ↔ texts = [] := by
  cases texts with
  | nil => simp [joined]
  | cons text rest =>
      have here : text ≠ "" := filled text List.mem_cons_self
      cases rest <;> simp [joined, here]

private theorem displayName_eq_empty_iff {name : String} :
    displayName name = "" ↔ ∀ c ∈ name.toList, c = '_' := by
  have filled : ∀ text ∈ (nameWords name.toList).map fun word => String.ofList (capitalized word),
      text ≠ "" := by
    rw [List.forall_mem_map]
    intro word listed
    rw [Ne, String.ofList_eq_empty_iff]
    exact capitalized_ne_nil ((nameWords_eq_iff.mp rfl).isNameWord word listed).filled
  rw [displayName, joined_eq_empty_iff filled, List.map_eq_nil_iff, nameWords_eq_iff,
    Spells.nil_iff]

end NodeDescriptor.Text

namespace NodeDescriptor.Attribute

open Text

/-- A derived display name shows the words of the attribute's name, each with its first character in
upper case and with single spaces between. The words hold all characters of the name but the
underscores, in order; none is empty, and none goes on with an Uppercase character, before which
a new word begins. Only a name of underscores has no words, and then nothing is shown. -/
theorem derived_name_complete (attr : Attribute) (derived : attr.uiName = none) :
    attr.displayName = joined " "
        ((nameWords attr.name.toList).map fun word => String.ofList (capitalized word)) ∧
      (∀ word ∈ nameWords attr.name.toList, IsNameWord word) ∧
      (nameWords attr.name.toList).flatten = attr.name.toList.filter (· ≠ '_') ∧
      (∀ before one other after, nameWords attr.name.toList = before ++ one :: other :: after →
        ∃ front count back,
          attr.name.toList = front ++ one ++ List.replicate count '_' ++ other ++ back ∧
            front.filter (· ≠ '_') = before.flatten ∧
            (0 < count ∨ ∃ c ∈ other.head?, isUppercase c = true)) ∧
      (attr.displayName = "" ↔ ∀ c ∈ attr.name.toList, c = '_') := by
  have shown : attr.displayName = Text.displayName attr.name := by
    rw [Attribute.displayName, derived, Option.getD_none]
  have spelled : Spells (nameWords attr.name.toList) attr.name.toList := nameWords_eq_iff.mp rfl
  rw [shown]
  exact ⟨rfl, spelled.isNameWord, spelled.flatten,
    fun _ _ _ _ cut => (nameWords_eq_iff.mp cut).separated, displayName_eq_empty_iff⟩

/-- An attribute whose name has runs of underscores, a run of capitals, and a letter with two
characters in upper case. -/
def crowdedName : Attribute := .ofType "_toRGB__\u00dfb_" (.one .any)

theorem crowdedName_complete :
    crowdedName.uiName = none ∧ crowdedName.displayName = "To R G B SSb" ∧
      (nameWords crowdedName.name.toList).flatten = "toRGB\u00dfb".toList ∧
      ∃ front count back,
        crowdedName.name.toList =
            front ++ ['B'] ++ List.replicate count '_' ++ ['\u00df', 'b'] ++ back ∧
          front.filter (· ≠ '_') = "toRG".toList := by
  have words : nameWords crowdedName.name.toList =
      ["to".toList, ['R'], ['G']] ++ ['B'] :: ['\u00df', 'b'] :: [] := by decide +kernel
  obtain ⟨shown, -, letters, separated, -⟩ := derived_name_complete crowdedName rfl
  obtain ⟨front, count, back, spelled, before, -⟩ := separated _ _ _ _ words
  refine ⟨rfl, ?_, letters.trans (by decide), front, count, back, spelled, before⟩
  rw [shown, words]
  decide +kernel

end NodeDescriptor.Attribute
