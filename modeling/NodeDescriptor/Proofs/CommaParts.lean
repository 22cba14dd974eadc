import NodeDescriptor.Proofs.Entry.Result
import NodeDescriptor.Proofs.MetadataView
import NodeDescriptor.Proofs.Text.Split

/-!
# The parts of a comma-separated text

A part is not empty, holds no comma and has no white space at either end. Cutting a text gives such
parts only, and a list of such parts is what its joined text is cut into; so nothing changes when
parts are joined and cut again. The tags of a node are shown as their joined text, from which they
can therefore be read back.
-/

set_option autoImplicit false

namespace NodeDescriptor.Text

variable {text : List Char} {parts : List String}

/-! ## Trimming -/

private theorem not_isBlank_of_head?_trimmedFront (text : List Char) :
    ∀ c ∈ (trimmedFront text).head?, isBlank c = false := by
  intro c first
  have notBlank := List.head?_dropWhile_not isBlank text
  rw [trimmedFront, Option.mem_def] at first
  rwa [first] at notBlank

private theorem trimmedFront_eq_self (bare : ∀ c ∈ text.head?, isBlank c = false) :
    trimmedFront text = text := by
  cases text with
  | nil => rfl
  | cons c rest => exact List.dropWhile_cons_of_neg (by simp [bare c rfl])

private theorem trimmed_begins (text : List Char) : trimmed text <+: trimmedFront text := by
  have suffix : trimmedFront (trimmedFront text).reverse <:+ (trimmedFront text).reverse :=
    List.dropWhile_suffix isBlank
  rwa [trimmed, ← List.reverse_suffix, List.reverse_reverse]

private theorem trimmed_subset (text : List Char) : trimmed text ⊆ text :=
  fun _ kept => (List.dropWhile_suffix isBlank).subset ((trimmed_begins text).subset kept)

private theorem not_isBlank_of_head?_trimmed : ∀ c ∈ (trimmed text).head?, isBlank c = false := by
  intro c first
  obtain ⟨rest, whole⟩ := trimmed_begins text
  refine not_isBlank_of_head?_trimmedFront text c ?_
  rw [← whole, List.head?_append, Option.mem_def.mp first]
  rfl

private theorem not_isBlank_of_getLast?_trimmed :
    ∀ c ∈ (trimmed text).getLast?, isBlank c = false := by
  rw [trimmed, List.getLast?_reverse]
  exact not_isBlank_of_head?_trimmedFront _

private theorem trimmed_eq_self (front : ∀ c ∈ text.head?, isBlank c = false)
    (back : ∀ c ∈ text.getLast?, isBlank c = false) : trimmed text = text := by
  rw [← List.head?_reverse] at back
  rw [trimmed, trimmedFront_eq_self front, trimmedFront_eq_self back, List.reverse_reverse]

/-! ## Cutting -/

private theorem not_mem_of_mem_splitAll {separator : Char} {piece : List Char}
    (cut : piece ∈ splitAll separator text) : separator ∉ piece := by
  induction text generalizing piece with
  | nil =>
      rw [splitAll, List.mem_singleton] at cut
      simp [cut]
  | cons c rest ih =>
      rw [splitAll] at cut
      split at cut
      · rcases List.mem_cons.mp cut with rfl | later
        · simp
        · exact ih later
      · next other =>
          cases pieces : splitAll separator rest with
          | nil => exact absurd pieces (splitAll_ne_nil separator rest)
          | cons first others =>
              rw [pieces] at cut ih
              rcases List.mem_cons.mp cut with rfl | later
              · rw [List.mem_cons, not_or]
                exact ⟨fun same => other same.symm, ih List.mem_cons_self⟩
              · exact ih (List.mem_cons_of_mem _ later)

/-- Joined texts are cut where they were joined, unless one of them holds the separator. -/
private theorem splitAll_joined (separator : Char) (filled : parts ≠ [])
    (absent : ∀ part ∈ parts, separator ∉ part.toList) :
    splitAll separator (joined (String.singleton separator) parts).toList =
      parts.map String.toList := by
  induction parts with
  | nil => exact absurd rfl filled
  | cons part rest ih =>
      obtain ⟨absentHere, absentRest⟩ := List.forall_mem_cons.mp absent
      cases rest with
      | nil => exact splitAll_of_not_mem absentHere
      | cons next others =>
          have shape : (joined (String.singleton separator) (part :: next :: others)).toList =
              part.toList ++
                separator :: (joined (String.singleton separator) (next :: others)).toList := by
            simp [joined]
          rw [shape, splitAll_append, splitAll_of_not_mem absentHere, ih (by simp) absentRest]
          rfl

/-! ## Parts -/

/-- The text is not empty, holds no comma and has no white space at either end. -/
structure IsCommaPart (part : String) : Prop where
  filled : part ≠ ""
  commaFree : ',' ∉ part.toList
  front : ∀ c ∈ part.toList.head?, isBlank c = false
  back : ∀ c ∈ part.toList.getLast?, isBlank c = false

private theorem isCommaPart_of_mem_commaParts {text part : String}
    (listed : part ∈ commaParts text) :
    IsCommaPart part := by
  obtain ⟨characters, kept, rfl⟩ := List.mem_map.mp listed
  obtain ⟨inPieces, filled⟩ := List.mem_filter.mp kept
  obtain ⟨piece, cut, rfl⟩ := List.mem_map.mp inPieces
  constructor
  · intro empty
    rw [String.ofList_eq_empty_iff] at empty
    simp [empty] at filled
  · rw [String.toList_ofList]
    exact fun comma => not_mem_of_mem_splitAll cut (trimmed_subset piece comma)
  · rw [String.toList_ofList]
    exact not_isBlank_of_head?_trimmed
  · rw [String.toList_ofList]
    exact not_isBlank_of_getLast?_trimmed

private theorem commaParts_joined (clean : ∀ part ∈ parts, IsCommaPart part) :
    commaParts (joined "," parts) = parts := by
  cases parts with
  | nil => decide
  | cons part rest =>
      have pieces : splitAll ',' (joined "," (part :: rest)).toList =
          (part :: rest).map String.toList :=
        splitAll_joined ',' (by simp) fun part listed => (clean part listed).commaFree
      have trimmedPieces : ((part :: rest).map String.toList).map trimmed =
          (part :: rest).map String.toList := by
        rw [List.map_map]
        exact List.map_congr_left fun part listed =>
          trimmed_eq_self (clean part listed).front (clean part listed).back
      have kept : ((part :: rest).map String.toList).filter (fun piece => !piece.isEmpty) =
          (part :: rest).map String.toList := by
        rw [List.filter_eq_self, List.forall_mem_map]
        intro part listed
        simp [(clean part listed).filled]
      rw [commaParts, pieces, trimmedPieces, kept, List.map_map]
      exact (List.map_congr_left fun part _ => String.ofList_toList).trans (List.map_id _)

end NodeDescriptor.Text

namespace NodeDescriptor.Entry

open Text

variable {options : Options} {entry : Entry} {text : String}

/-- The node that the standard stages make of an entry, whether it is kept or not. -/
def standardNode (options : Options) (entry : Entry) : Node :=
  (Stage.runAll Keyword.all options entry (Node.ofName entry.name)).value

private theorem tags_standardNode (written : entry.members.lookup "tags" = some (.string text)) :
    (standardNode options entry).tags = commaParts text := by
  have made : (standardNode options entry).tags =
      (Shorthand.ofEntry options entry).tags.value.getD [] := by
    rw [standardNode, Stage.runAll_all]
    rfl
  have read : (Shorthand.ofEntry options entry).tags.value = some (commaParts text) := by
    refine Member.value_optional.trans ?_
    rw [written]
    rfl
  rw [made, read, Option.getD_some]

/-- Every part of a comma-separated text is clean, a joined list of clean parts is cut into just
these parts, and so the parts of a text are those of their joined text. Tags that are written as a
text with any parts can therefore be read from the shown metadata of the node. -/
theorem comma_parts_stable :
    (∀ text, ∀ part ∈ commaParts text, IsCommaPart part) ∧
      (∀ text, commaParts (joined "," (commaParts text)) = commaParts text) ∧
      (∀ parts, (∀ part ∈ parts, IsCommaPart part) → commaParts (joined "," parts) = parts) ∧
      ∀ (options : Options) (entry : Entry) (text : String),
        entry.members.lookup "tags" = some (.string text) → commaParts text ≠ [] →
          (standardNode options entry).tags = commaParts text ∧
            ((standardNode options entry).metadataView.get? "tags").map commaParts =
              some (standardNode options entry).tags := by
  have clean : ∀ text, ∀ part ∈ commaParts text, IsCommaPart part :=
    fun _ _ => isCommaPart_of_mem_commaParts
  refine ⟨clean, fun text => commaParts_joined (clean text), fun _ => commaParts_joined,
    fun options entry text written filled => ?_⟩
  have tags := @tags_standardNode options entry text written
  have shown : (standardNode options entry).metadataView.get? "tags" =
      some (joined "," (commaParts text)) := by
    refine Node.get?_metadataView_of_added ?_
    simp [Node.viewAdditions, tags, filled]
  rw [shown, Option.map_some, commaParts_joined (clean text), tags]
  exact ⟨rfl, rfl⟩

/-- An entry whose tags have white space of several kinds around them and between them. -/
def spacedTags : Entry :=
  ⟨"N", [("tags", .string " \u2003sum of all,, plus\t,\u00a0"), ("singleton", .bool true)]⟩

theorem spacedTags_read_back :
    spacedTags.members.lookup "tags" = some (.string " \u2003sum of all,, plus\t,\u00a0") ∧
      (∀ part ∈ ["sum of all", "plus"], IsCommaPart part) ∧
      commaParts (joined "," ["sum of all", "plus"]) = ["sum of all", "plus"] ∧
      ((standardNode .standard spacedTags).metadataView.get? "tags").map commaParts =
        some ["sum of all", "plus"] := by
  obtain ⟨clean, -, cut, tags⟩ := comma_parts_stable
  have parts : commaParts " \u2003sum of all,, plus\t,\u00a0" = ["sum of all", "plus"] := by
    decide +kernel
  have written : spacedTags.members.lookup "tags" =
      some (.string " \u2003sum of all,, plus\t,\u00a0") := rfl
  have cleanHere : ∀ part ∈ ["sum of all", "plus"], IsCommaPart part := parts ▸ clean _
  obtain ⟨same, shown⟩ := tags .standard spacedTags _ written (by simp [parts])
  exact ⟨written, cleanHere, cut _ cleanHere, by rw [shown, same, parts]⟩

end NodeDescriptor.Entry
