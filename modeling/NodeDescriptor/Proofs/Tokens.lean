import NodeDescriptor.Proofs.FirstOccurrences
import NodeDescriptor.Proofs.Legality.Forms

/-!
# Sets of tokens

The allowed tokens of an attribute and the tokens of a node are read by readers of their own. On
lists and objects both answer alike: all items must be strings, and a token that is repeated keeps
its first place. They part on texts, which only the allowed tokens take as several tokens with
commas between them.
-/

set_option autoImplicit false

namespace NodeDescriptor.Json

variable {value : Json} {tokens : Dict String}

/-- The tokens of a list or an object, repeats included, each with its name. An item of a list is
its own name. -/
inductive SpellsTokens : Json → List (String × String) → Prop where
  | list (tokens : List String) :
      SpellsTokens (.ofStrings tokens) (tokens.map fun token => (token, token))
  | object (names : List (String × String)) :
      SpellsTokens (.object (names.map fun entry => (entry.1, .string entry.2))) names

private theorem stringMembers?_eq_some_iff {members : List (String × Json)}
    {names : List (String × String)} :
    stringMembers? members = some names ↔
      members = names.map fun entry => (entry.1, .string entry.2) := by
  have each (member : String × Json) (name : String × String) :
      (member.2.asString?.map fun text => (member.1, text)) = some name ↔
        member = (name.1, .string name.2) := by
    rw [Option.map_eq_some_iff]
    constructor
    · rintro ⟨text, isText, rfl⟩
      exact Prod.ext rfl (asString?_eq_some_iff.mp isText)
    · rintro rfl
      exact ⟨name.2, rfl, rfl⟩
  simp only [stringMembers?, mapM_eq_some_iff, each]
  rw [← List.forall₂_map_right_iff, List.forall₂_eq_eq_eq]

/-! ## Lists and objects -/

private theorem tokenNames?_array_iff {items : List Json} :
    (array items).tokenNames? = some tokens ↔
      ∃ names, (array items).SpellsTokens names ∧ tokens = Dict.ofList names := by
  have read : (array items).tokenNames? = (items.mapM asString?).map fun texts =>
    Dict.ofList (texts.map fun token => (token, token)) := rfl
  rw [read, Option.map_eq_some_iff]
  constructor
  · rintro ⟨texts, all, rfl⟩
    rw [mapM_asString?_eq_some_iff.mp all]
    exact ⟨_, .list texts, rfl⟩
  · rintro ⟨names, spelled, rfl⟩
    cases spelled with
    | list texts => exact ⟨texts, mapM_asString?_eq_some_iff.mpr rfl, rfl⟩

private theorem tokenNames?_object_iff {members : List (String × Json)} :
    (object members).tokenNames? = some tokens ↔
      ∃ names, (object members).SpellsTokens names ∧ tokens = Dict.ofList names := by
  rw [tokenNames?, Option.map_eq_some_iff]
  simp only [stringMembers?_eq_some_iff]
  constructor
  · rintro ⟨names, rfl, rfl⟩
    exact ⟨names, .object names, rfl⟩
  · rintro ⟨names, spelled, rfl⟩
    cases spelled with
    | object => exact ⟨names, rfl, rfl⟩

private theorem SpellsTokens.array_or_object {names : List (String × String)}
    (spelled : value.SpellsTokens names) :
    (∃ items, value = .array items) ∨ ∃ members, value = .object members := by
  cases spelled with
  | list => exact .inl ⟨_, rfl⟩
  | object => exact .inr ⟨_, rfl⟩

/-- What is no text has tokens exactly if it spells some, and these are collected. -/
theorem tokenNames?_eq_some_iff (noText : value.asString? = none) :
    value.tokenNames? = some tokens ↔
      ∃ names, value.SpellsTokens names ∧ tokens.Collects names := by
  simp only [Dict.collects_iff]
  cases value with
  | array items => exact tokenNames?_array_iff
  | object members => exact tokenNames?_object_iff
  | string text => cases noText
  | null | bool | number =>
      constructor
      · intro read
        cases read
      · rintro ⟨names, spelled, -⟩
        rcases spelled.array_or_object with ⟨_, shape⟩ | ⟨_, shape⟩ <;> cases shape

/-! ## Agreement -/

/-- The one reader names the items as it reads them, the other after all of them are read. -/
theorem allowedTokens?_array (items : List Json) :
    (array items).allowedTokens? = (array items).tokenNames? := by
  have collected : (array items).tokenNames? =
      ((items.mapM asString?).map (List.map fun token => (token, token))).map Dict.ofList := by
    rw [Option.map_map]
    rfl
  rw [allowedTokens?, mapM_option_map, collected]

private theorem allowedTokens?_string (text : String) :
    (string text).allowedTokens? = (ofStrings (Text.commaParts text)).tokenNames? := by
  have listed : (ofStrings (Text.commaParts text)).SpellsTokens
      ((Text.commaParts text).map fun token => (token, token)) := .list _
  exact (tokenNames?_array_iff.mpr ⟨_, listed, rfl⟩).symm

/-- Lists and objects are read alike as allowed tokens and as tokens: all or nothing, every token at
its first place with the name that was given last. A text is a comma-separated list to the one
reader and a single token to the other, and there are no tokens in any other value. -/
theorem token_readers_agree :
    (∀ items, (array items).allowedTokens? = (array items).tokenNames?) ∧
      (∀ members, (object members).allowedTokens? = (object members).tokenNames?) ∧
      (∀ text, (string text).allowedTokens? = (ofStrings (Text.commaParts text)).tokenNames?) ∧
      (∀ text, ∃ tokens, (string text).tokenNames? = some tokens ∧
        tokens.entries = [(text, text)]) ∧
      (∀ value : Json, value.asString? = none → value.asArray? = none → value.asObject? = none →
        value.allowedTokens? = none ∧ value.tokenNames? = none) ∧
      ∀ (value : Json) (tokens : Dict String), value.asString? = none →
        (value.tokenNames? = some tokens ↔
          ∃ names, value.SpellsTokens names ∧ tokens.Collects names) := by
  refine ⟨allowedTokens?_array, fun _ => rfl, allowedTokens?_string, fun _ => ⟨_, rfl, rfl⟩, ?_,
    fun _ _ => tokenNames?_eq_some_iff⟩
  intro value noText noList noObject
  cases value with
  | string text => cases noText
  | array items => cases noList
  | object members => cases noObject
  | null | bool | number => exact ⟨rfl, rfl⟩

/-- Repeated tokens, once as a list and once as a text; the second list has an item that is no
token. -/
theorem repeatedTokens_agree :
    (ofStrings ["b", "a", "b"]).asString? = none ∧
      (ofStrings ["b", "a", "b"]).allowedTokens? = some ⟨[("b", "b"), ("a", "a")], by decide⟩ ∧
      (string " b,, a ,b").allowedTokens? = some ⟨[("b", "b"), ("a", "a")], by decide⟩ ∧
      (array [.string "b", .null]).tokenNames? = none ∧
      null.asString? = none ∧ null.asArray? = none ∧ null.asObject? = none ∧
      null.tokenNames? = none := by
  obtain ⟨lists, -, texts, -, others, collected⟩ := token_readers_agree
  have read : (ofStrings ["b", "a", "b"]).tokenNames? =
      some ⟨[("b", "b"), ("a", "a")], by decide⟩ :=
    (collected _ _ rfl).mpr ⟨_, .list _, Dict.collects_iff.mpr (by decide)⟩
  have parts : Text.commaParts " b,, a ,b" = ["b", "a", "b"] := by decide +kernel
  refine ⟨rfl, (lists _).trans read, ?_, rfl, rfl, rfl, rfl, (others null rfl rfl rfl).2⟩
  rw [texts, parts, read]

end NodeDescriptor.Json
