import Mathlib.Logic.Relation
import NodeDescriptor.Entry.SchedulingList
import NodeDescriptor.Proofs.Alike.Entry

/-!
# Short forms and their expansions

Many members of a descriptor may be written in a short form: an icon as its path, a list as a
comma-separated text, a single text where lines are meant. `Entry.Expanded` relates entries of which
the right one has some of these forms written out. The readers of single members answer the same for
a short form and for its expansion.
-/

set_option autoImplicit false

namespace NodeDescriptor

/-! ## Forms -/

namespace Json

/-- A path is short for an icon object that says nothing else. -/
inductive IconExpansion : Json → Json → Prop where
  | path (path : String) : IconExpansion (.string path) (.object [("path", .string path)])

/-- A comma-separated text is short for the list of its trimmed parts that are not empty. -/
inductive CommaExpansion : Json → Json → Prop where
  | parts (text : String) : CommaExpansion (.string text) (.ofStrings (Text.commaParts text))

/-- Tokens are short for an object in which each of them, at its first place, stands for itself. -/
inductive TokenExpansion : Json → Json → Prop where
  | one (token : String) : TokenExpansion (.string token) (.object [(token, .string token)])
  | many (tokens : List String) : TokenExpansion (.ofStrings tokens)
      (.object ((Distinct.ofList tokens).map fun token => (token, .string token)))

/-- A text is short for the list of it alone. -/
inductive LineExpansion : Json → Json → Prop where
  | line (line : String) : LineExpansion (.string line) (.ofStrings [line])

/-- Lines stand for one text in which each starts a new line. -/
inductive JoinedExpansion : Json → Json → Prop where
  | lines (lines : List String) :
      JoinedExpansion (.ofStrings lines) (.string (Text.joined "\n" lines))

end Json

open Json Relation

/-- The same members in the same order, with values that are related. -/
abbrev InStep (related : String → Json → Json → Prop) :
    List (String × Json) → List (String × Json) → Prop :=
  InOrder (fun _ => False) related

namespace Attribute

/-- How a member of an attribute may be expanded. -/
def MayExpand (key : String) : Json → Json → Prop :=
  if key = "description" then ReflGen JoinedExpansion
  else if key = "deprecated" then ReflGen LineExpansion
  else Eq

def Expanded : Json → Json → Prop := Json.AlikeObjects (InStep MayExpand)

end Attribute

/-- Sections with some members of their attributes expanded. -/
def AttributeSections.Expanded : Json → Json → Prop :=
  Json.AlikeObjects (InStep fun _ => Attribute.Expanded)

namespace TestList

/-- How a member of a test may be expanded. -/
def MayExpand (key : String) : Json → Json → Prop :=
  if key = "description" then ReflGen JoinedExpansion else Eq

def ExpandedTest : Json → Json → Prop := Json.AlikeObjects (InStep MayExpand)

/-- Lists of tests with some descriptions expanded. -/
inductive Expanded : Json → Json → Prop where
  | same (value : Json) : Expanded value value
  | arrays {lefts rights : List Json} :
      List.Forall₂ ExpandedTest lefts rights → Expanded (.array lefts) (.array rights)

end TestList

namespace Entry

/-- The keys of lists that may be given as a comma-separated text. -/
def listKeys : List String := ["tags", "categories", "scheduling"]

/-- How a member of an entry may be expanded. -/
def MayExpand (key : String) : Json → Json → Prop :=
  if key = "icon" then ReflGen IconExpansion
  else if key ∈ listKeys then ReflGen CommaExpansion
  else if key = "tokens" then ReflGen TokenExpansion
  else if key = "description" then ReflGen LineExpansion
  else if key = "tests" then TestList.Expanded
  else if key ∈ sectionKeys then AttributeSections.Expanded
  else Eq

/-- Entries with some members, or members inside them, expanded. -/
def Expanded : Json → Json → Prop := Json.AlikeObjects (InStep MayExpand)

end Entry

variable {left right : Json} {lefts rights : List (String × Json)}

/-! ## Tokens -/

/-- Each name with itself. -/
def paired (names : List String) : List (String × String) := names.map fun name => (name, name)

private theorem keys_paired (names : List String) : Entries.keys (paired names) = names := by
  rw [Entries.keys, paired, List.map_map]
  exact List.map_id names

private theorem put_paired (names : List String) (name : String) :
    Entries.put (paired names) name name = paired (Distinct.add names name) := by
  unfold Distinct.add
  induction names with
  | nil => rfl
  | cons first rest ih =>
      have step : paired (first :: rest) = (first, first) :: paired rest := rfl
      by_cases same : first = name
      · subst same
        simp [step, Entries.put]
      · have listed : name ∈ first :: rest ↔ name ∈ rest := by
          simp [List.mem_cons, Ne.symm same]
        rw [step, Entries.put, if_neg same, ih]
        by_cases inRest : name ∈ rest
        · rw [if_pos inRest, if_pos (listed.mpr inRest), step]
        · rw [if_neg inRest, if_neg (inRest ∘ listed.mp)]
          rfl

private theorem merge_paired (names additions : List String) :
    Entries.merge (paired names) (paired additions) = paired (Distinct.addAll names additions) := by
  induction additions generalizing names with
  | nil => rfl
  | cons name rest ih =>
      have step : Entries.merge (paired names) (paired (name :: rest)) =
          Entries.merge (Entries.put (paired names) name name) (paired rest) := rfl
      rw [step, put_paired, ih]
      rfl

/-- Repeats do not count for a dictionary of names that stand for themselves. -/
private theorem ofList_paired_distinct (names : List String) :
    Dict.ofList (paired (Distinct.ofList names)) = Dict.ofList (paired names) := by
  apply Dict.ext_entries
  have distinct : (Entries.keys (paired (Distinct.ofList names))).Nodup :=
    (keys_paired _).symm ▸ Distinct.nodup_ofList names
  have merged := merge_paired [] names
  rw [Dict.entries_ofList, Dict.entries_ofList, Entries.merge_of_nodup distinct, List.nil_append]
  exact merged.symm

/-! ## Single values -/

namespace Json

private theorem strings?_ofStrings (texts : List String) :
    (ofStrings texts).strings? = some texts :=
  mapM_asString?_eq_some_iff.mpr rfl

theorem commaList?_expanded (expanded : ReflGen CommaExpansion left right) :
    left.commaList? = right.commaList? := by
  cases expanded with
  | refl => rfl
  | single short =>
      cases short with
      | parts text => exact (strings?_ofStrings (Text.commaParts text)).symm

theorem tokenNames?_expanded (expanded : ReflGen TokenExpansion left right) :
    left.tokenNames? = right.tokenNames? := by
  cases expanded with
  | refl => rfl
  | single short =>
      cases short with
      | one token => rfl
      | many tokens =>
          have listed : (ofStrings tokens).tokenNames? = some (Dict.ofList (paired tokens)) := by
            have read := strings?_ofStrings tokens
            rw [ofStrings] at read ⊢
            rw [tokenNames?, read]
            · rfl
            · simp
          have members : stringMembers?
              ((Distinct.ofList tokens).map fun token => (token, .string token)) =
                some (paired (Distinct.ofList tokens)) :=
            mapM_map_eq_some fun _ _ => rfl
          rw [listed, tokenNames?, members, Option.map_some, ofList_paired_distinct]

theorem strings?_expanded (expanded : ReflGen LineExpansion left right) :
    left.strings? = right.strings? := by
  cases expanded with
  | refl => rfl
  | single short =>
      cases short with
      | line line => rfl

end Json

namespace Shorthand

theorem checkIcon_expanded (expanded : ReflGen IconExpansion left right) (defaults : IconColors) :
    checkIcon defaults left = checkIcon defaults right := by
  cases expanded with
  | refl => rfl
  | single short =>
      cases short with
      | path path => rfl

theorem checkCategories_expanded (expanded : ReflGen CommaExpansion left right) :
    checkCategories left = checkCategories right := by
  have read := Json.commaList?_expanded expanded
  cases expanded with
  | refl => rfl
  | single short =>
      cases short with
      | parts text => simp only [checkCategories, Json.ofStrings, Member.form] at read ⊢; rw [read]

end Shorthand

theorem SchedulingList.read_expanded (expanded : ReflGen CommaExpansion left right)
    (before : List SchedulingFlag) : read before left = read before right := by
  cases expanded with
  | refl => rfl
  | single short =>
      cases short with
      | parts text => rfl

theorem Attribute.checkDescription_expanded (expanded : ReflGen JoinedExpansion left right) :
    checkDescription left = checkDescription right := by
  cases expanded with
  | refl => rfl
  | single short =>
      cases short with
      | lines lines =>
          rw [checkDescription, Member.strings, Member.form, Json.strings?_ofStrings]
          rfl

theorem TestList.checkDescription_expanded (expanded : ReflGen JoinedExpansion left right) :
    checkDescription left = checkDescription right :=
  Attribute.checkDescription_expanded expanded

/-! ## Attributes -/

theorem Member.form_congr {α : Type} {form? : Json → Option α} (same : form? left = form? right)
    (expected : String) : form form? expected left = form form? expected right := by
  rw [form, form, same]

theorem InOrder.lookup_all {related : String → Json → Json → Prop}
    (ordered : InStep related lefts rights) (key : String) :
    Option.Rel (related key) (lefts.lookup key) (rights.lookup key) :=
  ordered.lookup not_false

private theorem Attribute.check_expanded (expanded : Attribute.Expanded left right)
    (name : String) :
    check name left = check name right := by
  cases expanded with
  | same => rfl
  | @objects lefts rights members =>
      have plain : ∀ key, key ≠ "description" → key ≠ "deprecated" →
          lefts.lookup key = rights.lookup key := by
        intro key notDescription notDeprecated
        have found := members.lookup_all key
        simp only [MayExpand, notDescription, notDeprecated, if_false] at found
        exact eq_of_rel_eq found
      have description : Member.required lefts "description" checkDescription =
          Member.required rights "description" checkDescription :=
        Member.required_congr (members.lookup_all "description")
          fun _ _ _ expanded => checkDescription_expanded expanded
      have deprecated : Member.optional lefts "deprecated" Member.strings =
          Member.optional rights "deprecated" Member.strings := by
        refine Member.optional_congr (members.lookup_all "deprecated") ?_
        intro _ _ _ expanded
        exact Member.form_congr (Json.strings?_expanded expanded) _
      have reading : Reading.ofMembers lefts = Reading.ofMembers rights := by
        simp only [Reading.ofMembers, description, deprecated]
        simp (disch := decide) only [Member.required, Member.optional, plain]
      simp only [check, reading]

theorem AttributeSections.readSection_expanded (expanded : AttributeSections.Expanded left right) :
    readSection left = readSection right := by
  cases expanded with
  | same => rfl
  | @objects lefts rights members =>
      have outcomes : (Member.withoutComments lefts).map readMember =
          (Member.withoutComments rights).map readMember :=
        members.map_withoutComments (fun _ => False.elim) fun key _ _ _ expanded =>
          congrArg (Checked.inside (.entry key)) (Attribute.check_expanded expanded key)
      simp only [readSection, outcomes]

end NodeDescriptor
