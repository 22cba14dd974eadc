import NodeDescriptor.Entry.Stage
import NodeDescriptor.Proofs.Attribute.Verdict
import NodeDescriptor.Proofs.Legality.Fields
import NodeDescriptor.Proofs.Paths

/-!
# Attributes in other places

The check of an attribute does not look at where the attribute stands. At any two places it makes
the same attribute or finds the same problems, and the diagnostics only start with other paths. So
the attributes of an entry are checked in their sections as they would be alone.
-/

set_option autoImplicit false

namespace NodeDescriptor

/-- The outcomes of one check at two places: both make the same value and report nothing, or
neither makes one and they report the same, one diagnostic after the other. -/
inductive Checked.AlikeBelow {α : Type} (first second : String) (left right : Checked (Option α)) :
    Prop where
  | made (value : α) (leftMade : left.value = some value) (rightMade : right.value = some value)
      (leftSilent : left.diagnostics = []) (rightSilent : right.diagnostics = [])
  | refused (leftNone : left.value = none) (rightNone : right.value = none)
      (alike : List.Forall₂ (Diagnostic.AlikeBelow first second) left.diagnostics
        right.diagnostics)

/-- The path of an attribute in an entry of a document. -/
def Entry.attributePath (entry : Entry) (part : Section) (name : String) : FieldPath :=
  ((FieldPath.entry entry.name).key (Keyword.word part)).key name

namespace Attribute

variable {name : String} {value : Json} {first second : FieldPath}

/-! ## Two places -/

private theorem place_of_mem_check {finding : Finding}
    (found : finding ∈ (check name value).findings) :
    finding.path = .root ∨ finding.AtMember := by
  cases value with
  | object members =>
      have atMembers : AtMembers (Reading.ofMembers members).findings := by
        simp [Reading.findings, Reading.ofMembers]
      exact .inr (atMembers finding found)
  | _ =>
      rw [List.mem_singleton.mp found]
      exact .inl rfl

private theorem diagnostics_check_alike (firstFilled : first.text ≠ "")
    (secondFilled : second.text ≠ "") :
    List.Forall₂ (Diagnostic.AlikeBelow first.text second.text)
      ((check name value).inside first).diagnostics
      ((check name value).inside second).diagnostics := by
  simp only [Checked.diagnostics, Checked.findings_inside, List.map_map,
    List.forall₂_map_left_iff, List.forall₂_map_right_iff, List.forall₂_same]
  intro finding found
  exact finding.alikeBelow (place_of_mem_check found) firstFilled secondFilled

private theorem check_alike (firstFilled : first.text ≠ "") (secondFilled : second.text ≠ "") :
    ((check name value).inside first).AlikeBelow first.text second.text
      ((check name value).inside second) := by
  cases made : (check name value).value with
  | none => exact .refused made made (diagnostics_check_alike firstFilled secondFilled)
  | some attr =>
      have silent (path : FieldPath) : ((check name value).inside path).diagnostics = [] := by
        rw [Checked.diagnostics, Checked.findings_inside, findings_eq_nil_of_check made]
        rfl
      exact .made attr made made (silent first) (silent second)

end Attribute

/-! ## Sections of an entry -/

namespace AttributeSections

variable {entry : Entry} {part : Section} {attributes : List (String × Json)}

theorem diagnostics_ofEntry
    (given : entry.members.lookup (Keyword.word part) = some (.object attributes)) :
    ((ofEntry entry part).inside (.entry entry.name)).diagnostics =
      (Member.withoutComments attributes).flatMap fun member =>
        ((Attribute.check member.1 member.2).inside
          (entry.attributePath part member.1)).diagnostics := by
  simp only [ofEntry, Member.optional, given, readSection, readMember, Checked.diagnostics,
    Checked.findings_inside, List.map_flatMap, List.flatMap_map, List.map_map]
  rfl

private theorem diagnostics_ofEntry_infix (options : Options) (entry : Entry) (node : Node)
    (part : Section) :
    ((ofEntry entry part).inside (.entry entry.name)).diagnostics <:+:
      ((Stage.attributes.run options entry node).inside (.entry entry.name)).diagnostics := by
  have found : (Stage.attributes.run options entry node).findings =
      (ofEntry entry .inputs).findings ++ (ofEntry entry .outputs).findings ++
        (ofEntry entry .state).findings := findings_check
  simp only [Checked.diagnostics, Checked.findings_inside, found, List.map_append]
  cases part with
  | inputs => exact (List.prefix_append_of_prefix (List.prefix_append _ _)).isInfix
  | outputs => exact List.infix_append _ _ _
  | state => exact (List.suffix_append _ _).isInfix

end AttributeSections

namespace Attribute

/-- At two places whose paths have a text, the check of an attribute has the same outcome, and its
diagnostics differ in the text of the place alone. The attributes of a section are checked in this
way at their places in the document, one after another. -/
theorem check_same_at_places :
    (∀ (name : String) (value : Json) (first second : FieldPath), first.text ≠ "" →
      second.text ≠ "" → ((check name value).inside first).AlikeBelow first.text second.text
        ((check name value).inside second)) ∧
      ∀ (options : Options) (entry : Entry) (node : Node) (part : Section)
        (attributes : List (String × Json)),
        entry.members.lookup (Keyword.word part) = some (.object attributes) →
          ((Member.withoutComments attributes).flatMap fun member =>
            ((check member.1 member.2).inside
              (entry.attributePath part member.1)).diagnostics) <:+:
          ((Stage.attributes.run options entry node).inside (.entry entry.name)).diagnostics := by
  constructor
  · intro name value first second firstFilled secondFilled
    exact check_alike firstFilled secondFilled
  · intro options entry node part attributes given
    rw [← AttributeSections.diagnostics_ofEntry given]
    exact AttributeSections.diagnostics_ofEntry_infix options entry node part

def repeatingInput : Json :=
  .object [("description", .string "A."), ("type", .ofStrings ["int", "int"])]

theorem repeatingInput_at_places :
    (FieldPath.entry "a").text ≠ "" ∧
      ((FieldPath.entry "Add").key "inputs" |>.key "a").text ≠ "" ∧
      ((check "a" repeatingInput).inside (.entry "a")).diagnostics =
        [⟨"a.type[1]", .repeatedType "int"⟩] ∧
      ((check "a" repeatingInput).inside (.entry "a")).AlikeBelow "a" "Add.inputs.a"
        ((check "a" repeatingInput).inside ((FieldPath.entry "Add").key "inputs" |>.key "a")) ∧
      ([("inputs", .object [("a", repeatingInput)])] : List (String × Json)).lookup
        (Keyword.word Section.inputs) = some (.object [("a", repeatingInput)]) ∧
      [⟨"Add.inputs.a.type[1]", .repeatedType "int"⟩] <:+:
        ((Stage.attributes.run .standard
          ⟨"Add", [("inputs", .object [("a", repeatingInput)])]⟩ (Node.ofName "Add")).inside
            (.entry "Add")).diagnostics := by
  obtain ⟨alike, listed⟩ := check_same_at_places
  refine ⟨by decide, by decide, by decide +kernel, ?_, rfl, ?_⟩
  · exact alike "a" repeatingInput (.entry "a") (((FieldPath.entry "Add").key "inputs").key "a")
      (by decide) (by decide)
  · have reported := listed .standard ⟨"Add", [("inputs", .object [("a", repeatingInput)])]⟩
      (Node.ofName "Add") .inputs [("a", repeatingInput)] rfl
    have written : ((Member.withoutComments [("a", repeatingInput)]).flatMap fun member =>
        ((check member.1 member.2).inside (Entry.attributePath
          ⟨"Add", [("inputs", .object [("a", repeatingInput)])]⟩ .inputs member.1)).diagnostics) =
          [⟨"Add.inputs.a.type[1]", .repeatedType "int"⟩] := by decide +kernel
    rwa [written] at reported

end Attribute

end NodeDescriptor
