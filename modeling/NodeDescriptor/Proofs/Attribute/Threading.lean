import NodeDescriptor.Proofs.Attribute.Location

/-!
# Attributes with their paths

`Attribute.checkAt` is given the path of the attribute and hands the path of every member on to what
reads the member, so that each finding is made with its whole path. The check that knows nothing of
its place finds the same things in the same order, and all that it lacks is the path before them.
-/

set_option autoImplicit false

namespace NodeDescriptor

/-! ## Reading with a path -/

/-- No value, because of a problem with the value at a path. -/
def Checked.refusedAt {α : Type} (path : FieldPath) (problem : Problem) : Checked (Option α) :=
  ⟨none, [⟨path, problem⟩]⟩

namespace Member

variable {α : Type}

/-- The value at a path in the form that is read, or the expected form in words. -/
def formAt (form? : Json → Option α) (expected : String) (path : FieldPath) (value : Json) :
    Checked (Option α) :=
  match form? value with
  | some result => .clean (some result)
  | none => .refusedAt path (.wrongShape expected)

/-- Check the member `key` of the object at a path if it is there. -/
def optionalAt (path : FieldPath) (members : List (String × Json)) (key : String)
    (check : FieldPath → Json → Checked (Option α)) : Checked (Option α) :=
  match members.lookup key with
  | some value => check (path.key key) value
  | none => .clean none

/-- Check the member `key` of the object at a path, which has to be there. -/
def requiredAt (path : FieldPath) (members : List (String × Json)) (key : String)
    (check : FieldPath → Json → Checked (Option α)) : Checked (Option α) :=
  match members.lookup key with
  | some value => check (path.key key) value
  | none => .refusedAt (path.key key) .missing

end Member

namespace Attribute

/-- Read the items of a list of types at a path from a position on, given the types before it. -/
def typeItemsAt (path : FieldPath) (position : Nat) (before : List DataType) :
    List Json → Checked (List DataType)
  | [] => .clean before
  | item :: rest =>
      match typeOfItem before item with
      | .ok type => typeItemsAt path (position + 1) (before ++ [type]) rest
      | .error problem =>
          let others := typeItemsAt path (position + 1) before rest
          ⟨others.value, ⟨path.index position, problem⟩ :: others.findings⟩

/-- Read the type at a path. -/
def typeAt (path : FieldPath) : Json → Checked (Option AttributeType)
  | .string text =>
      match DataType.parse text with
      | .ok type => .clean (some (.one type))
      | .error unknown => .refusedAt path (.unknownType unknown.token)
  | .array (item :: rest) =>
      let types := typeItemsAt path 0 [] (item :: rest)
      ⟨if types.findings.isEmpty then AttributeType.ofTypes? types.value else none, types.findings⟩
  | _ => .refusedAt path (.wrongShape "a type name or a non-empty list of type names")

/-- The problem with a member of the object at a path, if the member is there and does not fit. -/
def misfitsAt (fits : Json → Bool) (problem : Problem) (path : FieldPath)
    (members : List (String × Json)) (key : String) : List Finding :=
  match members.lookup key with
  | none => []
  | some value => if fits value then [] else [⟨path.key key, problem⟩]

/-- Compare the default and the bounds with the type; nothing is compared with no type. -/
def valueFindings (type : Option AttributeType) (path : FieldPath)
    (members : List (String × Json)) : List Finding :=
  match type with
  | none => []
  | some type =>
      misfitsAt type.acceptsValue
          (.defaultMisfit type.text (AttributeType.describe type.valueShapes)) path members
          "default" ++
        ["minimum", "maximum"].flatMap
          (misfitsAt type.acceptsBound
            (.boundMisfit type.text (AttributeType.describe type.boundShapes)) path members)

/-- Read the metadata at a path: comments are dropped, and the keys with a meaning are judged. -/
def metadataAt (path : FieldPath) : Json → Checked (Option Metadata)
  | .object members =>
      let kept := Member.withoutComments members
      ⟨some (Dict.ofList kept),
        kept.filterMap fun member =>
          (metadataProblem? member.1 member.2).map fun problem => ⟨path.key member.1, problem⟩⟩
  | _ => .refusedAt path (.wrongShape "an object")

/-- Read the attribute called `name` at a path; there is none when anything is wrong with it. -/
def checkAt (path : FieldPath) (name : String) : Json → Checked (Option Attribute)
  | .object members =>
      let lines := Member.requiredAt path members "description"
        (Member.formAt Json.strings? "a string or a list of strings")
      let type := Member.requiredAt path members "type" typeAt
      let optional := Member.optionalAt path members "optional"
        (Member.formAt Json.asBool? "a boolean")
      let unvalidated := Member.optionalAt path members "unvalidated"
        (Member.formAt Json.asBool? "a boolean")
      let deprecated := Member.optionalAt path members "deprecated"
        (Member.formAt Json.strings? "a string or a list of strings")
      let uiName := Member.optionalAt path members "uiName"
        (Member.formAt Json.asString? "a string")
      let memoryType := Member.optionalAt path members "memoryType"
        (Member.formAt Record.keyword? "one of cpu, cuda, any")
      let metadata := Member.optionalAt path members "metadata" metadataAt
      let findings := lines.findings ++ type.findings ++
        valueFindings type.value path members ++ optional.findings ++ unvalidated.findings ++
          deprecated.findings ++ uiName.findings ++ memoryType.findings ++ metadata.findings
      ⟨match lines.value, type.value with
        | some lines, some type =>
            if findings.any Finding.isError then none
            else some {
              name
              description := Text.joined "\n" lines
              type
              default := members.lookup "default"
              optional := optional.value.getD false
              deprecated := deprecated.value.getD []
              memoryType := memoryType.value
              minimum := members.lookup "minimum"
              maximum := members.lookup "maximum"
              metadata := metadata.value.getD .empty
              uiName := uiName.value
              unvalidated := unvalidated.value.getD false }
        | _, _ => none, findings⟩
  | _ => .refusedAt path (.wrongShape "an attribute object")

end Attribute

/-! ## What the path adds -/

private theorem Checked.refusedAt_eq {α : Type} (path : FieldPath) (problem : Problem) :
    (refusedAt path problem : Checked (Option α)) = (refused problem).inside path := by
  simp [refusedAt, refused, inside, Finding.inside, Finding.here, FieldPath.inside, FieldPath.root]

private theorem Checked.inside_entry_inside {α : Type} (path : FieldPath) (key : String)
    (checked : Checked α) : (checked.inside (.entry key)).inside path =
      checked.inside (path.key key) := by
  simp only [inside, List.map_map, Checked.mk.injEq, true_and]
  refine List.map_congr_left fun finding _ => ?_
  simp only [Function.comp_apply, Finding.inside, FieldPath.inside_entry_inside]

namespace Member

variable {α : Type} {path : FieldPath} {members : List (String × Json)} {key : String}

private theorem formAt_eq (form? : Json → Option α) (expected : String) (path : FieldPath)
    (value : Json) :
    formAt form? expected path value = (form form? expected value).inside path := by
  unfold formAt form
  cases form? value with
  | some result => rfl
  | none => exact Checked.refusedAt_eq path _

variable {checkAt : FieldPath → Json → Checked (Option α)} {check : Json → Checked (Option α)}

private theorem optionalAt_eq
    (same : ∀ path value, checkAt path value = (check value).inside path) :
    optionalAt path members key checkAt = (optional members key check).inside path := by
  unfold optionalAt optional
  cases members.lookup key with
  | some value => exact (same _ value).trans (Checked.inside_entry_inside path key _).symm
  | none => rfl

private theorem requiredAt_eq
    (same : ∀ path value, checkAt path value = (check value).inside path) :
    requiredAt path members key checkAt = (required members key check).inside path := by
  unfold requiredAt required
  cases members.lookup key with
  | some value => exact (same _ value).trans (Checked.inside_entry_inside path key _).symm
  | none => exact (Checked.refusedAt_eq _ _).trans (Checked.inside_entry_inside path key _).symm

private theorem required_map {β : Type} (f : Option α → Option β) (absent : f none = none) :
    required members key (fun value => (check value).map f) =
      (required members key check).map f := by
  unfold required
  cases members.lookup key with
  | some value => rfl
  | none => simp [Checked.map, Checked.inside, Checked.refused, absent]

end Member

namespace Attribute

variable {path : FieldPath} {members : List (String × Json)} {key : String}

private theorem typeItemsAt_eq (path : FieldPath) (position : Nat) (before : List DataType)
    (items : List Json) :
    typeItemsAt path position before items =
      (checkTypeItems position before items).inside path := by
  induction items generalizing position before with
  | nil => rfl
  | cons item rest ih =>
      rw [typeItemsAt, checkTypeItems]
      cases typeOfItem before item with
      | ok type => exact ih _ _
      | error problem =>
          simp only [ih]
          rfl

private theorem typeAt_eq (path : FieldPath) (value : Json) :
    typeAt path value = (checkType value).inside path := by
  cases value with
  | string text =>
      rw [typeAt, checkType]
      cases DataType.parse text with
      | ok type => rfl
      | error unknown => exact Checked.refusedAt_eq path _
  | array items =>
      cases items with
      | nil => exact Checked.refusedAt_eq path _
      | cons item rest =>
          simp only [typeAt, checkType, typeItemsAt_eq, Checked.inside, List.isEmpty_map]
  | null | bool | number | object => exact Checked.refusedAt_eq path _

private theorem metadataAt_eq (path : FieldPath) (value : Json) :
    metadataAt path value = (checkMetadata value).inside path := by
  cases value with
  | object members =>
      simp only [metadataAt, checkMetadata, Checked.inside, List.map_filterMap, Option.map_map]
      rfl
  | null | bool | number | string | array => exact Checked.refusedAt_eq path _

private theorem findings_optional {check : Json → Checked (Option Json)} :
    (Member.optional members key check).findings = match members.lookup key with
      | none => []
      | some value => (check value).findings.map (Finding.inside (.entry key)) := by
  unfold Member.optional
  cases members.lookup key <;> rfl

private theorem misfitsAt_eq {fits : Json → Bool} {problem : Problem}
    {check : Json → Checked (Option Json)}
    (compared : ∀ value,
      (check value).findings = if fits value then [] else [.here problem]) :
    misfitsAt fits problem path members key =
      (Member.optional members key check).findings.map (Finding.inside path) := by
  rw [misfitsAt, findings_optional]
  cases members.lookup key with
  | none => rfl
  | some value =>
      simp only [compared]
      cases fits value <;> rfl

/-- The comparisons that are made together when the type is known are those of the members. -/
private theorem valueFindings_eq (type : Option AttributeType) (path : FieldPath)
    (members : List (String × Json)) :
    valueFindings type path members =
      ((Member.optional members "default" (checkDefault type)).findings ++
        (Member.optional members "minimum" (checkBound type)).findings ++
          (Member.optional members "maximum" (checkBound type)).findings).map
        (Finding.inside path) := by
  cases type with
  | none =>
      have silent (key : String) {check : Json → Checked (Option Json)}
          (nothing : ∀ value, (check value).findings = []) :
          (Member.optional members key check).findings = [] := by
        rw [findings_optional]
        cases members.lookup key with
        | none => rfl
        | some value => simp [nothing value]
      rw [silent "default" fun _ => rfl, silent "minimum" fun _ => rfl,
        silent "maximum" fun _ => rfl]
      rfl
  | some type =>
      have bound (key : String) := @misfitsAt_eq path members key _ _ (checkBound (some type))
        fun _ => rfl
      have default := @misfitsAt_eq path members "default" _ _ (checkDefault (some type))
        fun _ => rfl
      simp only [valueFindings, default, bound, List.flatMap_cons, List.flatMap_nil,
        List.append_nil, List.map_append, List.append_assoc]

private theorem value_optional {check : Json → Checked (Option Json)}
    (kept : ∀ value, (check value).value = some value) :
    (Member.optional members key check).value = members.lookup key := by
  unfold Member.optional
  cases members.lookup key with
  | none => rfl
  | some value => exact kept value

private theorem any_isError_inside (path : FieldPath) (findings : List Finding) :
    (findings.map (Finding.inside path)).any Finding.isError = findings.any Finding.isError := by
  rw [List.any_map]
  rfl

/-- Checking an attribute with its path finds what checking it alone finds, below the path. -/
theorem checkAt_eq (path : FieldPath) (name : String) (value : Json) :
    checkAt path name value = (check name value).inside path := by
  cases value with
  | null | bool | number | string | array => exact Checked.refusedAt_eq path _
  | object members =>
      have lines : Member.required members "description" checkDescription =
          (Member.required members "description" Member.strings).map
            (Option.map (Text.joined "\n")) :=
        Member.required_map (Option.map (Text.joined "\n")) rfl
      have strings : Member.requiredAt path members "description"
          (Member.formAt Json.strings? "a string or a list of strings") =
            (Member.required members "description" Member.strings).inside path :=
        Member.requiredAt_eq (Member.formAt_eq _ _)
      have type := @Member.requiredAt_eq _ path members "type" _ _ typeAt_eq
      have form {α : Type} {key : String} {form? : Json → Option α} {expected : String} :=
        @Member.optionalAt_eq _ path members key _ _ (Member.formAt_eq form? expected)
      have metadata := @Member.optionalAt_eq _ path members "metadata" _ _ metadataAt_eq
      have default (type : Option AttributeType) :=
        @value_optional members "default" (checkDefault type) fun _ => rfl
      have bound (key : String) (type : Option AttributeType) :=
        @value_optional members key (checkBound type) fun _ => rfl
      simp only [checkAt, strings, type, form, metadata, Checked.value_inside,
        Checked.findings_inside, valueFindings_eq, ← List.map_append, any_isError_inside]
      simp only [check, Checked.inside, Reading.findings, Reading.attribute?, Reading.ofMembers,
        lines, Checked.findings_map, Checked.value_map, default, bound, List.append_assoc]
      -- Without a description or a type no attribute is made, whatever else has been found.
      cases (Member.required members "description" Member.strings).value with
      | none => exact congrArg (Checked.mk · _) (ite_self none).symm
      | some lines =>
          cases (Member.required members "type" checkType).value with
          | none => exact congrArg (Checked.mk · _) (ite_self none).symm
          | some type => rfl

end Attribute

/-- The attributes of a section are checked with their paths in the document. -/
theorem AttributeSections.diagnostics_ofEntry_checkAt {entry : Entry} {part : Section}
    {attributes : List (String × Json)}
    (given : entry.members.lookup (Keyword.word part) = some (.object attributes)) :
    ((ofEntry entry part).inside (.entry entry.name)).diagnostics =
      (Member.withoutComments attributes).flatMap fun member =>
        (Attribute.checkAt (entry.attributePath part member.1) member.1 member.2).diagnostics := by
  simp only [Attribute.checkAt_eq, diagnostics_ofEntry given]

end NodeDescriptor
