import NodeDescriptor.Proofs.Attribute.TypeList
import NodeDescriptor.Proofs.Attribute.Verdict

/-!
# Alternatives one by one

A type that is given as a list stands for any of its alternatives. A default or a bound is found
wrong under the list exactly if it is found wrong under each alternative given alone, and nothing
else that is found about the attribute depends on which of these types it has. So another
alternative never makes a value wrong.
-/

set_option autoImplicit false

namespace NodeDescriptor.Attribute

open Member (Present)

variable {members others : List (String × Json)} {key : String} {path : FieldPath} {value : Json}
  {type otherType : AttributeType} {finding : Finding} {diagnostic : Diagnostic}

/-! ## Fitting values -/

/-- The value is as it has to be under a key, which is that of the default or of a bound. -/
def Fits (key : String) (type : AttributeType) (value : Json) : Prop :=
  if key = "default" then FitsType type value else FitsBound type value

/-- What is said of a value that is not as it has to be under a key. -/
def misfit (key : String) (type : AttributeType) : Problem :=
  if key = "default" then .defaultMisfit type.text (AttributeType.describe type.valueShapes)
  else .boundMisfit type.text (AttributeType.describe type.boundShapes)

def misfitKind (key : String) : ProblemKind :=
  if key = "default" then .defaultMisfit else .boundMisfit

private theorem fits_anyOf_iff {types : List DataType} {distinct : types.Nodup} :
    Fits key (.anyOf types distinct) value ↔
      ∃ alternative ∈ types, Fits key (.one alternative) value := by
  unfold Fits
  split <;> simp [FitsType, FitsBound, AttributeType.types]

private theorem kind_misfit : (misfit key type).kind = misfitKind key := by
  unfold misfit misfitKind
  split <;> rfl

private theorem mem_checkDefault_iff :
    finding ∈ (checkDefault (some type) value).findings ↔
      ¬FitsType type value ∧ finding = .here (misfit "default" type) := by
  rw [← acceptsValue_iff, checkDefault]
  split <;> simp_all [misfit]

private theorem mem_checkBound_iff (other : key ≠ "default") :
    finding ∈ (checkBound (some type) value).findings ↔
      ¬FitsBound type value ∧ finding = .here (misfit key type) := by
  rw [← acceptsBound_iff, checkBound]
  split <;> simp_all [misfit]

/-! ## Reports on values -/

private theorem mem_findings_optional_iff {check : Json → Checked (Option Json)} :
    finding ∈ (Member.optional members key check).findings ↔
      ∃ value, members.lookup key = some value ∧
        ∃ inner ∈ (check value).findings, finding = inner.inside (.entry key) := by
  unfold Member.optional
  cases members.lookup key with
  | none => simp
  | some value => simp [eq_comm]

private theorem value_type_of_present
    (typed : Present members "type" fun value => value.NamesType type) :
    (Reading.ofMembers members).type.value = some type := by
  obtain ⟨value, given, named⟩ := typed
  rw [Reading.type_ofMembers given, Checked.value_inside]
  exact value_checkType_eq_some_iff.mpr named

private theorem here_inside_entry (problem : Problem) :
    (Finding.here problem).inside (.entry key) = ⟨.entry key, problem⟩ := rfl

private theorem mem_about_fitted_iff
    (typed : Present members "type" fun value => value.NamesType type)
    (fitted : key ∈ fittedKeys) :
    finding ∈ (Reading.ofMembers members).about key ↔
      ∃ value, members.lookup key = some value ∧ ¬Fits key type value ∧
        finding = ⟨.entry key, misfit key type⟩ := by
  have read := value_type_of_present typed
  have default : finding ∈ (Member.optional members "default" (checkDefault (some type))).findings ↔
      ∃ value, members.lookup "default" = some value ∧ ¬Fits "default" type value ∧
        finding = ⟨.entry "default", misfit "default" type⟩ := by
    simp [mem_findings_optional_iff, mem_checkDefault_iff, here_inside_entry, Fits]
  have bound {key : String} (other : key ≠ "default") :
      finding ∈ (Member.optional members key (checkBound (some type))).findings ↔
        ∃ value, members.lookup key = some value ∧ ¬Fits key type value ∧
          finding = ⟨.entry key, misfit key type⟩ := by
    simp [mem_findings_optional_iff, mem_checkBound_iff other, here_inside_entry, Fits, other]
  rw [← read] at default bound
  simp only [fittedKeys, List.mem_cons, List.not_mem_nil, or_false] at fitted
  rcases fitted with rfl | rfl | rfl
  · exact default
  · exact bound (by decide)
  · exact bound (by decide)

/-- Under a readable type, the report on a default or a bound is that it does not fit. -/
private theorem mem_reports_fitted_iff
    (typed : Present members "type" fun value => value.NamesType type)
    (fitted : key ∈ fittedKeys) :
    diagnostic ∈ reports path members key ↔
      ∃ value, members.lookup key = some value ∧ ¬Fits key type value ∧
        diagnostic = ⟨(path.key key).text, misfit key type⟩ := by
  have written : ((⟨.entry key, misfit key type⟩ : Finding).inside path).diagnostic =
    ⟨(path.key key).text, misfit key type⟩ := rfl
  rw [reports, List.mem_map]
  simp only [mem_about_fitted_iff typed fitted]
  constructor
  · rintro ⟨_, ⟨value, given, unfit, rfl⟩, rfl⟩
    exact ⟨value, given, unfit, written⟩
  · rintro ⟨value, given, unfit, rfl⟩
    exact ⟨_, ⟨value, given, unfit, rfl⟩, written⟩

/-! ## Misfits -/

/-- The check of an attribute at a path says of the member under a key that it does not fit. -/
def ReportsMisfit (name : String) (path : FieldPath) (members : List (String × Json))
    (key : String) : Prop :=
  ∃ diagnostic ∈ ((check name (.object members)).inside path).diagnostics,
    diagnostic.path = (path.key key).text ∧ diagnostic.kind = misfitKind key

instance (name : String) (path : FieldPath) (members : List (String × Json)) (key : String) :
    Decidable (ReportsMisfit name path members key) :=
  inferInstanceAs (Decidable (∃ diagnostic ∈ _, _ ∧ _))

private theorem eq_of_isWithin {other : String} (fitted : key ∈ fittedKeys)
    (within : diagnostic.IsWithin (path.key other).text)
    (here : diagnostic.path = (path.key key).text) : other = key := by
  obtain ⟨suffix, longer, separated⟩ := within
  have spelled : key = other ++ suffix := by
    rw [here, FieldPath.text_key, FieldPath.text_key] at longer
    split at longer
    · exact longer
    · exact (String.append_right_inj _).mp (longer.trans String.append_assoc)
  -- The keys of the default and the bounds are without points and brackets, so none of their paths
  -- lies inside the member under another key.
  have plain : ∀ key ∈ fittedKeys, '.' ∉ key.toList ∧ '[' ∉ key.toList := by decide
  obtain ⟨noPoint, noBracket⟩ := plain key fitted
  rcases separated with rfl | ⟨rest, rfl⟩ | ⟨rest, rfl⟩
  · rw [spelled, String.append_empty]
  · exact absurd (by simp [spelled]) noPoint
  · exact absurd (by simp [spelled]) noBracket

variable {name : String}

private theorem reportsMisfit_iff (typed : Present members "type" fun value => value.NamesType type)
    (fitted : key ∈ fittedKeys) :
    ReportsMisfit name path members key ↔
      ∃ value, members.lookup key = some value ∧ ¬Fits key type value := by
  unfold ReportsMisfit
  rw [diagnostics_eq_flatMap]
  constructor
  · rintro ⟨diagnostic, found, here, -⟩
    obtain ⟨other, -, reported⟩ := List.mem_flatMap.mp found
    obtain rfl := eq_of_isWithin fitted (isWithin_of_mem_reports reported) here
    obtain ⟨value, given, unfit, -⟩ := (mem_reports_fitted_iff typed fitted).mp reported
    exact ⟨value, given, unfit⟩
  · rintro ⟨value, given, unfit⟩
    have reportedKey : ∀ key ∈ fittedKeys, key ∈ reportedKeys := by decide
    exact ⟨_, List.mem_flatMap.mpr ⟨key, reportedKey key fitted,
      (mem_reports_fitted_iff typed fitted).mpr ⟨value, given, unfit, rfl⟩⟩, rfl, kind_misfit⟩

/-! ## Everything else -/

/-- What the check of an attribute at a path reports at places other than those of the default and
the bounds. -/
def reportsElsewhere (name : String) (path : FieldPath) (members : List (String × Json)) :
    List Diagnostic :=
  ((check name (.object members)).inside path).diagnostics.filter fun diagnostic =>
    diagnostic.path ∉ fittedKeys.map fun key => (path.key key).text

private theorem reports_type_eq_nil
    (typed : Present members "type" fun value => value.NamesType type) :
    reports path members "type" = [] := by
  obtain ⟨value, given, named⟩ := typed
  have silent : (checkType value).findings = [] :=
    Grave.eq_nil_of_faultless grave_checkType (faultless_checkType.mpr ⟨type, named⟩)
  rw [reports_type path given, Checked.diagnostics, Checked.findings_inside, silent]
  rfl

private theorem filter_reports_fitted
    (typed : Present members "type" fun value => value.NamesType type)
    (fitted : key ∈ fittedKeys) :
    (reports path members key).filter (fun diagnostic =>
      diagnostic.path ∉ fittedKeys.map fun key => (path.key key).text) = [] := by
  refine List.filter_eq_nil_iff.mpr fun diagnostic reported => ?_
  obtain ⟨value, -, -, rfl⟩ := (mem_reports_fitted_iff typed fitted).mp reported
  have excluded : (path.key key).text ∈ fittedKeys.map fun key => (path.key key).text :=
    List.mem_map_of_mem fitted
  simpa using excluded

/-- What is found elsewhere does not depend on which type the attribute has. -/
private theorem reportsElsewhere_eq
    (typed : Present members "type" fun value => value.NamesType type)
    (otherTyped : Present others "type" fun value => value.NamesType otherType)
    (same : ∀ key, key ≠ "type" → members.lookup key = others.lookup key) :
    reportsElsewhere name path members = reportsElsewhere name path others := by
  unfold reportsElsewhere
  rw [diagnostics_eq_flatMap, diagnostics_eq_flatMap, List.filter_flatMap, List.filter_flatMap]
  refine List.flatMap_congr fun key _ => ?_
  by_cases fitted : key ∈ fittedKeys
  · rw [filter_reports_fitted typed fitted, filter_reports_fitted otherTyped fitted]
  · by_cases isType : key = "type"
    · rw [isType, reports_type_eq_nil typed, reports_type_eq_nil otherTyped]
    · rw [reports, reports, Reading.about_congr (same key isType) fun fits => absurd fits fitted]

/-! ## Lists of types -/

/-- The texts name types, each another one. -/
structure AreTypeNames (texts : List String) : Prop where
  nonempty : texts ≠ []
  distinct : texts.Nodup
  read : ∀ text ∈ texts, ∃ type, DataType.parse text = .ok type

variable {texts longer : List String}

private theorem areTypeNames_iff : AreTypeNames texts ↔
    ∃ types : List DataType, types ≠ [] ∧ types.Nodup ∧ texts = types.map DataType.text := by
  constructor
  · intro named
    have spelled : texts ∈ Set.range (List.map DataType.text) := by
      rw [Set.range_list_map]
      intro text listed
      obtain ⟨type, read⟩ := named.read text listed
      exact ⟨type, DataType.parse_eq_ok_iff.mp read⟩
    obtain ⟨types, rfl⟩ := spelled
    exact ⟨types, fun none => named.nonempty (by rw [none, List.map_nil]),
      List.Nodup.of_map _ named.distinct, rfl⟩
  · rintro ⟨types, nonempty, distinct, rfl⟩
    exact ⟨List.map_eq_nil_iff.not.mpr nonempty,
      distinct.map fun _ _ same => DataType.text_injective same,
      List.forall_mem_map.mpr fun type _ => ⟨type, DataType.parse_text type⟩⟩

/-- The same members with this value for a type. -/
def withType (members : List (String × Json)) (value : Json) : List (String × Json) :=
  Entries.put members "type" value

private theorem present_withType (named : value.NamesType type) :
    Present (withType members value) "type" fun value => value.NamesType type :=
  ⟨value, Entries.lookup_put_self members "type" value, named⟩

private theorem lookup_withType (other : key ≠ "type") :
    (withType members value).lookup key = members.lookup key :=
  Entries.lookup_put_of_ne other members value

private theorem namesType_ofStrings {types : List DataType} (nonempty : types ≠ [])
    (distinct : types.Nodup) :
    (Json.ofStrings (types.map DataType.text)).NamesType (.anyOf types distinct) := by
  rw [Json.ofStrings, List.map_map]
  exact .anyOf nonempty distinct

private theorem reportsMisfit_withType_iff (named : value.NamesType type)
    (fitted : key ∈ fittedKeys) :
    ReportsMisfit name path (withType members value) key ↔
      ∃ given, members.lookup key = some given ∧ ¬Fits key type given := by
  have other : key ≠ "type" := by
    rintro rfl
    exact absurd fitted (by decide)
  rw [reportsMisfit_iff (present_withType named) fitted, lookup_withType other]

private theorem reportsMisfit_anyOf_iff {types : List DataType} {distinct : types.Nodup}
    (typed : Present members "type" fun value => value.NamesType (.anyOf types distinct))
    (nonempty : types ≠ []) (fitted : key ∈ fittedKeys) :
    ReportsMisfit name path members key ↔
      ∀ alternative ∈ types,
        ReportsMisfit name path (withType members (.string alternative.text)) key := by
  simp only [reportsMisfit_iff typed fitted, reportsMisfit_withType_iff (.one _) fitted,
    fits_anyOf_iff]
  constructor
  · rintro ⟨value, given, unfit⟩ alternative listed
    exact ⟨value, given, fun fits => unfit ⟨alternative, listed, fits⟩⟩
  · intro unfit
    obtain ⟨first, listed⟩ := List.exists_mem_of_ne_nil types nonempty
    obtain ⟨value, given, -⟩ := unfit first listed
    refine ⟨value, given, ?_⟩
    rintro ⟨alternative, listed, fits⟩
    -- All alternatives are failed by the one value that is given.
    obtain ⟨same, again, unfits⟩ := unfit alternative listed
    obtain rfl : value = same := Option.some.inj (given.symm.trans again)
    exact unfits fits

/-- A default or a bound is wrong under a list of types exactly if it is wrong under each of them
alone, what is found elsewhere is the same under all of them, and more types make nothing wrong. -/
theorem alternatives_one_by_one (name : String) (path : FieldPath)
    (listed : members.lookup "type" = some (.ofStrings texts))
    (named : AreTypeNames texts) :
    (∀ key ∈ fittedKeys, ReportsMisfit name path members key ↔
      ∀ text ∈ texts, ReportsMisfit name path (withType members (.string text)) key) ∧
    (∀ text ∈ texts, reportsElsewhere name path (withType members (.string text)) =
      reportsElsewhere name path members) ∧
    ∀ longer, AreTypeNames longer → texts ⊆ longer → ∀ key ∈ fittedKeys,
      ReportsMisfit name path (withType members (.ofStrings longer)) key →
        ReportsMisfit name path members key := by
  obtain ⟨types, nonempty, distinct, rfl⟩ := areTypeNames_iff.mp named
  have typed : Present members "type" fun value => value.NamesType (.anyOf types distinct) :=
    ⟨_, listed, namesType_ofStrings nonempty distinct⟩
  refine ⟨?_, ?_, ?_⟩
  · intro key fitted
    rw [reportsMisfit_anyOf_iff typed nonempty fitted, List.forall_mem_map]
  · intro text among
    obtain ⟨alternative, -, rfl⟩ := List.mem_map.mp among
    exact reportsElsewhere_eq (present_withType (.one alternative)) typed
      fun key other => lookup_withType other
  · intro longer moreNamed more key fitted wrong
    obtain ⟨moreTypes, moreNonempty, moreDistinct, rfl⟩ := areTypeNames_iff.mp moreNamed
    obtain ⟨value, given, unfit⟩ :=
      (reportsMisfit_withType_iff (namesType_ofStrings moreNonempty moreDistinct) fitted).mp wrong
    refine (reportsMisfit_iff typed fitted).mpr ⟨value, given, fun fits => unfit ?_⟩
    obtain ⟨alternative, among, fits⟩ := fits_anyOf_iff.mp fits
    have kept : alternative ∈ moreTypes :=
      (List.mem_map_of_injective fun _ _ same => DataType.text_injective same).mp
        (more (List.mem_map_of_mem among))
    exact fits_anyOf_iff.mpr ⟨alternative, kept, fits⟩

def pointOrCountMembers : List (String × Json) :=
  [("type", .ofStrings ["float[3]", "int"]), ("default", .ofNat 0),
    ("minimum", .array [.ofNat 1, .ofNat 2]), ("metadata", .object [("hidden", .ofNat 3)])]

/-- The default is a count but no point, so it is right under the list and under any longer one. The
minimum is neither. -/
theorem pointOrCountMembers_misfits :
    pointOrCountMembers.lookup "type" = some (.ofStrings ["float[3]", "int"]) ∧
      AreTypeNames ["float[3]", "int"] ∧ AreTypeNames ["string", "int", "float[3]"] ∧
      ["float[3]", "int"] ⊆ ["string", "int", "float[3]"] ∧
      ReportsMisfit "a" (.entry "a") (withType pointOrCountMembers (.string "float[3]")) "default" ∧
      ¬ReportsMisfit "a" (.entry "a") pointOrCountMembers "default" ∧
      ReportsMisfit "a" (.entry "a") pointOrCountMembers "minimum" ∧
      reportsElsewhere "a" (.entry "a") pointOrCountMembers =
        [⟨"a.description", .missing⟩,
          ⟨"a.metadata.hidden", .wrongShape "\"1\", \"0\", \"true\", \"false\" or a boolean"⟩] ∧
      ¬ReportsMisfit "a" (.entry "a")
        (withType pointOrCountMembers (.ofStrings ["string", "int", "float[3]"])) "default" := by
  have named : AreTypeNames ["float[3]", "int"] :=
    areTypeNames_iff.mpr ⟨[.single (.tuple .float 3 (by decide)), .single (.base .int)],
      by decide, by decide, by decide⟩
  have moreNamed : AreTypeNames ["string", "int", "float[3]"] :=
    areTypeNames_iff.mpr ⟨[.single (.base .string), .single (.base .int),
      .single (.tuple .float 3 (by decide))], by decide, by decide, by decide⟩
  have more : ["float[3]", "int"] ⊆ ["string", "int", "float[3]"] := by decide
  obtain ⟨alone, elsewhere, longer⟩ :=
    alternatives_one_by_one "a" (.entry "a")
      (rfl : pointOrCountMembers.lookup "type" = some (.ofStrings ["float[3]", "int"])) named
  have count : ¬ReportsMisfit "a" (.entry "a")
      (withType pointOrCountMembers (.string "int")) "default" := by decide +kernel
  have right : ¬ReportsMisfit "a" (.entry "a") pointOrCountMembers "default" := fun wrong =>
    count ((alone "default" (by decide)).mp wrong "int" (by decide))
  refine ⟨rfl, named, moreNamed, more, by decide +kernel, right, ?_, ?_,
    fun wrong => right (longer _ moreNamed more "default" (by decide) wrong)⟩
  · refine (alone "minimum" (by decide)).mpr ?_
    decide +kernel
  · rw [← elsewhere "int" (by decide)]
    decide +kernel

end NodeDescriptor.Attribute
