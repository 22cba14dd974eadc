import NodeDescriptor.Diagnostic.Report
import NodeDescriptor.Proofs.Legality.Forms
import NodeDescriptor.Proofs.RoundTrip.Records

/-!
# Diagnostics that were written

A diagnostic is written as one object: its kind, its path and what the problem carries. An object is
loaded as a diagnostic exactly if it has all of these members, whatever else it has and in whatever
order; so diagnostics and reports come back as they were written.
-/

set_option autoImplicit false

namespace NodeDescriptor

private theorem Record.required?_asString?_iff {members : List (String × Json)}
    {name text : String} :
    required? members name Json.asString? = some text ↔
      members.lookup name = some (.string text) := by
  rw [required?, Option.bind_eq_some_iff]
  simp only [Json.asString?_eq_some_iff, exists_eq_right]

private theorem Record.required?_keyword?_iff {α : Type} [Keyword α]
    {members : List (String × Json)}
    {name : String} {word : α} :
    required? members name keyword? = some word ↔
      members.lookup name = some (ofKeyword word) := by
  rw [required?, Option.bind_eq_some_iff]
  simp only [Json.keyword?_eq_some_iff, exists_eq_right]
  rfl

namespace Diagnostic

open Record

variable {members : List (String × Json)} {diagnostic : Diagnostic}

/-! ## Problems -/

/-- A problem is loaded from members that hold what it carries: nothing, one text or two. -/
private theorem loadProblem?_eq_some_iff {kind : ProblemKind} {problem : Problem} :
    loadProblem? members kind = some problem ↔
      problem.kind = kind ∧
        ∀ entry ∈ problem.payload, members.lookup entry.1 = some (.string entry.2) := by
  constructor
  · intro read
    cases kind with
    | missing =>
        cases read
        exact ⟨rfl, List.forall_mem_nil _⟩
    | wrongShape | unknownType | repeatedType | illegalExclude | redundantScheduling =>
        obtain ⟨text, found, rfl⟩ := Option.map_eq_some_iff.mp read
        exact ⟨rfl, List.forall_mem_singleton.mpr (required?_asString?_iff.mp found)⟩
    | defaultMisfit | boundMisfit | unresolvedReference =>
        obtain ⟨first, foundFirst, rest⟩ := Option.bind_eq_some_iff.mp read
        obtain ⟨second, foundSecond, made⟩ := Option.bind_eq_some_iff.mp rest
        cases made
        refine ⟨rfl, List.forall_mem_cons.mpr ⟨?_, List.forall_mem_singleton.mpr ?_⟩⟩
        · exact required?_asString?_iff.mp foundFirst
        · exact required?_asString?_iff.mp foundSecond
  · rintro ⟨rfl, stored⟩
    cases problem with
    | missing => rfl
    | wrongShape text | unknownType text | repeatedType text | illegalExclude text
    | redundantScheduling text =>
        have found := required?_asString?_iff.mpr (stored _ List.mem_cons_self)
        exact Option.map_eq_some_iff.mpr ⟨text, found, rfl⟩
    | defaultMisfit first second | boundMisfit first second | unresolvedReference first second =>
        obtain ⟨storedFirst, rest⟩ := List.forall_mem_cons.mp stored
        have foundFirst := required?_asString?_iff.mpr storedFirst
        have foundSecond := required?_asString?_iff.mpr (rest _ List.mem_cons_self)
        exact bind_of_loaded foundFirst (bind_of_loaded foundSecond rfl)

/-! ## Diagnostics -/

/-- The members that a diagnostic is written as. -/
def written (diagnostic : Diagnostic) : List (String × Json) :=
  [("kind", ofKeyword diagnostic.kind), ("path", .string diagnostic.path)] ++
    diagnostic.problem.payload.map fun entry => (entry.1, .string entry.2)

theorem toJson_eq_written (diagnostic : Diagnostic) :
    diagnostic.toJson = .object diagnostic.written := rfl

/-- No problem carries anything under the names of the kind and the path. -/
private theorem nodup_keys_written (diagnostic : Diagnostic) :
    (Entries.keys diagnostic.written).Nodup := by
  obtain ⟨path, problem⟩ := diagnostic
  cases problem <;> simp [written, Problem.payload]

theorem lookup_written {member : String × Json} (listed : member ∈ diagnostic.written) :
    diagnostic.written.lookup member.1 = some member.2 :=
  (Entries.lookup_eq_some_iff_mem diagnostic.nodup_keys_written).mpr listed

private theorem ofJson?_object_iff :
    ofJson? (.object members) = some diagnostic ↔
      ∀ member ∈ diagnostic.written, members.lookup member.1 = some member.2 := by
  have stored : (∀ member ∈ diagnostic.written, members.lookup member.1 = some member.2) ↔
      members.lookup "kind" = some (ofKeyword diagnostic.kind) ∧
        members.lookup "path" = some (.string diagnostic.path) ∧
          ∀ entry ∈ diagnostic.problem.payload,
            members.lookup entry.1 = some (.string entry.2) := by
    rw [written, List.cons_append, List.cons_append, List.nil_append, List.forall_mem_cons,
      List.forall_mem_cons, List.forall_mem_map]
  rw [stored]
  constructor
  · intro read
    obtain ⟨kind, foundKind, read⟩ := Option.bind_eq_some_iff.mp read
    obtain ⟨path, foundPath, read⟩ := Option.bind_eq_some_iff.mp read
    obtain ⟨problem, loaded, made⟩ := Option.bind_eq_some_iff.mp read
    cases made
    obtain ⟨rfl, carried⟩ := loadProblem?_eq_some_iff.mp loaded
    exact ⟨required?_keyword?_iff.mp foundKind, required?_asString?_iff.mp foundPath, carried⟩
  · rintro ⟨storedKind, storedPath, carried⟩
    have isObject : (Json.object members).asObject? = some members := rfl
    have loaded := loadProblem?_eq_some_iff.mpr ⟨rfl, carried⟩
    refine bind_of_loaded isObject ?_
    refine bind_of_loaded (required?_keyword?_iff.mpr storedKind) ?_
    exact bind_of_loaded (required?_asString?_iff.mpr storedPath) (bind_of_loaded loaded rfl)

theorem ofJson?_toJson (diagnostic : Diagnostic) :
    ofJson? diagnostic.toJson = some diagnostic := by
  rw [toJson_eq_written]
  exact ofJson?_object_iff.mpr fun _ listed => lookup_written listed

/-- The value is an object that says of which kind the diagnostic is and where it points. -/
def IsTaggedBy (diagnostic : Diagnostic) (value : Json) : Prop :=
  ∃ members, value = .object members ∧ (Entries.keys members).Nodup ∧
    members.lookup "kind" = some (.string (Keyword.word diagnostic.kind)) ∧
    members.lookup "path" = some (.string diagnostic.path)

private theorem isTaggedBy_toJson (diagnostic : Diagnostic) :
    diagnostic.IsTaggedBy diagnostic.toJson :=
  ⟨diagnostic.written, diagnostic.toJson_eq_written, diagnostic.nodup_keys_written, rfl, rfl⟩

end Diagnostic

/-! ## Reports -/

namespace Report

def written (report : Report) : List (String × Option Json) :=
  [("diagnostics", some (.array (report.diagnostics.map Diagnostic.toJson)))]

theorem ofJson?_toJson (report : Report) : ofJson? report.toJson = some report := by
  have distinct : (report.written.map Prod.fst).Nodup := List.nodup_singleton _
  have shape : report.toJson = .object (Record.members report.written) := rfl
  have loaded : Record.list? Diagnostic.ofJson?
      (.array (report.diagnostics.map Diagnostic.toJson)) = some (report.diagnostics.map id) :=
    Record.list?_array fun diagnostic _ => diagnostic.ofJson?_toJson
  rw [List.map_id] at loaded
  have diagnostics : Record.required? (Record.members report.written) "diagnostics"
      (Record.list? Diagnostic.ofJson?) = some report.diagnostics :=
    Record.required?_of_lookup _ (Record.lookup_members distinct (List.mem_singleton_self _)) loaded
  rw [ofJson?, shape]
  refine Record.bind_of_loaded (Record.open?_members distinct ["diagnostics"]) ?_
  exact Record.bind_of_loaded diagnostics rfl

/-- A report is loaded as it was written, all its diagnostics in order; each of them is written as
an object tagged with its kind and its path; and an object is loaded as a diagnostic exactly if
every member that the diagnostic is written with is found unchanged in it. -/
theorem diagnostics_survive :
    (∀ report : Report, ofJson? report.toJson = some report) ∧
      (∀ report : Report, ∃ items, report.toJson = .object [("diagnostics", .array items)] ∧
        List.Forall₂ Diagnostic.IsTaggedBy report.diagnostics items) ∧
      ∀ (members : List (String × Json)) (diagnostic : Diagnostic),
        Diagnostic.ofJson? (.object members) = some diagnostic ↔
          ∃ written, diagnostic.toJson = .object written ∧
            ∀ member ∈ written, members.lookup member.1 = some member.2 := by
  refine ⟨ofJson?_toJson, fun report => ⟨_, rfl, ?_⟩, fun members diagnostic => ?_⟩
  · rw [List.forall₂_map_right_iff, List.forall₂_same]
    exact fun diagnostic _ => diagnostic.isTaggedBy_toJson
  · rw [Diagnostic.ofJson?_object_iff, Diagnostic.toJson_eq_written]
    constructor
    · intro stored
      exact ⟨diagnostic.written, rfl, stored⟩
    · rintro ⟨written, same, stored⟩
      cases same
      exact stored

/-- The members of a diagnostic in another order, and one that is none of them. -/
def looseMembers : List (String × Json) :=
  [("note", .null), ("expected", .string "a list"), ("path", .string "N.tags"),
    ("kind", .string "WrongFieldShape")]

theorem looseMembers_kept :
    Diagnostic.ofJson? (.object looseMembers) = some ⟨"N.tags", .wrongShape "a list"⟩ ∧
      ∃ written, Diagnostic.toJson ⟨"N.tags", .wrongShape "a list"⟩ = .object written ∧
        ∀ member ∈ written, looseMembers.lookup member.1 = some member.2 := by
  obtain ⟨-, -, loaded⟩ := diagnostics_survive
  have read : Diagnostic.ofJson? (.object looseMembers) =
      some ⟨"N.tags", .wrongShape "a list"⟩ := by decide
  exact ⟨read, (loaded _ _).mp read⟩

end Report

end NodeDescriptor
