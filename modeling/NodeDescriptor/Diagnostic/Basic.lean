import NodeDescriptor.Diagnostic.FieldPath
import NodeDescriptor.Json.Record
import NodeDescriptor.Text.Split

/-!
# Diagnostics

A diagnostic is a problem at a place of the document. The place is kept as the text of its
path, since diagnostics are also loaded from elsewhere. All problems are errors, which keep
their entry out of the model, except redundant scheduling flags, which are only warned about.

Each problem has a kind, a message and for some kinds a suggestion how to mend it. In JSON a
diagnostic is one object: its kind, its path, and what the problem carries.
-/

set_option autoImplicit false

namespace NodeDescriptor

/-- The kind of a problem, without what it carries. -/
inductive ProblemKind where
  | missing
  | wrongShape
  | unknownType
  | repeatedType
  | defaultMisfit
  | boundMisfit
  | illegalExclude
  | redundantScheduling
  | unresolvedReference
  deriving DecidableEq

instance : Keyword ProblemKind where
  all := [.missing, .wrongShape, .unknownType, .repeatedType, .defaultMisfit, .boundMisfit,
    .illegalExclude, .redundantScheduling, .unresolvedReference]
  word
    | .missing => "RequiredFieldMissing"
    | .wrongShape => "WrongFieldShape"
    | .unknownType => "UnknownTypeToken"
    | .repeatedType => "DuplicateTypeInSet"
    | .defaultMisfit => "InvalidDefaultShape"
    | .boundMisfit => "InvalidRangeShape"
    | .illegalExclude => "InvalidExcludeValue"
    | .redundantScheduling => "RedundantSchedulingFlag"
    | .unresolvedReference => "UnresolvedTestReference"
  complete value := by cases value <;> decide
  distinct := by decide

/-- How bad a problem is. -/
inductive Severity where
  /-- The entry does not get into the model. -/
  | error
  /-- The problem is reported, and the entry is kept. -/
  | warning
  deriving DecidableEq

instance : Keyword Severity where
  all := [.error, .warning]
  word
    | .error => "error"
    | .warning => "warning"
  complete value := by cases value <;> decide
  distinct := by decide

/-- Redundancy is only warned about; everything else is an error. -/
def ProblemKind.severity : ProblemKind → Severity
  | .redundantScheduling => .warning
  | _ => .error

/-- What is wrong with a value. -/
inductive Problem where
  | missing
  | wrongShape (expected : String)
  | unknownType (token : String)
  | repeatedType (token : String)
  | defaultMisfit (typeName expected : String)
  | boundMisfit (typeName expected : String)
  | illegalExclude (value : String)
  | redundantScheduling (reason : String)
  | unresolvedReference (sectionName name : String)
  deriving DecidableEq

/-- A problem and the text of the path to it; the document itself has the empty path. -/
structure Diagnostic where
  path : String
  problem : Problem
  deriving DecidableEq

namespace Problem

/-- The kind of a problem. -/
def kind : Problem → ProblemKind
  | .missing => .missing
  | .wrongShape _ => .wrongShape
  | .unknownType _ => .unknownType
  | .repeatedType _ => .repeatedType
  | .defaultMisfit _ _ => .defaultMisfit
  | .boundMisfit _ _ => .boundMisfit
  | .illegalExclude _ => .illegalExclude
  | .redundantScheduling _ => .redundantScheduling
  | .unresolvedReference _ _ => .unresolvedReference

def message : Problem → String
  | .missing => "required field is missing"
  | .wrongShape expected => "expected " ++ expected
  | .unknownType token => "unknown type token '" ++ token ++ "'"
  | .repeatedType token => "type '" ++ token ++ "' is listed more than once"
  | .defaultMisfit typeName expected =>
      "default does not fit type '" ++ typeName ++ "', expected " ++ expected
  | .boundMisfit typeName expected =>
      "range bound does not fit type '" ++ typeName ++ "', expected " ++ expected
  | .illegalExclude value => "'" ++ value ++ "' is not a legal exclude value"
  | .redundantScheduling reason => reason
  | .unresolvedReference sectionName name =>
      "no attribute '" ++ name ++ "' in section '" ++ sectionName ++ "'"

/-- What a problem carries, as the members of an object. -/
def payload : Problem → List (String × String)
  | .missing => []
  | .wrongShape expected => [("expected", expected)]
  | .unknownType token => [("token", token)]
  | .repeatedType token => [("token", token)]
  | .defaultMisfit typeName expected => [("type_name", typeName), ("expected", expected)]
  | .boundMisfit typeName expected => [("type_name", typeName), ("expected", expected)]
  | .illegalExclude value => [("value", value)]
  | .redundantScheduling reason => [("reason", reason)]
  | .unresolvedReference sectionName name => [("section", sectionName), ("name", name)]

end Problem

namespace Diagnostic

/-! ## Reading -/

/-- The kind of a diagnostic. -/
def kind (diagnostic : Diagnostic) : ProblemKind := diagnostic.problem.kind

/-- How bad a diagnostic is. -/
def severity (diagnostic : Diagnostic) : Severity := diagnostic.kind.severity

/-- Whether a diagnostic keeps its entry out of the model. -/
def isError (diagnostic : Diagnostic) : Bool := diagnostic.severity = .error

def message (diagnostic : Diagnostic) : String :=
  (if diagnostic.path = "" then "<document>" else diagnostic.path) ++ ": " ++
    diagnostic.problem.message

/-- The text after the last point. -/
def lastSegment (path : String) : String :=
  String.ofList ((Text.splitAll '.' path.toList).getLast?.getD [])

/-- How the problem can be mended, where something general can be said. -/
def suggestion? (diagnostic : Diagnostic) : Option String :=
  match diagnostic.problem with
  | .missing => some ("Add the '" ++ lastSegment diagnostic.path ++ "' field")
  | .unknownType _ => some "Run `ogn types` to list every accepted type"
  | .repeatedType token => some ("Remove the repeated '" ++ token ++ "'")
  | .illegalExclude _ => some "Use one of: c++, docs, icon, python, template, tests, usd"
  | .redundantScheduling _ => some "Keep only the broader flag"
  | .unresolvedReference sectionName name =>
      some ("Declare '" ++ name ++ "' under '" ++ sectionName ++ "' or fix the test")
  | .wrongShape _ | .defaultMisfit _ _ | .boundMisfit _ _ => none

/-! ## JSON -/

def toJson (diagnostic : Diagnostic) : Json :=
  .object ([("kind", Record.ofKeyword diagnostic.kind), ("path", .string diagnostic.path)] ++
    diagnostic.problem.payload.map fun (name, text) => (name, .string text))

/-- Load what a problem of some kind carries. -/
def loadProblem? (members : List (String × Json)) (kind : ProblemKind) : Option Problem :=
  let text (name : String) : Option String := Record.required? members name Json.asString?
  match kind with
  | .missing => some .missing
  | .wrongShape => (text "expected").map .wrongShape
  | .unknownType => (text "token").map .unknownType
  | .repeatedType => (text "token").map .repeatedType
  | .defaultMisfit => return .defaultMisfit (← text "type_name") (← text "expected")
  | .boundMisfit => return .boundMisfit (← text "type_name") (← text "expected")
  | .illegalExclude => (text "value").map .illegalExclude
  | .redundantScheduling => (text "reason").map .redundantScheduling
  | .unresolvedReference => return .unresolvedReference (← text "section") (← text "name")

def ofJson? (value : Json) : Option Diagnostic := do
  let members ← value.asObject?
  let kind ← Record.required? members "kind" Record.keyword?
  let path ← Record.required? members "path" Json.asString?
  return ⟨path, ← loadProblem? members kind⟩

end Diagnostic

end NodeDescriptor
