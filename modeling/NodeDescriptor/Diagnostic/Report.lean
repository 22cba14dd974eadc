import NodeDescriptor.Diagnostic.Basic

/-!
# Reports

The diagnostics of one document in the order in which they were found, with a one-line summary
and a detailed text for each.
-/

set_option autoImplicit false

namespace NodeDescriptor

/-- The diagnostics of a document, in order. -/
structure Report where
  diagnostics : List Diagnostic
  deriving DecidableEq

namespace Report

def empty : Report := ⟨[]⟩

def push (report : Report) (diagnostic : Diagnostic) : Report :=
  ⟨report.diagnostics ++ [diagnostic]⟩

def extend (report : Report) (diagnostics : List Diagnostic) : Report :=
  ⟨report.diagnostics ++ diagnostics⟩

def errors (report : Report) : List Diagnostic := report.diagnostics.filter Diagnostic.isError

def warnings (report : Report) : List Diagnostic :=
  report.diagnostics.filter fun diagnostic => !diagnostic.isError

def hasErrors (report : Report) : Bool := report.diagnostics.any Diagnostic.isError

def size (report : Report) : Nat := report.diagnostics.length

def isEmpty (report : Report) : Bool := report.diagnostics.isEmpty

/-- How many errors and warnings there are, in words. -/
def summary (report : Report) : String :=
  match report.errors.length, report.warnings.length with
  | 0, 0 => "valid"
  | 0, warnings => "valid with " ++ toString warnings ++ " warning(s)"
  | errors, 0 => toString errors ++ " error(s)"
  | errors, warnings => toString errors ++ " error(s), " ++ toString warnings ++ " warning(s)"

/-- The text of one diagnostic: severity and message, then the suggestion on a line of its
own. -/
def detail (diagnostic : Diagnostic) : String :=
  Keyword.word diagnostic.severity ++ ": " ++ diagnostic.message ++
    match diagnostic.suggestion? with
    | none => ""
    | some suggestion => "\n   -> " ++ suggestion

/-- The texts of all diagnostics. -/
def detailed (report : Report) : List String := report.diagnostics.map detail

def toJson (report : Report) : Json :=
  .object [("diagnostics", .array (report.diagnostics.map Diagnostic.toJson))]

def ofJson? (value : Json) : Option Report := do
  let members ← Record.open? ["diagnostics"] value
  return ⟨← Record.required? members "diagnostics" (Record.list? Diagnostic.ofJson?)⟩

end Report

end NodeDescriptor
